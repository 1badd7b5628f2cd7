import EquityScreen.Decimal.Shortest

/-!
# Written forms of a number

A number is written with its shortest digits. A `Layout` says between which sizes the point is placed among the digits,
whether a whole number keeps a fraction of zero, and which of two shortest forms is taken when both are as near. Outside
those sizes an exponent follows the first digit. Three layouts are in use: `Layout.json` for documents, `Layout.plain` for
parameters in messages and `Layout.exact` for values quoted in messages.
-/

namespace EquityScreen

/-- The decisions a written form leaves open. The point position of `0.05` is -1, of `0.5` is 0, of `5` is 1. -/
structure Layout where
  /-- The least point position written without an exponent. `none`: every small number. -/
  leastPoint : Option Int
  /-- The greatest point position written without an exponent. `none`: every large number. -/
  greatestPoint : Option Int
  /-- A whole number without an exponent ends in `.0`. -/
  keepsPoint : Bool
  /-- Where two shortest forms are as near. -/
  tie : Tie

/-- Numbers of a document: up to sixteen places before the point, at most four zeros behind it. -/
def Layout.json : Layout := ⟨some (-4), some 16, true, .toEven⟩

/-- Numbers quoted inside a value: from one ten-thousandth to below ten to the sixteenth without exponent. -/
def Layout.exact : Layout := ⟨some (-3), some 16, true, .upwards⟩

/-- Parameters: never an exponent, no point in a whole number. -/
def Layout.plain : Layout := ⟨none, none, false, .upwards⟩

/-- A run of zeros. -/
def zeros (n : Nat) : String := String.ofList (List.replicate n '0')

/-- The digits with the point after `point` of them, zeros filled in on either side. -/
def positional (digits : String) (point : Int) (keepsPoint : Bool) : String :=
  let n : Int := digits.length
  if point ≤ 0 then "0." ++ zeros point.natAbs ++ digits
  else if n ≤ point then digits ++ zeros (point - n).natAbs ++ (if keepsPoint then ".0" else "")
  else (digits.take point.natAbs).toString ++ "." ++ (digits.drop point.natAbs).toString

/-- The digits with the point after the first and an exponent of ten. -/
def scientific (digits : String) (point : Int) : String :=
  let tail := (digits.drop 1).toString
  (digits.take 1).toString ++ (if tail.isEmpty then "" else "." ++ tail) ++ "e" ++ toString (point - 1)

/-- The text of a finite number. -/
def Layout.finite (l : Layout) (x : Float) : String :=
  let d := Decimal.shortest l.tie x
  let minus := if d.negative then "-" else ""
  if d.digits = 0 then minus ++ (if l.keepsPoint then "0.0" else "0")
  else
    let digits := toString d.digits
    let point := d.exponent + digits.length
    let inside := l.leastPoint.all (· ≤ point) && l.greatestPoint.all (point ≤ ·)
    minus ++ (if inside then positional digits point l.keepsPoint else scientific digits point)

/-- The text of a number that may be missing or infinite. -/
def Layout.write (l : Layout) (x : Float) : String :=
  if x.isNaN then "NaN"
  else if x.isInf then (if x < 0.0 then "-inf" else "inf")
  else l.finite x

end EquityScreen
