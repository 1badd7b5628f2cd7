import EquityScreen.Store.Affinity

/-!
# Sums of a column

The store adds whole numbers of 64 bits exactly as long as it meets nothing else and their sum has 64 bits too. From then on
it adds doubles and keeps apart what the roundings on the way have lost. A large whole number is then added in two parts that
are doubles.
-/

namespace EquityScreen

/-- A number that is added. -/
inductive Summand where
  | whole (n : Int)
  | real (x : Float)

/-- What a text adds: the whole number it is, the number it reads as, or the number in its front. -/
def Summand.ofText (t : String) : Summand :=
  match storedNumber? t with
  | some n =>
    match n.whole? with
    | some i => whole i
    | none => real n.toFloat
  | none => real (leadingNumber t)

/-- A whole number as two doubles, the second one zero unless the number is large. -/
def wholeParts (n : Int) : Float × Float :=
  let low := if n.natAbs < Nat.pow 2 52 then 0 else n.tmod 16384
  (Float.ofInt (n - low), Float.ofInt low)

/-- A sum on its way. -/
inductive RunningSum where
  | exact (n : Int)
  /-- A sum of doubles, and what its roundings have lost. -/
  | rounded (sum lost : Float)

namespace RunningSum

/-- The sum as doubles. -/
def parts : RunningSum → Float × Float
  | exact n => wholeParts n
  | rounded sum lost => (sum, lost)

/-- The sum with one more double. -/
def addReal (r : RunningSum) (x : Float) : RunningSum :=
  let (before, lost) := r.parts
  let sum := before + x
  rounded sum (lost + if x.abs < before.abs then (before - sum) + x else (x - sum) + before)

/-- The sum with one more number. -/
def add (r : RunningSum) : Summand → RunningSum
  | .real x => r.addReal x
  | .whole n =>
    let (high, low) := wholeParts n
    let byParts := (r.addReal high).addReal low
    match r with
    | exact m => if -(Nat.pow 2 63 : Int) ≤ m + n ∧ m + n < Nat.pow 2 63 then exact (m + n) else byParts
    | rounded .. => byParts

/-- The sum with what was lost; a sum that is no finite number stays as it is. -/
def total : RunningSum → Float
  | exact n => Float.ofInt n
  | rounded sum lost => if sum.isFinite then sum + lost else sum

end RunningSum

end EquityScreen
