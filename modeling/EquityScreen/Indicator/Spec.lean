import EquityScreen.Condition.Literal
import EquityScreen.Decimal.Whole
import EquityScreen.Indicator.Formula
import EquityScreen.Json.Record
import EquityScreen.Named
import EquityScreen.Text.Ascii

/-!
# Specifications of indicators

A specification names an indicator and gives it parameters, which are checked before anything is computed (`Spec.checked`). A
parameter that is absent takes the usual value of the indicator. A period is a whole number from one on, a factor a finite
number above zero. The names of computed fields carry the period, and `Spec.forField?` finds the specification that a field
name asks for.
-/

namespace EquityScreen

open Json

/-- The indicators by name. -/
inductive IndicatorName where
  | ma | ema | macd | rsi | boll | atr | kdj
  deriving DecidableEq, Repr

namespace IndicatorName

/-- The name as it is written. -/
def toText : IndicatorName → String
  | ma => "MA"
  | ema => "EMA"
  | macd => "MACD"
  | rsi => "RSI"
  | boll => "BOLL"
  | atr => "ATR"
  | kdj => "KDJ"

/-- Every indicator. -/
def all : List IndicatorName := [ma, ema, macd, rsi, boll, atr, kdj]

/-- The indicator of a document. -/
def ofJson (v : Json) : Read IndicatorName := do
  let name ← asName v
  match all.find? (·.toText == name) with
  | some i => return i
  | none => throw .shape

end IndicatorName

/-- Why an indicator cannot be computed. -/
inductive IndicatorError where
  /-- The series lacks columns. -/
  | missingColumns (indicator : IndicatorName) (missing available : List String)
  /-- A parameter is out of range; its value is kept as it is written. -/
  | invalidParameter (indicator : IndicatorName) (parameter value : String)
  deriving DecidableEq, Repr

/-- The text of an error. -/
def IndicatorError.message : IndicatorError → String
  | .missingColumns i missing available =>
    s!"{i.toText} needs columns {Text.quotedList missing}, series has {Text.quotedList available}"
  | .invalidParameter i parameter value => s!"{i.toText}: invalid parameter {parameter}={value}"

/-- The name of a smoothing. -/
def RsiMethod.name : RsiMethod → String
  | .ema => "ema"
  | .sma => "sma"
  | .china => "china"

/-- The smoothing of a name. -/
def RsiMethod.ofName? : String → Option RsiMethod
  | "ema" => some .ema
  | "sma" => some .sma
  | "china" => some .china
  | _ => none

/-- An indicator with its parameters as they are given. -/
structure Spec where
  name : IndicatorName
  params : Named Value

/-- An indicator with parameters that are in range. -/
inductive Indicator where
  | ma (n : Nat)
  | ema (n : Nat)
  | macd (fast slow signal : Nat)
  | rsi (n : Nat) (method : RsiMethod)
  | boll (n : Nat) (k : Float)
  | atr (n : Nat)
  | kdj (n : Nat) (m1 m2 : Float)

/-- A parameter as it is written. -/
def Value.written : Value → String
  | .number x => Layout.plain.write x
  | .text s => s

/-- Parameters are equal as numbers or as texts. -/
def Value.same : Value → Value → Bool
  | .number x, .number y => x == y
  | .text s, .text t => s == t
  | _, _ => false

namespace Spec

/-- A specification with the given numbers as parameters. -/
def ofNumbers (name : IndicatorName) (params : List (String × Float)) : Spec :=
  ⟨name, Named.ofList (params.map fun (k, x) => (k, .number x))⟩

/-- The moving average of a period. -/
def ma (n : Nat) : Spec := ofNumbers .ma [("n", Float.ofNat n)]

/-- The exponential mean of a period. -/
def ema (n : Nat) : Spec := ofNumbers .ema [("n", Float.ofNat n)]

/-- Convergence and divergence of two means. -/
def macd (fast slow signal : Nat) : Spec :=
  ofNumbers .macd [("fast", Float.ofNat fast), ("slow", Float.ofNat slow), ("signal", Float.ofNat signal)]

/-- The relative strength index of a period. -/
def rsi (n : Nat) (method : RsiMethod) : Spec :=
  ⟨.rsi, Named.ofList [("n", .number (Float.ofNat n)), ("method", .text method.name)]⟩

/-- The bands of a period. -/
def boll (n : Nat) (k : Float) : Spec := ofNumbers .boll [("n", Float.ofNat n), ("k", k)]

/-- The mean range of a period. -/
def atr (n : Nat) : Spec := ofNumbers .atr [("n", Float.ofNat n)]

/-- The stochastic lines of a period. -/
def kdj (n : Nat) (m1 m2 : Float) : Spec := ofNumbers .kdj [("n", Float.ofNat n), ("m1", m1), ("m2", m2)]

/-- Specifications are equal: the indicators are, and the parameters name by name. -/
def same (a b : Spec) : Bool :=
  a.name == b.name && a.params.entries.length == b.params.entries.length &&
    (a.params.entries.zip b.params.entries).all fun (p, q) => p.1 == q.1 && p.2.same q.2

/-- The specifications without repetition, each where it is first. -/
def dedup (specs : List Spec) : List Spec :=
  specs.foldl (fun kept s => if kept.any (same · s) then kept else kept ++ [s]) []

/-- The error of a parameter. -/
def invalid (s : Spec) (key : String) (v : Value) : IndicatorError :=
  .invalidParameter s.name key v.written

/-- A parameter that is a period: a whole number from one on, at most the greatest count. -/
def period (s : Spec) (key : String) (usual : Nat) : Except IndicatorError Nat :=
  match s.params.get? key with
  | none => .ok usual
  | some (.number x) =>
    match wholeNumber? x with
    | some n => if 1 ≤ n then .ok (min n greatestCount) else .error (s.invalid key (.number x))
    | none => .error (s.invalid key (.number x))
  | some v => .error (s.invalid key v)

/-- A parameter that is a factor: finite and above zero. -/
def factor (s : Spec) (key : String) (usual : Float) : Except IndicatorError Float :=
  match s.params.get? key with
  | none => .ok usual
  | some (.number x) => if x.isFinite && 0.0 < x then .ok x else .error (s.invalid key (.number x))
  | some v => .error (s.invalid key v)

/-- The parameter that is a smoothing, read in any case. -/
def method (s : Spec) : Except IndicatorError RsiMethod :=
  match s.params.get? "method" with
  | none => .ok .ema
  | some (.text t) =>
    match RsiMethod.ofName? (Text.foldAscii t) with
    | some m => .ok m
    | none => .error (s.invalid "method" (.text t))
  | some v => .error (s.invalid "method" v)

/-- The indicator with its parameters checked, in the order they are named. -/
def checked (s : Spec) : Except IndicatorError Indicator :=
  match s.name with
  | .ma => return .ma (← s.period "n" 20)
  | .ema => return .ema (← s.period "n" 20)
  | .macd => return .macd (← s.period "fast" 12) (← s.period "slow" 26) (← s.period "signal" 9)
  | .rsi => return .rsi (← s.period "n" 14) (← s.method)
  | .boll => return .boll (← s.period "n" 20) (← s.factor "k" 2.0)
  | .atr => return .atr (← s.period "n" 14)
  | .kdj => return .kdj (← s.period "n" 9) (← s.factor "m1" 3.0) (← s.factor "m2" 3.0)

/-- The name of a column that carries a period. -/
def columnName (stem : String) (n : Nat) : String := stem ++ toString n

/-- The columns a specification names, for which only the period counts where the names carry it. -/
def outputs (s : Spec) : Except IndicatorError (List String) :=
  match s.name with
  | .ma => return [columnName "ma" (← s.period "n" 20)]
  | .ema => return [columnName "ema" (← s.period "n" 20)]
  | .macd => return ["dif", "dea", "macd_hist"]
  | .rsi => return [columnName "rsi" (← s.period "n" 14)]
  | .boll => return ["boll_mid", "boll_upper", "boll_lower"]
  | .atr => return [columnName "atr" (← s.period "n" 14)]
  | .kdj => return ["kdj_k", "kdj_d", "kdj_j"]

/-- The columns an indicator reads. -/
def required (s : Spec) : List String :=
  match s.name with
  | .atr | .kdj => ["high", "low", "close"]
  | _ => ["close"]

/-- The period at the end of a field name: digits to the end, a count above zero. -/
def periodOfDigits (cs : List Char) : Option Nat :=
  if cs.isEmpty || cs.any (!·.isDigit) then none
  else
    let n := digitsValue 0 cs
    if 0 < n && n ≤ greatestCount then some n else none

/-- The specification whose columns hold a field: the lines of an indicator with its usual parameters, or a name that ends in
its period. -/
def forField? (field : String) : Option Spec :=
  match field with
  | "dif" | "dea" | "macd_hist" => some (macd 12 26 9)
  | "boll_mid" | "boll_upper" | "boll_lower" => some (boll 20 2.0)
  | "kdj_k" | "kdj_d" | "kdj_j" => some (kdj 9 3.0 3.0)
  | _ =>
    let stem := String.ofList (field.toList.takeWhile (!·.isDigit))
    match stem, periodOfDigits (field.toList.dropWhile (!·.isDigit)) with
    | "ma", some n => some (ma n)
    | "ema", some n => some (ema n)
    | "rsi", some n => some (rsi n .ema)
    | "atr", some n => some (atr n)
    | _, _ => none

/-- The fields that every computed row shows once a computed field is asked for. -/
def displayFields : List String :=
  ["ma20", "rsi14", "kdj_k", "kdj_d", "kdj_j", "dif", "dea", "macd_hist"]

/-- The specifications of the fields shown. -/
def display : List Spec := displayFields.filterMap forField?

/-- A parameter of a document. -/
def paramOfJson : Json → Read Value
  | .number n => .ok (.number n.toFloat)
  | .text s => .ok (.text s)
  | _ => .error .shape

/-- The parameters of a document. -/
def paramsOfJson : Json → Read (Named Value)
  | .object members => do return Named.ofList (← members.mapM fun (k, v) => do return (k, ← paramOfJson v))
  | _ => .error .shape

/-- The specification of a document. -/
def ofJson (v : Json) : Read Spec := do
  let fs ← Json.fields [["name"], ["params"]] v
  return ⟨← fs.required 0 IndicatorName.ofJson, ← fs.orElse 1 .empty paramsOfJson⟩

/-- The document of a parameter. -/
def paramToJson : Value → Json
  | .number x => .real x
  | .text s => .text s

/-- The document of a specification. -/
def toJson (s : Spec) : Json :=
  .object [("name", .text s.name.toText),
    ("params", .object (s.params.entries.map fun (k, v) => (k, paramToJson v)))]

end Spec

end EquityScreen
