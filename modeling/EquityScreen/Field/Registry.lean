import EquityScreen.Field.Catalog
import EquityScreen.Sorting

/-!
# The registry of fields

A registry is a list of fields, found by name; of several fields with one name the last is found. Eight names that clients
still use stand for other fields. Bringing a condition to the names of the registry (`Condition.normalize`) also changes the
numbers of a literal that is given for `market_cap`: they count ten thousands, and `total_mv`, which they become, counts
hundreds of millions. A second time changes nothing more, because a normalized condition no longer uses an old name.
-/

namespace EquityScreen

/-- The names still in use for other fields. -/
def oldNames : List (String × String) :=
  [("market_cap", "total_mv"), ("pe_ratio", "pe"), ("pb_ratio", "pb"), ("turnover", "turnover_rate"),
    ("change_percent", "pct_chg"), ("price", "close"), ("code", "symbol"), ("vol", "volume")]

/-- The name of a field in the registry: an old name is replaced, any other stays. -/
def canonicalName (name : String) : String :=
  ((oldNames.find? (·.1 == name)).map (·.2)).getD name

/-- The fields a screen knows. -/
structure Registry where
  fields : List Descriptor

/-- The literal of a comparison once its field has the name of the registry. -/
def normalizeLiteral (field : String) (l : Literal) : Literal :=
  if field = "market_cap" then l.mapNumbers (· / 10000.0) else l

namespace Operand

/-- The right side of a comparison on the field, with the names of the registry. -/
def normalize (field : String) : Operand → Operand
  | .literal l => .literal (normalizeLiteral field l)
  | .field name => .field (canonicalName name)

end Operand

/-- The comparison with the names of the registry. -/
def Leaf.normalize (l : Leaf) : Leaf :=
  ⟨canonicalName l.field, l.op, l.right.normalize l.field⟩

/-- The condition with the names of the registry. -/
def Condition.normalize (c : Condition) : Condition :=
  c.mapLeaves Leaf.normalize

/-- The sort key with the name of the registry. -/
def SortKey.normalize (k : SortKey) : SortKey :=
  { k with field := canonicalName k.field }

namespace Registry

/-- The registry of the catalog. -/
def builtin : Registry := ⟨Catalog.all⟩

/-- The field of a name or of an old name. -/
def resolve? (r : Registry) (name : String) : Option Descriptor :=
  r.fields.reverse.find? (·.name == canonicalName name)

/-- The category of a name or of an old name. -/
def categoryOf? (r : Registry) (name : String) : Option Category :=
  (r.resolve? name).map (·.category)

/-- The name stands for a field computed from bars. -/
def isTechnical (r : Registry) (name : String) : Bool :=
  r.categoryOf? name == some .technical

end Registry

end EquityScreen
