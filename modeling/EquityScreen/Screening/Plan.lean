import EquityScreen.Field.Registry
import EquityScreen.Indicator.Spec

/-!
# How a screen is carried out

A screen whose fields are all stored can be left to the store; one that names a technical or an unknown field is computed
symbol by symbol. A client may ask that the store is not used. A computed screen reads bars when it names a technical field,
and then computes what it names and the fields that every computed row shows.
-/

namespace EquityScreen

/-- Who answers a screen. -/
inductive Routing where
  | pushdown | computed
  deriving DecidableEq, Repr

/-- The name of a routing. -/
def Routing.name : Routing → String
  | .pushdown => "pushdown"
  | .computed => "computed"

/-- What a computed screen needs. -/
structure Analysis where
  technical : List String
  specs : List Spec
  needsSeries : Bool

/-- The fields of a condition and of sort keys, under the names of the registry, in increasing order. -/
def referencedFields (c : Condition) (keys : List SortKey) : List String :=
  Text.sortNames ((c.fields ++ keys.map (·.field)).map canonicalName)

namespace Registry

/-- The store holds the field. -/
def isStored (r : Registry) (name : String) : Bool :=
  match r.categoryOf? name with
  | some .basic | some .fundamental => true
  | _ => false

/-- Who can answer the screen. -/
def plan (r : Registry) (c : Condition) (keys : List SortKey) : Routing :=
  if (referencedFields c keys).all r.isStored then .pushdown else .computed

/-- Who answers the screen, given whether the client allows the store. -/
def planWithHint (r : Registry) (c : Condition) (keys : List SortKey) (preferPushdown : Bool) : Routing :=
  if preferPushdown then r.plan c keys else .computed

/-- What the screen needs when it is computed. -/
def analyze (r : Registry) (c : Condition) (keys : List SortKey) : Analysis :=
  let technical := (referencedFields c keys).filter r.isTechnical
  let specs := technical.filterMap Spec.forField? ++ if technical.isEmpty then [] else Spec.display
  ⟨technical, Spec.dedup specs, !technical.isEmpty⟩

end Registry

end EquityScreen
