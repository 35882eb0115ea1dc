/-
The geometry known while a part is being built: every selection produced so
far, and the selections registered under output names. Building a feature
yields a `BackendOutput`, which the context absorbs. Selections of an owner
that the output mentions are dropped first, since that body was rebuilt.
-/
import PartPlan.Selection.Basic

namespace PartPlan

/-- What building one feature has produced. -/
structure BackendOutput where
  outputs : SortedMap Selection
  selections : List Selection
  deriving DecidableEq, Repr

/-- The geometry known so far. -/
structure ResolutionContext where
  selections : List Selection
  named : SortedMap Selection
  deriving DecidableEq, Repr

namespace BackendOutput

/-- The owners whose selections an output holds. -/
def owners (o : BackendOutput) : List String := o.selections.filterMap Selection.owner?

def toJson (o : BackendOutput) : Json :=
  Json.record [("outputs", some (Json.ofMap Selection.toJson o.outputs)),
    ("selections", some (.arr (o.selections.map Selection.toJson)))]

def ofJson? (v : Json) : Option BackendOutput := do
  match ← v.fields? ["outputs", "selections"] with
  | [outputs, selections] =>
    some ⟨← Json.defaulted .empty (Json.map? Selection.ofJson?) outputs,
      ← Json.defaulted [] (Json.list? Selection.ofJson?) selections⟩
  | _ => none

end BackendOutput

namespace ResolutionContext

/-- The context before anything is built. -/
def empty : ResolutionContext := ⟨[], .empty⟩

instance : Inhabited ResolutionContext := ⟨empty⟩

/-- The context that holds the given selections and no names. -/
def ofSelections (selections : List Selection) : ResolutionContext := ⟨selections, .empty⟩

/-- A selection registered under a name, in place of an earlier one. -/
def register (c : ResolutionContext) (name : String) (s : Selection) : ResolutionContext :=
  { c with named := c.named.insert name s }

/-- Whether a selection stays when bodies of the given owners are rebuilt. -/
def survives (owners : List String) (s : Selection) : Bool :=
  match s.owner? with
  | none => true
  | some owner => !owners.contains owner

/-- The context after one more output. -/
def absorb (c : ResolutionContext) (o : BackendOutput) : ResolutionContext where
  selections := c.selections.filter (survives o.owners) ++ o.selections
  named := c.named.union o.outputs

/-- The number of selections. -/
def size (c : ResolutionContext) : Nat := c.selections.length

def toJson (c : ResolutionContext) : Json :=
  Json.record [("selections", some (.arr (c.selections.map Selection.toJson))),
    ("named", some (Json.ofMap Selection.toJson c.named))]

def ofJson? (v : Json) : Option ResolutionContext := do
  match ← v.fields? ["selections", "named"] with
  | [selections, named] =>
    some ⟨← Json.defaulted [] (Json.list? Selection.ofJson?) selections,
      ← Json.defaulted .empty (Json.map? Selection.ofJson?) named⟩
  | _ => none

end ResolutionContext
end PartPlan
