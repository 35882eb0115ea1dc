/-
Features: the steps of a part's build history. `FeatureKind.slots` is the
catalogue of what each kind consists of; a `Feature` is an id, explicit
dependencies, tags, a kind and values for the slots of that kind.
-/
import PartPlan.Feature.Slot

namespace PartPlan

/-- The kinds of features. -/
inductive FeatureKind where
  | datumPlane
  | datumAxis
  | datumFrame
  | sketch
  | extrude
  | revolve
  | loft
  | hole
  | fillet
  | chamfer
  | shell
  | mirror
  | boolean
  | linearPattern
  | circularPattern
  deriving DecidableEq, Repr, Inhabited

namespace FeatureKind

/-- The tag of a kind. -/
def tag : FeatureKind → String
  | datumPlane => "datum.plane"
  | datumAxis => "datum.axis"
  | datumFrame => "datum.frame"
  | sketch => "feature.sketch2d"
  | extrude => "feature.extrude"
  | revolve => "feature.revolve"
  | loft => "feature.loft"
  | hole => "feature.hole"
  | fillet => "feature.fillet"
  | chamfer => "feature.chamfer"
  | shell => "feature.shell"
  | mirror => "feature.mirror"
  | boolean => "feature.boolean"
  | linearPattern => "pattern.linear"
  | circularPattern => "pattern.circular"

/-- All kinds, in the order in which tags are numbered. -/
def all : List FeatureKind :=
  [datumPlane, datumAxis, datumFrame, sketch, extrude, revolve, loft, hole, fillet, chamfer, shell,
    mirror, boolean, linearPattern, circularPattern]

def forms : List (String × FeatureKind) := all.map fun k => (k.tag, k)

open Slot in
/-- The slots of each kind, in the order in which they are written. -/
def slots : FeatureKind → List Slot
  | datumPlane => [required "normal" .direction, defaulted "offset" .length .zero]
  | datumAxis => [required "direction" .axis, defaulted "origin" .point3 .origin]
  | datumFrame => [required "on" (.geometry .one)]
  | sketch => [optional "plane" (.geometry .one), required "profiles" .declarations]
  | extrude =>
    [required "profile" .profile, required "depth" .depth, optional "axis" .axis,
      required "result" .output, optional "pattern" .pattern]
  | revolve =>
    [required "profile" .profile, required "axis" .axis, defaulted "angle" .sweep .full,
      required "result" .output]
  | loft => [required "profiles" .sections, required "result" .output]
  | hole =>
    [required "on" (.geometry .one), defaulted "position" .point2 .origin,
      required "diameter" .size, required "depth" .depth, optional "pattern" .pattern,
      optional "result" .output]
  | fillet =>
    [required "edges" (.geometry .many), required "radius" .size, optional "result" .output]
  | chamfer =>
    [required "edges" (.geometry .many), required "distance" .size, optional "result" .output]
  | shell =>
    [required "target" (.geometry .one), optional "remove" (.geometry .one),
      required "thickness" .size, optional "result" .output]
  | mirror =>
    [required "source" (.geometry .one), required "plane" (.geometry .one),
      required "result" .output]
  | boolean =>
    [required "op" .operation, required "left" (.geometry .one), required "right" (.geometry .one),
      required "result" .output]
  | linearPattern =>
    [required "origin" (.geometry .one), required "direction" .direction,
      required "spacing" .size, required "count" .count]
  | circularPattern =>
    [required "origin" (.geometry .one), required "axis" .axis, required "count" .count,
      defaulted "angle" .sweep .full]

/-- Whether features of a kind are layouts that replicate others. -/
def isPattern : FeatureKind → Bool
  | linearPattern | circularPattern => true
  | _ => false

end FeatureKind

/-- One step of a part's build history. -/
structure Feature where
  id : String
  /-- The features it has to follow, as given by the author. -/
  deps : List String
  tags : List String
  kind : FeatureKind
  payload : Payload kind.slots

/-- A selector in a slot of a feature. -/
structure SelectorSlot where
  name : String
  cardinality : Cardinality
  selector : Selector

namespace Entry

/-- The name of the output an entry declares. -/
def output? : Entry → Option String
  | ⟨_, .output, name⟩ => some name
  | _ => none

/-- The layout an entry refers to. -/
def pattern? : Entry → Option PatternRef
  | ⟨_, .pattern, ref⟩ => some ref
  | _ => none

/-- The names of the profiles an entry declares. -/
def declared : Entry → List String
  | ⟨_, .declarations, ps⟩ => List.map NamedProfile.name ps
  | _ => []

/-- The names of the profiles an entry refers to. -/
def profileRefs : Entry → List String
  | ⟨_, .profile, p⟩ => (Profile.refName? p).toList
  | ⟨_, .sections, ps⟩ => List.filterMap Profile.refName? ps
  | _ => []

/-- The selector of an entry. -/
def selector? : Entry → Option SelectorSlot
  | ⟨name, .geometry c, s⟩ => some ⟨name, c, s⟩
  | _ => none

end Entry

namespace Feature

/-- The filled slots of a feature in their order. -/
def entries (f : Feature) : List Entry := f.payload.entries f.kind.slots

/-- Whether a feature is a layout that replicates others. -/
def isPattern (f : Feature) : Bool := f.kind.isPattern

/-- The names of the outputs a feature produces. -/
def outputs (f : Feature) : List String := f.entries.filterMap Entry.output?

/-- The names of the profiles a feature declares. -/
def declaredProfiles (f : Feature) : List String := f.entries.flatMap Entry.declared

/-- The names of the profiles a feature refers to. -/
def profileRefs (f : Feature) : List String := f.entries.flatMap Entry.profileRefs

/-- The layout a feature refers to. -/
def patternRef? (f : Feature) : Option PatternRef := f.entries.findSome? Entry.pattern?

/-- The selectors of a feature, in the order of its slots. -/
def selectorSlots (f : Feature) : List SelectorSlot := f.entries.filterMap Entry.selector?

-- =============================================================== as JSON

/-- The fields that stand before those of the kind. -/
def headFields (f : Feature) : List (String × Option Json) :=
  [("id", some (.str f.id)), ("deps", Json.nonEmpty (f.deps.map .str)),
    ("tags", Json.nonEmpty (f.tags.map .str)), ("kind", some (.str f.kind.tag))]

/-- A feature is written as one record: its own fields, its tag, and the slots
of its kind. -/
def toJson (f : Feature) : Json :=
  Json.record (f.headFields ++ f.payload.toFields f.kind.slots)

/-- The feature a readable value stands for. A feature is always an object,
because the fields of its kind stand among its own. -/
def ofReadable? (v : Json) : Option Feature := do
  let ms ← v.members?
  match ← Json.Body.fields? ["id", "deps", "tags"] (.members ms) with
  | [id, deps, tags] =>
    let id ← Json.required Json.text? id
    let deps ← Json.defaulted [] (Json.list? Json.text?) deps
    let tags ← Json.defaulted [] (Json.list? Json.text?) tags
    let (kind, fields) ← Json.taggedFields? .namedOrNumbered FeatureKind.forms
      (fun k => k.slots.map Slot.name) v
    some ⟨id, deps, tags, kind, ← Payload.ofFields? kind.slots fields⟩
  | _ => none

def ofJson? (v : Json) : Option Feature := do ofReadable? (← v.whole?)

end Feature
end PartPlan
