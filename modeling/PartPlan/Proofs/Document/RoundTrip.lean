/-
The canonical text of a document says what the document says. Whatever spelling
of a document is accepted (fields in any order or as a list, tags by name or by
number, defaults written or left out, fields that nobody knows), writing the
value and reading the text again gives the value, and so the text once more.

The value that was read is one that a text can denote, so its fields agree with
what is written of them; what is written is read as it stands, for the reader of
JSON undoes the printer as long as no bracket is too deep and the numbers are such
as it gives back. That is asked of the numbers in the value alone, and a reader that
rounds to the nearest number gives all of them back.
-/
import PartPlan.Proofs.Document.Records

namespace PartPlan

/-- The types of documents. -/
inductive DocumentType where
  | part
  | feature
  | selector
  | predicate
  | rankRule
  | scalar
  | depth
  | sweep
  | axis
  | profile
  | patternRef
  | metaValue
  | selection
  | backendOutput
  | resolutionContext
  | graph
  | options
  | paramDef
  | paramTable
  | buildPlan
  | diagnostic
  deriving DecidableEq, Repr

namespace DocumentType

/-- What a document of a type stands for. -/
abbrev Value : DocumentType → Type
  | part => Part
  | feature => Feature
  | selector => Selector
  | predicate => Predicate
  | rankRule => RankRule
  | scalar => Scalar
  | depth => Depth
  | sweep => Sweep
  | axis => Axis
  | profile => Profile
  | patternRef => PatternRef
  | metaValue => MetaValue
  | selection => Selection
  | backendOutput => BackendOutput
  | resolutionContext => ResolutionContext
  | graph => Graph
  | options => Options
  | paramDef => ParamDef
  | paramTable => ParamTable
  | buildPlan => BuildPlan
  | diagnostic => Diagnostic

def ofJson? : (t : DocumentType) → Json → Option t.Value
  | part => Part.ofJson?
  | feature => Feature.ofJson?
  | selector => Selector.ofJson?
  | predicate => Predicate.ofJson?
  | rankRule => RankRule.ofJson?
  | scalar => Scalar.ofJson?
  | depth => Depth.ofJson?
  | sweep => Sweep.ofJson?
  | axis => Axis.ofJson?
  | profile => Profile.ofJson?
  | patternRef => PatternRef.ofJson?
  | metaValue => MetaValue.ofJson?
  | selection => Selection.ofJson?
  | backendOutput => BackendOutput.ofJson?
  | resolutionContext => ResolutionContext.ofJson?
  | graph => Graph.ofJson?
  | options => Options.ofJson?
  | paramDef => ParamDef.ofJson?
  | paramTable => ParamTable.ofJson?
  | buildPlan => BuildPlan.ofJson?
  | diagnostic => Diagnostic.ofJson?

def toJson : (t : DocumentType) → t.Value → Json
  | part => Part.toJson
  | feature => Feature.toJson
  | selector => Selector.toJson
  | predicate => Predicate.toJson
  | rankRule => RankRule.toJson
  | scalar => Scalar.toJson
  | depth => Depth.toJson
  | sweep => Sweep.toJson
  | axis => Axis.toJson
  | profile => Profile.toJson
  | patternRef => PatternRef.toJson
  | metaValue => MetaValue.toJson
  | selection => Selection.toJson
  | backendOutput => BackendOutput.toJson
  | resolutionContext => ResolutionContext.toJson
  | graph => Graph.toJson
  | options => Options.toJson
  | paramDef => ParamDef.toJson
  | paramTable => ParamTable.toJson
  | buildPlan => BuildPlan.toJson
  | diagnostic => Diagnostic.toJson

/-- The value that a text stands for as a document of a type, to a reader that rounds
numbers as `r` does. -/
def parse? (t : DocumentType) (r : Number.Rounding) (text : String) : Option t.Value :=
  (Json.parse? r text).bind t.ofJson?

/-- The canonical text of a value. -/
def text (t : DocumentType) (a : t.Value) : String := (t.toJson a).compact

/-- The canonical text as bytes. -/
def bytes (t : DocumentType) (a : t.Value) : List UInt8 := (t.toJson a).bytes

/-- A part that is given as a text is parsed as a document of its type. -/
theorem parse?_part (r : Number.Rounding) (refusal : String → String) (given : String)
    (p : Part) : part.parse? r given = some p ↔ Part.parse r refusal given = .ok p :=
  Part.parse_eq_ok.symm

theorem roundTrips (t : DocumentType) : Json.RoundTrips t.ofJson? t.toJson := by
  cases t with
  | part => exact Part.roundTrips
  | feature => exact Feature.roundTrips
  | selector => exact Selector.roundTrips
  | predicate => exact Predicate.roundTrips
  | rankRule => exact RankRule.roundTrips
  | scalar => exact Scalar.roundTrips
  | depth => exact Depth.roundTrips
  | sweep => exact Sweep.roundTrips
  | axis => exact Axis.roundTrips
  | profile => exact Profile.roundTrips
  | patternRef => exact PatternRef.roundTrips
  | metaValue => exact MetaValue.roundTrips
  | selection => exact Selection.roundTrips
  | backendOutput => exact BackendOutput.roundTrips
  | resolutionContext => exact ResolutionContext.roundTrips
  | graph => exact Graph.roundTrips
  | options => exact Options.roundTrips
  | paramDef => exact ParamDef.roundTrips
  | paramTable => exact ParamTable.roundTrips
  | buildPlan => exact BuildPlan.roundTrips
  | diagnostic => exact Diagnostic.roundTrips

/-- Reading undoes writing on everything that can be read: the canonical text of
what was read stands for the same value, each number bit for bit, and so has
the same canonical bytes, unless its brackets are too deep. Of the reader it is asked
that it gives back those numbers that the text holds. -/
theorem parse?_text (t : DocumentType) {r : Number.Rounding} {given : String} {a : t.Value}
    (accepted : t.parse? r given = some a) (shallow : (t.toJson a).depth ≤ Json.maxDepth)
    (returned : ∀ x ∈ (t.toJson a).numbers, r.Returns x) :
    t.parse? r (t.text a) = some a
      ∧ (t.parse? r (t.text a)).map t.bytes = some (t.bytes a) := by
  obtain ⟨v, parsed, read⟩ := Option.bind_eq_some_iff.1 accepted
  have reads := t.roundTrips v a (Json.sound_of_parse? parsed) read
  have again : t.parse? r (t.text a) = some a := by
    show (Json.parse? r (t.toJson a).compact).bind t.ofJson? = some a
    rw [Json.parse?_compact r reads.textual,
      reads.textual.sound.reread_eq_self (by omega) returned, Option.bind_some, reads.read]
  exact ⟨again, by rw [again, Option.map_some]⟩

/-- The definition of an angle as no writer spells it: a list, the dimension as
an object, and a product with its tag between its fields, a field that nobody
knows, and a literal whose tag is a number. -/
def crookedTilt : String :=
  "[\"tilt\",\x7b\"angle\":null\x7d,\x7b\"left\":[0,90,\"deg\"],\"note\":[1],"
    ++ "\"kind\":\"expr.binary\",\"op\":\x7b\"*\":\x7b\x7d\x7d,\"right\":2\x7d]"

/-- The same definition as it is written. -/
def straightTilt : String :=
  "\x7b\"id\":\"tilt\",\"type\":\"angle\",\"value\":\x7b\"kind\":\"expr.binary\",\"op\":\"*\","
    ++ "\"left\":\x7b\"kind\":\"expr.literal\",\"value\":90.0,\"unit\":\"deg\"\x7d,"
    ++ "\"right\":2.0\x7d\x7d"

/-- The definition that both texts stand for. -/
def tilt : ParamDef := ⟨"tilt", .angle, .binary .mul (.literal 90 (some "deg")) (.value 2)⟩

theorem parse?_text_tilt :
    paramDef.parse? .nearest crookedTilt = some tilt
      ∧ (paramDef.toJson tilt).depth ≤ Json.maxDepth
      ∧ (∀ x ∈ (paramDef.toJson tilt).numbers, Number.Rounding.nearest.Returns x)
      ∧ paramDef.text tilt = straightTilt
      ∧ paramDef.parse? .nearest straightTilt = some tilt
      ∧ (paramDef.parse? .nearest straightTilt).map paramDef.bytes
        = some (paramDef.bytes tilt) := by
  have accepted : paramDef.parse? .nearest crookedTilt = some tilt := by decide +kernel
  have shallow : (paramDef.toJson tilt).depth ≤ Json.maxDepth := by decide +kernel
  have finite : ∀ x ∈ (paramDef.toJson tilt).numbers, x.isFinite = true := by decide +kernel
  have returned := fun x hx => Number.Rounding.nearest_returns (finite x hx)
  have written : paramDef.text tilt = straightTilt := by decide +kernel
  have again := parse?_text paramDef accepted shallow returned
  rw [written] at again
  exact ⟨accepted, shallow, returned, written, again⟩

end DocumentType
end PartPlan
