/-
The texts that are hashed are unambiguous: whatever stands in an id, in a tag
or in a name, quotes and commas included, two features with one text are one
feature, and two requests for a cache key with one text ask for the same key.
Of the overrides the text keeps what `quantize` keeps.

A request has no text, and so no key, exactly if the hash of an ordered
feature is missing.
-/
import PartPlan.Proofs.Plan.CacheKey

namespace PartPlan

-- =============================================================== requests

/-- A request for a cache key. -/
structure KeyRequest where
  partId : String
  order : List String
  hashes : SortedMap String
  backend : String
  overrides : Overrides

namespace KeyRequest

/-- The ordered features of a request with their hashes. -/
def features? (r : KeyRequest) : Option (List (String × String)) :=
  orderedHashes? r.order r.hashes

/-- The bytes that are hashed for a request. -/
def bytes? (r : KeyRequest) : Option (List UInt8) :=
  r.features?.map fun features =>
    (cacheKeyInput r.partId features r.backend r.overrides).bytes

/-- The key a request is answered with. -/
def key? (r : KeyRequest) : Option String :=
  cacheKey? r.partId r.order r.hashes r.backend r.overrides

theorem key?_eq (r : KeyRequest) : r.key? = r.bytes?.map Digest.xxHash64Hex := by
  unfold key? cacheKey? bytes? features?
  cases orderedHashes? r.order r.hashes <;> rfl

/-- Only a missing hash can be in the way of a key. -/
theorem features?_eq_none {r : KeyRequest} :
    r.features? = none ↔ ∃ id ∈ r.order, r.hashes.find? id = none := by
  unfold features? orderedHashes?
  induction r.order with
  | nil => simp
  | cons id order ih =>
    rw [List.mapM_cons, List.exists_mem_cons_iff, ← ih]
    cases r.hashes.find? id with
    | none => simp
    | some hash =>
      cases order.mapM fun id => (r.hashes.find? id).map fun hash => (id, hash) <;> simp

theorem key?_eq_none {r : KeyRequest} :
    r.key? = none ↔ ∃ id ∈ r.order, r.hashes.find? id = none := by
  rw [key?_eq, bytes?, Option.map_map, Option.map_eq_none_iff, features?_eq_none]

theorem bytes?_inj {r s : KeyRequest} {text text' : List UInt8} (asked : r.bytes? = some text)
    (asked' : s.bytes? = some text') :
    text = text' ↔ r.partId = s.partId ∧ r.features? = s.features? ∧ r.backend = s.backend
      ∧ r.overrides.map quantize = s.overrides.map quantize := by
  obtain ⟨features, found, rfl⟩ := Option.map_eq_some_iff.1 asked
  obtain ⟨features', found', rfl⟩ := Option.map_eq_some_iff.1 asked'
  rw [bytes_cacheKeyInput_inj, found, found', Option.some.injEq]

end KeyRequest

-- ============================================================ what is told

/-- Two finite features are hashed from the same bytes exactly if they are the
same. Two requests for a cache key are hashed from the same bytes exactly if
they name the same part, the same features with the same hashes in the same
order, the same backend, and overrides that are the same after quantization.
A request goes without a key exactly if an ordered feature has no hash. -/
theorem hashed_text_unambiguous :
    (∀ f g : Feature, f.hash = Digest.sha256Hex f.hashInput.bytes
      ∧ (f.IsFinite → g.IsFinite → (f.hashInput.bytes = g.hashInput.bytes ↔ f = g)))
    ∧ (∀ r : KeyRequest, r.key? = r.bytes?.map Digest.xxHash64Hex
      ∧ (r.key? = none ↔ ∃ id ∈ r.order, r.hashes.find? id = none))
    ∧ ∀ (r s : KeyRequest) (text text' : List UInt8),
      r.bytes? = some text → s.bytes? = some text' →
        (text = text' ↔ r.partId = s.partId ∧ r.features? = s.features?
          ∧ r.backend = s.backend
          ∧ r.overrides.map quantize = s.overrides.map quantize) := by
  refine ⟨fun f g => ⟨rfl, fun hf hg => ⟨Feature.eq_of_bytes_hashInput hf hg, ?_⟩⟩,
    fun r => ⟨r.key?_eq, KeyRequest.key?_eq_none⟩,
    fun r s text text' asked asked' => KeyRequest.bytes?_inj asked asked'⟩
  rintro rfl
  rfl

-- ======================================================== forged features

/-- A sketch without profiles. -/
def emptySketch (id : String) (tags : List String) : Feature :=
  ⟨id, [], tags, .sketch, (none, [], ())⟩

theorem emptySketch.isFinite (id : String) (tags : List String) :
    (emptySketch id tags).IsFinite := by
  refine ⟨?_, ?_, trivial⟩
  · rintro w ⟨⟩
  · rintro w ⟨⟩ p hp
    cases hp

/-- A request for the key of a plan of one feature. -/
def singleRequest (id hash : String) (width : Float) : KeyRequest :=
  ⟨"plate", [id], .ofList [(id, hash)], "occt", .ofList [("width", width)]⟩

/-- The text that is hashed for a single feature. -/
theorem singleRequest.bytes?_eq (id hash : String) (width : Float) :
    (singleRequest id hash width).bytes?
      = some (cacheKeyInput "plate" [(id, hash)] "occt" (.ofList [("width", width)])).bytes := by
  have found : (SortedMap.ofList [(id, hash)]).find? id = some hash :=
    SortedMap.find?_ofList_of_mem (by simp) (by simp)
  simp [KeyRequest.bytes?, KeyRequest.features?, orderedHashes?, singleRequest, found]

/-- The number that is hashed for a width of three tenths. -/
theorem quantize_tenths : quantize 0.3 = 300000 ∧ quantize 0.30000000000000004 = 300000 := by
  decide +kernel

/-- An id that spells out the tags of another feature does not give it the text
of that feature, and a hash that spells out another entry does not give a
request the text of that entry. What is below the quantum is not written. -/
theorem forged_text_differs :
    (emptySketch "a" ["b"]).hashInput.bytes
      ≠ (emptySketch "a\",\"tags\":[\"b\"]" []).hashInput.bytes
    ∧ (singleRequest "a" "b" 0.3).bytes? ≠ (singleRequest "a\",\"b" "" 0.3).bytes?
    ∧ (singleRequest "a" "b" 0.3).bytes? = (singleRequest "a" "b" 0.30000000000000004).bytes?
    ∧ (singleRequest "a" "b" 0.3).key? ≠ none := by
  obtain ⟨features, keys, requests⟩ := hashed_text_unambiguous
  have asked (id hash width) := (singleRequest.bytes?_eq id hash width)
  refine ⟨fun same => ?_, fun same => ?_, ?_, ?_⟩
  · have both := ((features _ _).2 (emptySketch.isFinite ..) (emptySketch.isFinite ..)).1 same
    exact absurd (congrArg Feature.id both) (by decide)
  · have both := (requests _ _ _ _ (asked ..) (same ▸ asked ..)).1 rfl
    have entries : orderedHashes? ["a"] (.ofList [("a", "b")])
        = orderedHashes? ["a\",\"b"] (.ofList [("a\",\"b", "")]) := both.2.1
    exact absurd entries (by decide)
  · have noise : (SortedMap.ofList [("width", (0.3 : Float))]).map quantize
        = (SortedMap.ofList [("width", (0.30000000000000004 : Float))]).map quantize := by
      show SortedMap.ofList [("width", quantize 0.3)]
        = SortedMap.ofList [("width", quantize 0.30000000000000004)]
      rw [quantize_tenths.1, quantize_tenths.2]
    have text := (requests _ _ _ _ (asked "a" "b" 0.3) (asked "a" "b" 0.30000000000000004)).2
      ⟨rfl, rfl, rfl, noise⟩
    rw [asked, asked, text]
  · intro missing
    obtain ⟨id, ordered, unbound⟩ := (keys _).2.1 missing
    obtain rfl := List.mem_singleton.1 ordered
    exact absurd unbound (by decide)

end PartPlan
