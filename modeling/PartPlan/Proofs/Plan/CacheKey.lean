/-
What a cache key tells apart. A key is a digest of a text, and the text names
the part, the order, and the hash of each feature. If two plans have the same
text, and no two of their features the same SHA-256 digest without having the
same text themselves, the plans have the same features in the same order.

They need not be the same build. The unit system, in which all lengths of a
plan are meant, is in no feature and not in the key: of the plates at the end,
two differ in it alone and share their key.
-/
import PartPlan.Proofs.Document.Feature
import PartPlan.Proofs.Plan.Coherence

namespace PartPlan

-- ============================================================ hexadecimal

namespace Digest

theorem byteHex_append_inj {a b : UInt8} {xs ys : List Char}
    (same : byteHex a ++ xs = byteHex b ++ ys) : a = b ∧ xs = ys := by
  simp only [byteHex, List.cons_append, List.nil_append, List.cons.injEq] at same
  obtain ⟨high, low, rest⟩ := same
  have small (n : ℕ) (h : n < 256) : n / 16 < 16 := by omega
  have digit : ∀ m < 16, ∀ n < 16, hexDigit m = hexDigit n → m = n := by decide
  have high := digit _ (small _ a.toNat_lt) _ (small _ b.toNat_lt) high
  have low := digit _ (Nat.mod_lt _ (by decide)) _ (Nat.mod_lt _ (by decide)) low
  refine ⟨UInt8.toNat_inj.1 ?_, rest⟩
  omega

/-- Bytes with the same digits are the same. -/
theorem hex_injective : Function.Injective hex := by
  intro as bs same
  replace same : as.flatMap byteHex = bs.flatMap byteHex := String.ofList_injective same
  induction as generalizing bs with
  | nil =>
    cases bs with
    | nil => rfl
    | cons b bs => simp [byteHex] at same
  | cons a as ih =>
    cases bs with
    | nil => simp [byteHex] at same
    | cons b bs =>
      rw [List.flatMap_cons, List.flatMap_cons] at same
      obtain ⟨rfl, rest⟩ := byteHex_append_inj same
      rw [ih rest]

end Digest

-- ================================================================= hashes

namespace Feature

/-- No two of the features have the same digest unless they have the same
text. -/
def NoCollision (fs gs : List Feature) : Prop :=
  ∀ f ∈ fs, ∀ g ∈ gs, Digest.sha256 f.hashInput.bytes = Digest.sha256 g.hashInput.bytes →
    f.hashInput.bytes = g.hashInput.bytes

theorem eq_of_map_hash {fs gs : List Feature} (finite : ∀ f ∈ fs, f.IsFinite)
    (finite' : ∀ g ∈ gs, g.IsFinite) (clean : NoCollision fs gs)
    (same : fs.map hash = gs.map hash) : fs = gs := by
  induction fs generalizing gs with
  | nil => exact (List.map_eq_nil_iff.1 same.symm).symm
  | cons f fs ih =>
    cases gs with
    | nil => cases same
    | cons g gs =>
      obtain ⟨hash, rest⟩ := List.cons_eq_cons.1 same
      obtain ⟨finite, finites⟩ := List.forall_mem_cons.1 finite
      obtain ⟨finite', finites'⟩ := List.forall_mem_cons.1 finite'
      have text := clean f List.mem_cons_self g List.mem_cons_self (Digest.hex_injective hash)
      have clean' : NoCollision fs gs := fun f hf g hg =>
        clean f (List.mem_cons_of_mem _ hf) g (List.mem_cons_of_mem _ hg)
      rw [eq_of_bytes_hashInput finite finite' text, ih finites finites' clean' rest]

end Feature

-- ============================================================ cache keys

/-- What a number is quantized to, 64 bits can hold. -/
theorem isInt64_quantize (x : Float) : Json.Token.IsInt64 (quantize x) := by
  unfold Json.Token.IsInt64 quantize Number.toInt64Saturating
  split
  · decide
  split
  · unfold Number.clampInt64 Number.minInt64 Number.maxInt64
    omega
  split
  · decide
  · decide

/-- What is hashed for a cache key has a text that denotes it. -/
theorem textual_cacheKeyInput (partId : String) (features : List (String × String))
    (backend : String) (overrides : Overrides) :
    (cacheKeyInput partId features backend overrides).Textual := by
  have entries : (Json.arr (features.map fun entry => hashEntry entry.1 entry.2)).Textual := by
    refine Json.textual_map fun entry _ => .arr ?_
    simp [Json.Textual.str]
  have quantized : (Json.ofMap (fun x => .int (quantize x)) overrides).Textual := by
    refine .obj (List.forall_mem_map.2 fun entry _ => ?_)
    exact ⟨.int (isInt64_quantize entry.2), rfl⟩
  exact Json.textual_record (by simp [Json.Textual.str, entries, quantized])

/-- Maps of numbers are written alike exactly if the numbers that are written
are the same. -/
theorem Json.ofMap_int_inj {α : Type} {f : α → Int} {m n : SortedMap α} :
    Json.ofMap (fun x => .int (f x)) m = Json.ofMap (fun x => .int (f x)) n
      ↔ m.map f = n.map f := by
  have written (m : SortedMap α) : Json.ofMap (fun x => .int (f x)) m
      = .obj ((m.map f).entries.map fun p => (p.1, .int p.2)) := by
    rw [Json.ofMap, SortedMap.map, List.map_map]
    rfl
  have distinct : Function.Injective fun p : String × Int => (p.1, Json.int p.2) := by
    rintro ⟨k, x⟩ ⟨l, y⟩ same
    cases same
    rfl
  rw [written, written, Json.obj.injEq, distinct.list_map.eq_iff]
  exact ⟨fun same => SortedMap.ext_find? fun j => by rw [SortedMap.find?, same]; rfl,
    fun same => by rw [same]⟩

theorem hashEntry_injective : Function.Injective fun (entry : String × String) =>
    hashEntry entry.1 entry.2 := by
  intro a b same
  simp only [hashEntry, Json.arr.injEq, List.cons.injEq, Json.str.injEq] at same
  exact Prod.ext same.1 same.2.1

/-- What is hashed for a cache key says which part it is, which hashes its
features have, which backend builds it, and the overrides as far as they count. -/
theorem bytes_cacheKeyInput_inj {partId partId' backend backend' : String}
    {features features' : List (String × String)} {overrides overrides' : Overrides} :
    (cacheKeyInput partId features backend overrides).bytes
        = (cacheKeyInput partId' features' backend' overrides').bytes
      ↔ partId = partId' ∧ features = features' ∧ backend = backend'
        ∧ overrides.map quantize = overrides'.map quantize := by
  constructor
  · intro same
    have text := Json.bytes_inj (textual_cacheKeyInput ..).faithful
      (textual_cacheKeyInput ..).faithful same
    simp only [cacheKeyInput, Json.record, List.filterMap_cons, Option.map_some,
      List.filterMap_nil, Json.obj.injEq, List.cons.injEq, Prod.mk.injEq, Json.str.injEq,
      Json.arr.injEq, true_and, and_true] at text
    obtain ⟨id, entries, backend, quantized⟩ := text
    exact ⟨id, hashEntry_injective.list_map entries, backend, Json.ofMap_int_inj.1 quantized⟩
  · rintro ⟨rfl, rfl, rfl, quantized⟩
    rw [cacheKeyInput, cacheKeyInput, Json.ofMap_int_inj.2 quantized]

/-- What is hashed for a cache key determines the part and its features. -/
theorem cacheKeyInput_inj {partId partId' backend backend' : String}
    {features features' : List (String × String)} {overrides overrides' : Overrides}
    (same : (cacheKeyInput partId features backend overrides).bytes
      = (cacheKeyInput partId' features' backend' overrides').bytes) :
    partId = partId' ∧ features = features' :=
  let ⟨id, entries, _⟩ := bytes_cacheKeyInput_inj.1 same
  ⟨id, entries⟩

namespace BuildPlan

/-- The bytes that are hashed for the cache key of a plan. -/
def keyBytes? (p : BuildPlan) (backend : String) (overrides : Overrides) : Option (List UInt8) :=
  (orderedHashes? p.order p.hashes).map fun features =>
    (cacheKeyInput p.partId features backend overrides).bytes

theorem cacheKey?_eq (p : BuildPlan) (backend : String) (overrides : Overrides) :
    p.cacheKey? backend overrides = (p.keyBytes? backend overrides).map Digest.xxHash64Hex := by
  unfold cacheKey? PartPlan.cacheKey? keyBytes?
  cases orderedHashes? p.order p.hashes <;> rfl

/-- The hashes of a plan in build order are those of its features. -/
theorem Coherent.orderedHashes?_eq {plan : BuildPlan} {p : Part} {n : NormalPart}
    (h : plan.Coherent p n) :
    orderedHashes? plan.order plan.hashes = some (plan.features.map fun f => (f.id, f.hash)) := by
  have hashes := h.hashes
  unfold orderedHashes?
  rw [← h.ids]
  generalize plan.features = fs at hashes
  induction fs with
  | nil => rfl
  | cons f fs ih =>
    obtain ⟨here, rest⟩ := List.forall_mem_cons.1 hashes
    rw [List.map_cons, List.mapM_cons, here, ih rest]
    rfl

end BuildPlan

namespace Part

/-- The features of a part in normal form have only finite numbers. -/
theorem isFinite_of_normal {p : Part} {overrides : Overrides} {options : Options} {n : NormalPart}
    (h : p.normal overrides options = .ok n) : ∀ f ∈ n.features, f.IsFinite := by
  obtain ⟨table, -, h⟩ := Checked.bind_eq_ok.1 h
  obtain ⟨features, normal, h⟩ := Checked.bind_eq_ok.1 h
  obtain rfl := Except.ok.inj h
  intro g hg
  obtain ⟨⟨f, i⟩, -, hf⟩ := (Checked.mem_of_mapM_eq_ok normal).1 hg
  by_cases blank : Text.isBlankText f.id = true
  · simp [blank] at hf
  · simp only [blank] at hf
    exact Feature.isFinite_normal hf

/-- So have the features of a plan. -/
theorem isFinite_of_compile {p : Part} {overrides : Overrides} {options : Options}
    {plan : BuildPlan} (h : p.compile overrides options = .ok plan) :
    ∀ f ∈ plan.features, f.IsFinite := by
  obtain ⟨n, normal, planned⟩ := compile_eq_ok.1 h
  have coherent := NormalPart.coherent_of_plan planned (map_id_normal normal)
  exact fun f hf => isFinite_of_normal normal f (coherent.features.mem_iff.1 hf)

/-- Of each feature of a plan, in build order, the id and the hash go into the
cache key. -/
theorem keyBytes?_of_compile {p : Part} {overrides : Overrides} {options : Options}
    {plan : BuildPlan} (h : p.compile overrides options = .ok plan) :
    plan.features.map Feature.id = plan.order ∧ (∀ f ∈ plan.features, f.IsFinite)
      ∧ ∀ backend given, plan.keyBytes? backend given = some (cacheKeyInput plan.partId
        (plan.features.map fun f => (f.id, f.hash)) backend given).bytes := by
  obtain ⟨n, normal, planned⟩ := compile_eq_ok.1 h
  have coherent := NormalPart.coherent_of_plan planned (map_id_normal normal)
  refine ⟨coherent.ids, isFinite_of_compile h, fun backend given => ?_⟩
  rw [BuildPlan.keyBytes?, coherent.orderedHashes?_eq]
  rfl

/-- If the same bytes are hashed for the cache keys of two plans, and SHA-256
tells the texts of their features apart, then the plans have the same part id
and the same features in the same order. It is only their units in which they
may differ. -/
theorem key_determines_features {p p' : Part} {overrides overrides' : Overrides}
    {options options' : Options} {plan plan' : BuildPlan}
    (compiled : p.compile overrides options = .ok plan)
    (compiled' : p'.compile overrides' options' = .ok plan') {backend backend' : String}
    {given given' : Overrides}
    (same : plan.keyBytes? backend given = plan'.keyBytes? backend' given')
    (clean : Feature.NoCollision plan.features plan'.features) :
    plan.partId = plan'.partId ∧ plan.order = plan'.order ∧ plan.features = plan'.features := by
  obtain ⟨ids, finite, key⟩ := keyBytes?_of_compile compiled
  obtain ⟨ids', finite', key'⟩ := keyBytes?_of_compile compiled'
  rw [key, key', Option.some.injEq] at same
  obtain ⟨partId, entries⟩ := cacheKeyInput_inj same
  have hashes : plan.features.map Feature.hash = plan'.features.map Feature.hash := by
    simpa [Function.comp_def] using congrArg (List.map Prod.snd) entries
  have features := Feature.eq_of_map_hash finite finite' clean hashes
  exact ⟨partId, by rw [← ids, ← ids', features], features⟩

end Part

-- ================================================================== plates

/-- A plate of some width. The other measures are numbers without a unit. -/
def plate (units : UnitSystem) (width : Scalar) : Part where
  id := "plate"
  units := some units
  params := []
  features := [⟨"body", [], [], .extrude,
    (.rectangle width (.value 20) .origin, .distance (.value 5), none, "body:plate", none, ())⟩]
  constraints := []
  assertions := []
  fti := none

/-- The plan of a plate that is forty units wide. -/
def plate.plan (units : UnitSystem) : BuildPlan where
  partId := "plate"
  units := units
  order := ["body"]
  graph := ⟨["body"], []⟩
  features := (plate units (.value 40)).features
  hashes := Feature.hashTable (plate units (.value 40)).features
  diagnostics := []

theorem plate.compile_of_normal (units : UnitSystem) (width : Scalar)
    (normal : (plate units width).normal .empty .standard
      = .ok ⟨"plate", units, .empty units, (plate units (.value 40)).features, []⟩) :
    (plate units width).compile .empty .standard = .ok (plan units) := by
  have built : Graph.build (plate units (.value 40)).features = .ok ⟨["body"], []⟩ := rfl
  have ordered : (⟨["body"], []⟩ : Graph).order = .ok ["body"] := by decide +kernel
  exact Part.compile_of_order normal built ordered

theorem plate.noCollision (units units' : UnitSystem) :
    Feature.NoCollision (plan units).features (plan units').features := by
  intro f hf g hg _
  obtain rfl := List.mem_singleton.1 hf
  obtain rfl := List.mem_singleton.1 hg
  rfl

/-- A plate forty millimetres wide and one four centimetres wide have one key,
and are the same. -/
theorem centimetrePlate_same : ∃ plan plan',
    (plate .mm (.value 40)).compile .empty .standard = .ok plan
      ∧ (plate .mm (.literal 4 (some "cm"))).compile .empty .standard = .ok plan'
      ∧ plan.keyBytes? "occt" .empty = plan'.keyBytes? "occt" .empty
      ∧ Feature.NoCollision plan.features plan'.features
      ∧ plan.partId = plan'.partId ∧ plan.order = plan'.order
      ∧ plan.features = plan'.features := by
  have plain := plate.compile_of_normal .mm (.value 40) rfl
  have converted := plate.compile_of_normal .mm (.literal 4 (some "cm")) rfl
  have same : (plate.plan .mm).keyBytes? "occt" .empty = (plate.plan .mm).keyBytes? "occt" .empty :=
    rfl
  have clean := plate.noCollision .mm .mm
  exact ⟨_, _, plain, converted, same, clean,
    Part.key_determines_features plain converted same clean⟩

/-- A plate forty millimetres wide and one forty inches wide have one key. -/
theorem inchPlate_shares_key : ∃ plan plan',
    (plate .mm (.value 40)).compile .empty .standard = .ok plan
      ∧ (plate .inch (.value 40)).compile .empty .standard = .ok plan'
      ∧ plan.keyBytes? "occt" .empty = plan'.keyBytes? "occt" .empty
      ∧ plan.cacheKey? "occt" .empty = plan'.cacheKey? "occt" .empty
      ∧ Feature.NoCollision plan.features plan'.features ∧ plan.units ≠ plan'.units := by
  have metric := plate.compile_of_normal .mm (.value 40) rfl
  have imperial := plate.compile_of_normal .inch (.value 40) rfl
  exact ⟨_, _, metric, imperial, rfl, rfl, plate.noCollision _ _, by decide⟩

end PartPlan
