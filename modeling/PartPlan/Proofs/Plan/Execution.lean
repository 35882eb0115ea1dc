/-
Building a part by its plan. The features are built in the order of the plan,
and what is known when a feature's turn comes is what those before it have
produced. A selector that names an output was tied to the feature that
declares it when the plan was made; here it is shown to find, when the part is
built, what that very feature has produced.

Three things come together. The plan respects references, so the producer has
been built. Output names are distinct in the part, so no other feature writes
under the name, before or after the producer. And a name stands for what was
registered under it last, which therefore is what the producer has written.
-/
import PartPlan.Proofs.Plan.Coherence
import PartPlan.Proofs.Selection.History
import PartPlan.Proofs.Selection.Names

namespace PartPlan

-- ============================================================== contexts

/-- What is known after some outputs. -/
def ResolutionContext.absorbAll (outputs : List BackendOutput) : ResolutionContext :=
  outputs.foldl absorb .empty

/-- After some outputs a name stands for what the last of them to mention it
has registered. -/
theorem ResolutionContext.find?_named_absorbAll (outputs : List BackendOutput) (name : String) :
    (absorbAll outputs).named.find? name = outputs.reverse.findSome? (·.outputs.find? name) := by
  have told : absorbAll outputs = empty.run (outputs.map Event.absorb) := by
    unfold absorbAll run
    rw [List.foldl_map]
    rfl
  rw [told, find?_named_run]
  unfold History.lastWritten?
  rw [← List.map_reverse, List.findSome?_map]
  exact Option.or_none

/-- If there is no disagreement among the outputs about a name, it stands for
what any of them has registered. -/
theorem ResolutionContext.find?_named_of_mem {outputs : List BackendOutput} {name : String}
    {o : BackendOutput} {s : Selection} (ho : o ∈ outputs) (written : o.outputs.find? name = some s)
    (only : ∀ o' ∈ outputs, ∀ s', o'.outputs.find? name = some s' → s' = s) :
    (absorbAll outputs).named.find? name = some s := by
  rw [find?_named_absorbAll]
  cases found : outputs.reverse.findSome? (·.outputs.find? name) with
  | none =>
    have missing := List.findSome?_eq_none_iff.1 found o (List.mem_reverse.2 ho)
    rw [written] at missing
    cases missing
  | some s' =>
    obtain ⟨o', ho', written'⟩ := List.exists_of_findSome?_eq_some found
    rw [only o' (List.mem_reverse.1 ho') s' written']

-- =============================================================== building

namespace BuildPlan

/-- What building the features of a plan in their order has produced, one
output for each, under exactly the names that the feature declares. -/
def Yields (plan : BuildPlan) (outputs : List BackendOutput) : Prop :=
  List.Forall₂ (fun f o => ∀ name, name ∈ o.outputs.keys ↔ name ∈ f.outputs) plan.features outputs

/-- A selection is what the only feature that declares a name has produced
under it, and that feature is among the first `i`. -/
def ProducedBefore (plan : BuildPlan) (outputs : List BackendOutput) (i : Nat) (name : String)
    (s : Selection) : Prop :=
  ∃ j < i, ∃ g o, plan.features[j]? = some g ∧ name ∈ g.outputs
    ∧ (∀ (k : Nat) (g' : Feature), plan.features[k]? = some g' → name ∈ g'.outputs → k = j)
    ∧ outputs[j]? = some o ∧ o.outputs.find? name = some s

variable {plan : BuildPlan} {outputs : List BackendOutput} {i j : Nat} {name : String}
  {s : Selection}

theorem Yields.getElem? (built : plan.Yields outputs) {g : Feature}
    (hg : plan.features[i]? = some g) :
    ∃ o, outputs[i]? = some o ∧ ∀ name, name ∈ o.outputs.keys ↔ name ∈ g.outputs := by
  obtain ⟨inside, rfl⟩ := List.getElem?_eq_some_iff.1 hg
  have inside' : i < outputs.length := built.length_eq ▸ inside
  exact ⟨outputs[i], List.getElem?_eq_getElem inside', built.get inside inside'⟩

theorem Yields.feature (built : plan.Yields outputs) {o : BackendOutput}
    (ho : outputs[i]? = some o) :
    ∃ g, plan.features[i]? = some g ∧ ∀ name, name ∈ o.outputs.keys ↔ name ∈ g.outputs := by
  obtain ⟨inside, -⟩ := List.getElem?_eq_some_iff.1 ho
  have inside' : i < plan.features.length := built.length_eq ▸ inside
  obtain ⟨o', ho', keys⟩ := built.getElem? (List.getElem?_eq_getElem inside')
  rw [ho] at ho'
  cases ho'
  exact ⟨_, List.getElem?_eq_getElem inside', keys⟩

/-- What a feature has produced under a name that no other declares is what
the name stands for from then on. -/
theorem Yields.find?_named (built : plan.Yields outputs)
    (produced : plan.ProducedBefore outputs i name s) :
    (ResolutionContext.absorbAll (outputs.take i)).named.find? name = some s := by
  obtain ⟨j, before, g, o, -, -, only, ho, written⟩ := produced
  have place : (outputs.take i)[j]? = some o := by
    rw [List.getElem?_take_of_lt before]
    exact ho
  refine ResolutionContext.find?_named_of_mem (List.mem_of_getElem? place) written ?_
  intro o' ho' s' written'
  obtain ⟨k, hk⟩ := List.getElem?_of_mem (List.mem_of_mem_take ho')
  obtain ⟨g', hg', keys⟩ := built.feature hk
  have declared : name ∈ g'.outputs := by
    rw [← keys, SortedMap.mem_keys, SortedMap.contains, written']
    rfl
  obtain rfl := only k g' hg' declared
  rw [ho] at hk
  cases hk
  rw [written] at written'
  exact (Option.some.inj written').symm

-- ============================================================== producers

/-- Output names are distinct in a plan, so a name has one producer. -/
theorem producer_unique (distinct : (plan.features.flatMap Feature.outputs).Nodup)
    {g g' : Feature} (hg : plan.features[i]? = some g) (hg' : plan.features[j]? = some g')
    (declared : name ∈ g.outputs) (declared' : name ∈ g'.outputs) : i = j := by
  have apart := (List.nodup_flatMap.1 distinct).2
  obtain ⟨hi, rfl⟩ := List.getElem?_eq_some_iff.1 hg
  obtain ⟨hj, rfl⟩ := List.getElem?_eq_some_iff.1 hg'
  rcases Nat.lt_trichotomy i j with before | same | after
  · exact absurd declared' (List.pairwise_iff_getElem.1 apart i j hi hj before declared)
  · exact same
  · exact absurd declared (List.pairwise_iff_getElem.1 apart j i hj hi after declared')

/-- The outputs that a feature names are produced before its turn. -/
theorem exists_producedBefore (ids : plan.features.map Feature.id = plan.order)
    (distinctIds : (plan.features.map Feature.id).Nodup)
    (distinct : (plan.features.flatMap Feature.outputs).Nodup)
    (respects : plan.RespectsReferences) (built : plan.Yields outputs) {f : Feature}
    (next : plan.features[i]? = some f) {slot : SelectorSlot} (hslot : slot ∈ f.selectorSlots)
    (within : (Selector.named name).Within slot.selector) :
    ∃ s, plan.ProducedBefore outputs i name s := by
  have mentions : f.Mentions (.output slot.name name) :=
    .output (Feature.mem_selectorSlots.1 hslot) within
  obtain ⟨bound, earlier⟩ := respects i f next
  obtain ⟨g, hg, declared⟩ := bound _ mentions (fun free => free)
  obtain ⟨j, before, place⟩ := earlier g.id ⟨_, mentions, g, hg, declared, rfl⟩
  -- the place in the order is that of the producer itself
  rw [← ids, List.getElem?_map] at place
  obtain ⟨g', hg', same⟩ := Option.map_eq_some_iff.1 place
  obtain rfl : g' = g :=
    List.inj_on_of_nodup_map distinctIds (List.mem_of_getElem? hg') hg same
  obtain ⟨o, ho, keys⟩ := built.getElem? hg'
  obtain ⟨s, written⟩ := Option.isSome_iff_exists.1 (SortedMap.mem_keys.1 ((keys name).2 declared))
  refine ⟨s, j, before, g', o, hg', declared, fun k h hk declared' => ?_, ho, written⟩
  exact producer_unique distinct hk hg' declared' declared

end BuildPlan

-- ================================================================= plans

/-- Whatever the outputs are, a selector of a feature that names an output, at
any depth, stands in the context of the features before it for what the only
feature that declares the name has produced under it, which is one of them. So
the selectors of the feature never fail for want of a name. -/
theorem Part.named_outputs_agree {p : Part} {overrides : Overrides} {options : Options}
    {plan : BuildPlan} (h : p.compile overrides options = .ok plan)
    {outputs : List BackendOutput} (built : plan.Yields outputs) {i : Nat} {f : Feature}
    (next : plan.features[i]? = some f) :
    (∀ slot ∈ f.selectorSlots, ∀ name, (Selector.named name).Within slot.selector →
      ∃ s, plan.ProducedBefore outputs i name s
        ∧ (Selector.named name).resolveAll (.absorbAll (outputs.take i)) = .ok [s]
        ∧ (Selector.named name).resolve (.absorbAll (outputs.take i)) = .ok s)
      ∧ ∀ e, f.resolveSelectors (.absorbAll (outputs.take i)) = .error e →
        e.code ≠ "selector_named_missing" := by
  obtain ⟨n, normal, planned⟩ := Part.compile_eq_ok.1 h
  have coherent := NormalPart.coherent_of_plan planned (Part.map_id_normal normal)
  have respects := NormalPart.respectsReferences_of_plan planned coherent
  have named := (NormalPart.wellReferenced_of_plan planned).toWellNamed
  have distinctIds := (coherent.features.map Feature.id).nodup_iff.2 named.ids
  have distinct := (coherent.features.flatMap_right Feature.outputs).nodup_iff.2 named.outputs
  have produced : ∀ slot ∈ f.selectorSlots, ∀ name, (Selector.named name).Within slot.selector →
      ∃ s, plan.ProducedBefore outputs i name s := fun slot hslot name within =>
    BuildPlan.exists_producedBefore coherent.ids distinctIds distinct respects built next hslot
      within
  refine ⟨?_, ?_⟩
  · intro slot hslot name within
    obtain ⟨s, before⟩ := produced slot hslot name within
    exact ⟨s, before, Selector.resolve_named (built.find?_named before)⟩
  · refine Feature.findsNames_resolveSelectors fun slot hslot name within => ?_
    obtain ⟨s, before⟩ := produced slot hslot name within
    rw [SortedMap.contains, built.find?_named before]
    rfl

/-- A sketch, a mirror image made of it, and a body joined from both, declared
the other way round. The body names the mirror image twice, once in the target
of a rule. -/
def joinedCopy : Part where
  id := "joined"
  units := none
  params := []
  features :=
    [⟨"join", [], [], .boolean,
      (.union, .named "body:copy",
        .query .solid [.createdBy "base"] [.closestTo (.named "body:copy")],
        "body:joined", ())⟩,
      ⟨"copy", [], [], .mirror,
        (.query .solid [.createdBy "base"] [], .query .face [.planar, .createdBy "base"] [],
          "body:copy", ())⟩,
      ⟨"base", [], [], .sketch, (none, [], ())⟩]
  constraints := []
  assertions := []
  fti := none

/-- The plan of the joined body. -/
def joinedCopyPlan : BuildPlan where
  partId := "joined"
  units := .mm
  order := ["base", "copy", "join"]
  graph := ⟨["join", "copy", "base"],
    [⟨"base", "join"⟩, ⟨"copy", "join"⟩, ⟨"base", "copy"⟩]⟩
  features := joinedCopy.features.reverse
  hashes := Feature.hashTable joinedCopy.features.reverse
  diagnostics := []

/-- What building the joined body may produce. -/
def joinedCopyOutputs : List BackendOutput :=
  [⟨.empty, []⟩, ⟨.ofList [("body:copy", .bare "solid:1" .solid)], []⟩,
    ⟨.ofList [("body:joined", .bare "solid:2" .solid)], [.bare "solid:2" .solid]⟩]

theorem joinedCopy_agrees :
    joinedCopy.compile .empty .standard = .ok joinedCopyPlan
      ∧ joinedCopyPlan.Yields joinedCopyOutputs
      ∧ ∃ f, joinedCopyPlan.features[2]? = some f ∧ f.id = "join"
        ∧ (∃ slot ∈ f.selectorSlots, slot.name = "right"
          ∧ (Selector.named "body:copy").Within slot.selector)
        ∧ (∃ s, joinedCopyPlan.ProducedBefore joinedCopyOutputs 2 "body:copy" s
          ∧ (Selector.named "body:copy").resolve (.absorbAll (joinedCopyOutputs.take 2)) = .ok s)
        ∧ ∀ e, f.resolveSelectors (.absorbAll (joinedCopyOutputs.take 2)) = .error e →
          e.code ≠ "selector_named_missing" := by
  have normal : joinedCopy.normal .empty .standard
      = .ok ⟨"joined", .mm, .empty .mm, joinedCopy.features, []⟩ := rfl
  have built : Graph.build joinedCopy.features = .ok joinedCopyPlan.graph := rfl
  have ordered : joinedCopyPlan.graph.order = .ok joinedCopyPlan.order := by decide +kernel
  have h : joinedCopy.compile .empty .standard = .ok joinedCopyPlan := by
    unfold Part.compile NormalPart.plan
    rw [normal]
    simp only [Except.mapError, bind, Except.bind, built, ordered]
    rfl
  have yields : joinedCopyPlan.Yields joinedCopyOutputs :=
    .cons (fun _ => Iff.rfl) (.cons (fun _ => Iff.rfl) (.cons (fun _ => Iff.rfl) .nil))
  -- the mirror image is named in the second selector of the body, one level down
  have within : (Selector.named "body:copy").Within
      (.query .solid [.createdBy "base"] [.closestTo (.named "body:copy")]) :=
    .target List.mem_cons_self (.here _)
  obtain ⟨agree, finds⟩ := Part.named_outputs_agree h yields (i := 2) rfl
  refine ⟨h, yields, _, rfl, rfl, ⟨_, List.mem_cons_of_mem _ List.mem_cons_self, rfl, within⟩, ?_⟩
  obtain ⟨s, produced, -, resolved⟩ := agree _ (List.mem_cons_of_mem _ List.mem_cons_self)
    "body:copy" within
  exact ⟨⟨s, produced, resolved⟩, finds⟩

end PartPlan
