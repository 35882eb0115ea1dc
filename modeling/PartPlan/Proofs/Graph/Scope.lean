/-
Which features have a scope, and what the scope of features then holds.

A scope is built one feature at a time, so what is proved of it is about
the features met so far: `Scope.Describes` says that a scope holds their names
and nothing else. A further feature is let in exactly if `WellNamed` holds
with it. Profiles and outputs are kept in the same way, as a map from names to
the features that own them, and `Owned` is said of both.
-/
import PartPlan.Graph.Scope
import PartPlan.Proofs.Checked

namespace PartPlan

/-- The names in a list of features that can have a scope. -/
structure WellNamed (features : List Feature) : Prop where
  not_blank : ∀ f ∈ features, Text.trim f.id ≠ ""
  ids : (features.map Feature.id).Nodup
  profiles : (features.flatMap Feature.declaredProfiles).Nodup
  outputs : (features.flatMap Feature.outputs).Nodup

theorem WellNamed.nil : WellNamed [] :=
  ⟨fun _ hf => absurd hf List.not_mem_nil, List.nodup_nil, List.nodup_nil, List.nodup_nil⟩

theorem WellNamed.init {features rest : List Feature}
    (wn : WellNamed (features ++ rest)) :
    WellNamed features := by
  obtain ⟨not_blank, ids, profiles, outputs⟩ := wn
  rw [List.map_append] at ids
  rw [List.flatMap_append] at profiles outputs
  exact ⟨fun f hf => not_blank f (List.mem_append_left _ hf), (List.nodup_append.1 ids).1,
    (List.nodup_append.1 profiles).1, (List.nodup_append.1 outputs).1⟩

namespace Scope

-- =============================================================== owners

/-- Each name of the features is held with the feature it is a name of. -/
def Owned (names : Feature → List String) (features : List Feature)
    (owners : SortedMap String) : Prop :=
  ∀ n d, owners.find? n = some d ↔ ∃ g ∈ features, n ∈ names g ∧ g.id = d

variable {names : Feature → List String} {features : List Feature} {owners r : SortedMap String}
  {f : Feature} {duplicate : String → String → String → GraphError}

theorem declare_nil {owner : String} : declare duplicate owner [] owners = .ok r ↔ r = owners := by
  refine ⟨fun h => ?_, fun h => ?_⟩
  · cases h
    rfl
  · rw [h]
    rfl

theorem declare_cons {owner name : String} {ns : List String} :
    declare duplicate owner (name :: ns) owners = .ok r
      ↔ owners.find? name = none ∧ declare duplicate owner ns (owners.insert name owner) = .ok r := by
  unfold declare
  rw [List.foldlM_cons]
  cases owners.find? name with
  | some first =>
    refine ⟨fun h => ?_, fun h => ?_⟩
    · cases h
    · cases h.1
  | none => exact (and_iff_right rfl).symm

/-- Names are declared if they differ and have no owner yet. -/
theorem declare_eq_ok {owner : String} {ns : List String} :
    declare duplicate owner ns owners = .ok r
      ↔ ns.Nodup ∧ (∀ n ∈ ns, owners.find? n = none)
        ∧ ∀ n, r.find? n = if n ∈ ns then some owner else owners.find? n := by
  induction ns generalizing owners with
  | nil =>
    rw [declare_nil]
    refine ⟨fun h => ?_, fun h => ?_⟩
    · rw [h]
      simp
    · exact SortedMap.ext_find? fun n => by simpa using h.2.2 n
  | cons name ns ih =>
    -- what is found after the tail, once the head is declared
    have found : ∀ n, (if n ∈ ns then some owner else (owners.insert name owner).find? n)
        = if n ∈ name :: ns then some owner else owners.find? n := by
      intro n
      rw [SortedMap.find?_insert]
      by_cases e : n = name
      · simp [e]
      · simp [e]
    rw [declare_cons, ih, List.nodup_cons]
    simp only [found]
    refine ⟨?_, ?_⟩
    · intro h
      obtain ⟨owned, nodup, free, h⟩ := h
      have fresh : name ∉ ns := by
        intro member
        have := free name member
        simp [SortedMap.find?_insert] at this
      refine ⟨⟨fresh, nodup⟩, fun n member => ?_, h⟩
      rcases List.mem_cons.1 member with e | member
      · rw [e]
        exact owned
      · have differs : n ≠ name := fun e => fresh (e ▸ member)
        simpa [SortedMap.find?_insert, differs] using free n member
    · intro h
      obtain ⟨⟨fresh, nodup⟩, free, h⟩ := h
      refine ⟨free name List.mem_cons_self, nodup, fun n member => ?_, h⟩
      have differs : n ≠ name := fun e => fresh (e ▸ member)
      rw [SortedMap.find?_insert, if_neg differs]
      exact free n (List.mem_cons_of_mem _ member)

theorem Owned.empty : Owned names [] .empty := by
  intro n d
  simp

theorem Owned.find?_eq_none (h : Owned names features owners) {n : String} :
    owners.find? n = none ↔ n ∉ features.flatMap names := by
  rw [List.mem_flatMap, Option.eq_none_iff_forall_ne_some]
  refine ⟨?_, ?_⟩
  · intro free h
    obtain ⟨g, hg, member⟩ := h
    exact free g.id ((h n g.id).2 ⟨g, hg, member, rfl⟩)
  · intro free d found
    obtain ⟨g, hg, member, -⟩ := (h n d).1 found
    exact free ⟨g, hg, member⟩

/-- The owners after the names of one more feature. -/
theorem Owned.snoc (h : Owned names features owners)
    (declared : declare duplicate f.id (names f) owners = .ok r) :
    Owned names (features ++ [f]) r := by
  obtain ⟨-, free, found⟩ := declare_eq_ok.1 declared
  intro n d
  rw [found]
  simp only [List.mem_append, List.mem_singleton]
  split
  · next member =>
    have new : n ∉ features.flatMap names := h.find?_eq_none.1 (free n member)
    refine ⟨?_, ?_⟩
    · intro e
      exact ⟨f, Or.inr rfl, member, Option.some.inj e⟩
    · intro h
      obtain ⟨g, hg | rfl, hn, rfl⟩ := h
      · exact absurd (List.mem_flatMap.2 ⟨g, hg, hn⟩) new
      · rfl
  · next other =>
    rw [h n d]
    refine ⟨?_, ?_⟩
    · intro h
      obtain ⟨g, hg, rest⟩ := h
      exact ⟨g, Or.inl hg, rest⟩
    · intro h
      obtain ⟨g, hg | rfl, hn, e⟩ := h
      · exact ⟨g, hg, hn, e⟩
      · exact absurd hn other

/-- The names of one more feature can be declared if all names stay
distinct. -/
theorem Owned.exists_declare_iff (h : Owned names features owners)
    (nodup : (features.flatMap names).Nodup) :
    (∃ r, declare duplicate f.id (names f) owners = .ok r)
      ↔ ((features ++ [f]).flatMap names).Nodup := by
  rw [List.flatMap_append, List.flatMap_singleton, List.nodup_append]
  refine ⟨?_, ?_⟩
  · intro h
    obtain ⟨r, declared⟩ := h
    obtain ⟨own, free, -⟩ := declare_eq_ok.1 declared
    refine ⟨nodup, own, ?_⟩
    intro n hn _ hf h
    obtain rfl := h
    exact h.find?_eq_none.1 (free n hf) hn
  · intro h
    obtain ⟨-, own, apart⟩ := h
    have free : ∀ n ∈ names f, owners.find? n = none :=
      fun n hf => h.find?_eq_none.2 fun hn => apart n hn n hf rfl
    refine ⟨owners.union (.ofList ((names f).map fun n => (n, f.id))), ?_⟩
    refine declare_eq_ok.2 ⟨own, free, fun n => ?_⟩
    rw [SortedMap.find?_union, SortedMap.find?_ofList_map fun _ => f.id]
    split
    · rfl
    · rfl

-- ========================================================= descriptions

/-- A scope holds the names of the features and nothing else. -/
structure Describes (scope : Scope) (features : List Feature) : Prop where
  ids : ∀ id, scope.ids.contains id = true ↔ ∃ g ∈ features, g.id = id
  profiles : Owned Feature.declaredProfiles features scope.profiles
  outputs : Owned Feature.outputs features scope.outputs
  patterns : ∀ id, scope.patterns.contains id = true
    ↔ ∃ g ∈ features, g.id = id ∧ g.isPattern = true

variable {scope scope' : Scope}

theorem Describes.empty : Scope.empty.Describes [] where
  ids id := by simp [Scope.empty, SortedMap.contains]
  profiles := Owned.empty
  outputs := Owned.empty
  patterns id := by simp [Scope.empty, SortedMap.contains]

theorem contains_insert {s : TextSet} {i j : String} :
    (s.insert i ()).contains j = true ↔ s.contains j = true ∨ i = j := by
  unfold SortedMap.contains
  rw [SortedMap.find?_insert]
  by_cases e : j = i
  · simp [e]
  · simp [e, Ne.symm e]

/-- What adding a feature asks of it, and what it makes of the scope. -/
theorem add_eq_ok {index : Nat} :
    scope.add f index = .ok scope'
      ↔ Text.isBlankText f.id = false ∧ scope.ids.contains f.id = false
        ∧ declare .profileDuplicate f.id f.declaredProfiles scope.profiles = .ok scope'.profiles
        ∧ declare .outputDuplicate f.id f.outputs scope.outputs = .ok scope'.outputs
        ∧ scope'.ids = scope.ids.insert f.id ()
        ∧ scope'.patterns
          = if f.isPattern then scope.patterns.insert f.id () else scope.patterns := by
  unfold add
  cases Text.isBlankText f.id with
  | true =>
    refine ⟨?_, ?_⟩
    · intro h
      cases h
    · intro h
      obtain ⟨⟨⟩, -⟩ := h
  | false =>
    cases scope.ids.contains f.id with
    | true =>
      refine ⟨?_, ?_⟩
      · intro h
        cases h
      · intro h
        obtain ⟨-, ⟨⟩, -⟩ := h
    | false =>
      show (declare _ _ _ _ >>= _) = _ ↔ _
      rw [Checked.bind_eq_ok]
      refine ⟨?_, ?_⟩
      · intro h
        obtain ⟨profiles, hp, h⟩ := h
        obtain ⟨outputs, ho, h⟩ := Checked.bind_eq_ok.1 h
        cases h
        exact ⟨rfl, rfl, hp, ho, rfl, rfl⟩
      · intro h
        obtain ⟨-, -, hp, ho, hi, ht⟩ := h
        refine ⟨_, hp, Checked.bind_eq_ok.2 ⟨_, ho, ?_⟩⟩
        rw [← hi, ← ht]
        rfl

/-- A scope with one more feature holds the names of that feature as well. -/
theorem Describes.snoc (h : scope.Describes features) {index : Nat}
    (added : scope.add f index = .ok scope') : scope'.Describes (features ++ [f]) := by
  obtain ⟨-, -, profiles, outputs, ids, patterns⟩ := add_eq_ok.1 added
  refine ⟨fun id => ?_, h.profiles.snoc profiles, h.outputs.snoc outputs, fun id => ?_⟩
  · rw [ids, contains_insert, h.ids]
    simp [or_and_right, exists_or]
  · rw [patterns]
    split
    · next isPattern =>
      rw [contains_insert, h.patterns]
      simp [or_and_right, exists_or, isPattern]
    · next other =>
      rw [h.patterns]
      simp [or_and_right, exists_or, other]

theorem Describes.contains_eq_false (h : scope.Describes features) {id : String} :
    scope.ids.contains id = false ↔ id ∉ features.map Feature.id := by
  rw [← Bool.not_eq_true, h.ids, List.mem_map]

/-- A feature can be added if its names and those of the features before it
can stand together. -/
theorem Describes.exists_add_iff (h : scope.Describes features) (wn : WellNamed features)
    {index : Nat} :
    (∃ scope', scope.add f index = .ok scope') ↔ WellNamed (features ++ [f]) := by
  refine ⟨?_, ?_⟩
  · intro h
    obtain ⟨scope', added⟩ := h
    obtain ⟨filled, new, profiles, outputs, -, -⟩ := add_eq_ok.1 added
    refine ⟨?_, ?_, (h.profiles.exists_declare_iff wn.profiles).1 ⟨_, profiles⟩,
      (h.outputs.exists_declare_iff wn.outputs).1 ⟨_, outputs⟩⟩
    · intro g hg
      rcases List.mem_append.1 hg with hg | hg
      · exact wn.not_blank g hg
      · obtain rfl := List.mem_singleton.1 hg
        rw [ne_eq, Text.trim_eq_empty, filled]
        exact Bool.false_ne_true
    · rw [List.map_append, List.map_singleton, List.nodup_append]
      refine ⟨wn.ids, List.pairwise_singleton _ _, ?_⟩
      intro id hid _ hf h
      obtain rfl := h
      obtain rfl := List.mem_singleton.1 hf
      exact h.contains_eq_false.1 new hid
  · intro wn'
    have filled : Text.isBlankText f.id = false := by
      rw [← Bool.not_eq_true, ← Text.trim_eq_empty]
      exact wn'.not_blank f (by simp)
    have new : scope.ids.contains f.id = false := by
      have apart := wn'.ids
      rw [List.map_append, List.map_singleton, List.nodup_append] at apart
      exact h.contains_eq_false.2 fun met => apart.2.2 _ met _ List.mem_cons_self rfl
    obtain ⟨profiles, hp⟩ := (h.profiles.exists_declare_iff wn.profiles).2 wn'.profiles
    obtain ⟨outputs, ho⟩ := (h.outputs.exists_declare_iff wn.outputs).2 wn'.outputs
    exact ⟨⟨_, profiles, outputs, _⟩, add_eq_ok.2 ⟨filled, new, hp, ho, rfl, rfl⟩⟩

-- =========================================================== collection

/-- What is held after the remaining features of a list. -/
theorem Describes.foldlM_add (h : scope.Describes features) (wn : WellNamed features)
    {rest : List Feature} {index : Nat}
    (added : (rest.zipIdx index).foldlM (fun scope (f, i) => scope.add f i) scope = .ok scope') :
    WellNamed (features ++ rest) ∧ scope'.Describes (features ++ rest) := by
  induction rest generalizing features scope index with
  | nil =>
    cases added
    rw [List.append_nil]
    exact ⟨wn, h⟩
  | cons f rest ih =>
    rw [List.zipIdx_cons, List.foldlM_cons] at added
    obtain ⟨next, step, added⟩ := Checked.bind_eq_ok.1 added
    have := ih (h.snoc step) ((h.exists_add_iff wn).1 ⟨next, step⟩) added
    rwa [List.append_assoc, List.singleton_append] at this

/-- The remaining features of a list can all be added. -/
theorem Describes.exists_foldlM_add (h : scope.Describes features) {rest : List Feature}
    (wn : WellNamed (features ++ rest)) {index : Nat} :
    ∃ scope', (rest.zipIdx index).foldlM (fun scope (f, i) => scope.add f i) scope
      = Except.ok scope' := by
  induction rest generalizing features scope index with
  | nil => exact ⟨scope, rfl⟩
  | cons f rest ih =>
    have wn' : WellNamed ((features ++ [f]) ++ rest) := by
      rwa [List.append_assoc, List.singleton_append]
    obtain ⟨next, step⟩ := (h.exists_add_iff wn.init).2 wn'.init
    obtain ⟨last, added⟩ := ih (h.snoc step) wn'
    refine ⟨last, ?_⟩
    rw [List.zipIdx_cons, List.foldlM_cons]
    exact Checked.bind_eq_ok.2 ⟨next, step, added⟩

/-- The scope of features holds their names and nothing else. -/
theorem describes_collect (h : collect features = .ok scope) : scope.Describes features := by
  have := Describes.empty.foldlM_add WellNamed.nil h
  exact this.2

/-- Features have a scope if their names can stand together. -/
theorem exists_collect_iff : (∃ scope, collect features = .ok scope) ↔ WellNamed features := by
  refine ⟨?_, ?_⟩
  · intro h
    obtain ⟨scope, h⟩ := h
    exact (Describes.empty.foldlM_add WellNamed.nil h).1
  · intro wn
    have all : WellNamed ([] ++ features) := wn
    exact Describes.empty.exists_foldlM_add all

end Scope
end PartPlan
