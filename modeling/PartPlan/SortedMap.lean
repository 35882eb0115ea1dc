/-
Finite maps from texts, kept in increasing order of their keys. The order is
part of the type, so two maps with the same bindings are equal, and whatever
is written from a map is written in key order. Keys compare by code point.

`find?` is the view: `find?_insert` says what a write does to it, and
`SortedMap.ext_find?` that nothing else can tell two maps apart.
-/
namespace PartPlan

/-- A map from texts to `α`, its bindings strictly increasing by key. -/
structure SortedMap (α : Type) where
  entries : List (String × α)
  increasing : entries.Pairwise (·.1 < ·.1)

namespace SortedMap

variable {α β : Type}

instance [DecidableEq α] : DecidableEq (SortedMap α) := fun a b =>
  if h : a.entries = b.entries then isTrue (by cases a; cases b; simp_all)
  else isFalse (fun e => h (by rw [e]))

instance [Repr α] : Repr (SortedMap α) := ⟨fun m p => reprPrec m.entries p⟩

/-- The map with no bindings. -/
def empty : SortedMap α := ⟨[], .nil⟩

instance : Inhabited (SortedMap α) := ⟨empty⟩
instance : EmptyCollection (SortedMap α) := ⟨empty⟩

/-- A binding put in its place among increasing ones, over an earlier
binding of the same key. -/
def put (k : String) (v : α) : List (String × α) → List (String × α)
  | [] => [(k, v)]
  | (l, w) :: rest =>
    if k < l then (k, v) :: (l, w) :: rest
    else if l < k then (l, w) :: put k v rest
    else (k, v) :: rest

private theorem eq_of_not_lt {a b : String} (h : ¬ a < b) (h' : ¬ b < a) : a = b :=
  String.le_antisymm (String.not_lt.1 h') (String.not_lt.1 h)

theorem mem_put {k : String} {v : α} {l : List (String × α)} {p : String × α}
    (h : p ∈ put k v l) : p = (k, v) ∨ p ∈ l := by
  induction l with
  | nil => simpa [put] using h
  | cons q rest ih =>
    obtain ⟨l, w⟩ := q
    simp only [put] at h
    split at h
    · simpa using h
    · split at h
      · rcases List.mem_cons.1 h with rfl | h
        · exact .inr List.mem_cons_self
        · exact (ih h).imp id (List.mem_cons_of_mem _)
      · rcases List.mem_cons.1 h with rfl | h
        · exact .inl rfl
        · exact .inr (List.mem_cons_of_mem _ h)

theorem put_increasing {k : String} {v : α} {l : List (String × α)}
    (h : l.Pairwise (·.1 < ·.1)) : (put k v l).Pairwise (·.1 < ·.1) := by
  induction l with
  | nil => simp [put]
  | cons q rest ih =>
    obtain ⟨l, w⟩ := q
    obtain ⟨hl, hrest⟩ := List.pairwise_cons.1 h
    simp only [put]
    split
    · next hk =>
      refine List.pairwise_cons.2 ⟨fun p hp => ?_, h⟩
      rcases List.mem_cons.1 hp with rfl | hp
      · exact hk
      · exact String.lt_trans hk (hl p hp)
    · split
      · next hlk =>
        refine List.pairwise_cons.2 ⟨fun p hp => ?_, ih hrest⟩
        rcases mem_put hp with rfl | hp
        · exact hlk
        · exact hl p hp
      · next hk hlk =>
        obtain rfl := eq_of_not_lt hk hlk
        exact List.pairwise_cons.2 ⟨hl, hrest⟩

/-- The map with one binding written, over an earlier one of the same key. -/
def insert (m : SortedMap α) (k : String) (v : α) : SortedMap α :=
  ⟨put k v m.entries, put_increasing m.increasing⟩

/-- The value bound to a key. -/
def find? (m : SortedMap α) (k : String) : Option α :=
  (m.entries.find? (·.1 == k)).map (·.2)

theorem find?_put (k j : String) (v : α) (l : List (String × α)) :
    ((put k v l).find? (·.1 == j)).map (·.2)
      = if j = k then some v else (l.find? (·.1 == j)).map (·.2) := by
  induction l with
  | nil => by_cases h : j = k <;> grind [put]
  | cons q rest ih =>
    obtain ⟨l, w⟩ := q
    simp only [put]
    split
    · by_cases h : j = k <;> grind
    · split
      · next hlk =>
        by_cases h : j = l
        · subst h
          have : j ≠ k := fun e => String.lt_irrefl k (e ▸ hlk)
          simp [this]
        · grind
      · next hk hlk =>
        obtain rfl := eq_of_not_lt hk hlk
        by_cases h : j = k <;> grind

/-- A write changes the value at its own key and at no other. -/
theorem find?_insert (m : SortedMap α) (k j : String) (v : α) :
    (m.insert k v).find? j = if j = k then some v else m.find? j :=
  find?_put k j v m.entries

@[simp] theorem find?_empty (j : String) : (empty : SortedMap α).find? j = none := rfl

private theorem find?_eq_none_of_lt {j : String} {l : List (String × α)}
    (h : ∀ p ∈ l, j < p.1) : l.find? (·.1 == j) = none := by
  refine List.find?_eq_none.2 fun p hp hj => ?_
  have hj : p.1 = j := by simpa using hj
  exact String.lt_irrefl j (by simpa [hj] using h p hp)

private theorem entries_eq_of_find?_eq {l n : List (String × α)}
    (hl : l.Pairwise (·.1 < ·.1)) (hn : n.Pairwise (·.1 < ·.1))
    (h : ∀ j, (l.find? (·.1 == j)).map (·.2) = (n.find? (·.1 == j)).map (·.2)) : l = n := by
  induction l generalizing n with
  | nil =>
    cases n with
    | nil => rfl
    | cons q n => have := h q.1; simp at this
  | cons p l ih =>
    cases n with
    | nil => have := h p.1; simp at this
    | cons q n =>
      obtain ⟨hp, htail⟩ := List.pairwise_cons.1 hl
      obtain ⟨hq, hrest⟩ := List.pairwise_cons.1 hn
      have keys : p.1 = q.1 := by
        rcases Classical.em (p.1 < q.1) with hlt | hge
        · have far : ∀ r ∈ q :: n, p.1 < r.1 := by
            intro r hr
            rcases List.mem_cons.1 hr with rfl | hr
            · exact hlt
            · exact String.lt_trans hlt (hq r hr)
          have := h p.1
          rw [find?_eq_none_of_lt far] at this
          simp at this
        · rcases Classical.em (q.1 < p.1) with hlt | hle
          · have far : ∀ r ∈ p :: l, q.1 < r.1 := by
              intro r hr
              rcases List.mem_cons.1 hr with rfl | hr
              · exact hlt
              · exact String.lt_trans hlt (hp r hr)
            have := h q.1
            rw [find?_eq_none_of_lt far] at this
            simp at this
          · exact eq_of_not_lt hge hle
      have values : p.2 = q.2 := by
        have := h p.1
        simpa [keys] using this
      have heads : p = q := Prod.ext keys values
      subst heads
      refine congrArg (p :: ·) (ih htail hrest fun j => ?_)
      have := h j
      by_cases hj : p.1 = j
      · subst hj
        rw [find?_eq_none_of_lt hp, find?_eq_none_of_lt hq]
      · simpa [List.find?_cons, hj] using this

/-- Two maps with the same value at every key are equal. -/
theorem ext_find? {m n : SortedMap α} (h : ∀ j, m.find? j = n.find? j) : m = n := by
  obtain ⟨l, hl⟩ := m
  obtain ⟨n, hn⟩ := n
  obtain rfl : l = n := entries_eq_of_find?_eq hl hn h
  rfl

/-- Whether a key is bound. -/
def contains (m : SortedMap α) (k : String) : Bool := (m.find? k).isSome

/-- The keys in increasing order. -/
def keys (m : SortedMap α) : List String := m.entries.map (·.1)

/-- The keys are the texts that are bound. -/
theorem mem_keys {m : SortedMap α} {k : String} : k ∈ m.keys ↔ m.contains k = true := by
  simp [keys, contains, find?, Option.isSome_map]

theorem keys_increasing (m : SortedMap α) : m.keys.Pairwise (· < ·) :=
  List.pairwise_map.2 m.increasing

theorem nodup_of_increasing {l : List String} (h : l.Pairwise (· < ·)) : l.Nodup := by
  show List.Pairwise (· ≠ ·) l
  refine h.imp ?_
  intro a b lt e
  rw [e] at lt
  exact String.lt_irrefl b lt

/-- A key is bound to at most one value. -/
theorem mem_entries {m : SortedMap α} {k : String} {v : α} :
    (k, v) ∈ m.entries ↔ m.find? k = some v := by
  obtain ⟨l, h⟩ := m
  simp only [find?]
  induction l with
  | nil => simp
  | cons p l ih =>
    obtain ⟨hp, htail⟩ := List.pairwise_cons.1 h
    by_cases hk : p.1 = k
    · obtain ⟨j, w⟩ := p
      obtain rfl : j = k := hk
      have fresh : (j, v) ∉ l := fun hv => String.lt_irrefl j (hp (j, v) hv)
      simp [fresh, eq_comm]
    · rw [List.mem_cons, List.find?_cons_of_neg (by simpa using hk), ← ih htail]
      exact or_iff_right fun e => hk (by rw [← e])

/-- The number of bindings. -/
def size (m : SortedMap α) : Nat := m.entries.length

/-- Bindings written one after another; of several with one key the last
stays. -/
def ofList (l : List (String × α)) : SortedMap α :=
  l.foldl (fun m p => m.insert p.1 p.2) empty

theorem find?_foldl_insert (l : List (String × α)) (m : SortedMap α) (j : String) :
    (l.foldl (fun m p => m.insert p.1 p.2) m).find? j
      = ((l.reverse.find? (·.1 == j)).map (·.2)).or (m.find? j) := by
  induction l generalizing m with
  | nil => simp
  | cons p l ih =>
    rw [List.foldl_cons, ih, find?_insert, List.reverse_cons, List.find?_append]
    by_cases h : j = p.1
    · cases l.reverse.find? (·.1 == j) <;> simp [h]
    · have : ¬ p.1 = j := fun e => h e.symm
      cases l.reverse.find? (·.1 == j) <;> simp [h, this]

/-- A list of bindings is read from its end. -/
theorem find?_ofList (l : List (String × α)) (j : String) :
    (ofList l).find? j = (l.reverse.find? (·.1 == j)).map (·.2) := by
  rw [ofList, find?_foldl_insert, find?_empty, Option.or_none]

/-- A table of the values of a function binds the listed keys. -/
theorem find?_ofList_map (f : String → α) (l : List String) (j : String) :
    (ofList (l.map fun s => (s, f s))).find? j = if j ∈ l then some (f j) else none := by
  rw [find?_ofList, ← List.map_reverse, List.find?_map, Option.map_map]
  split
  · next h =>
    have found : (l.reverse.find? ((·.1 == j) ∘ fun s => (s, f s))).isSome :=
      List.find?_isSome.2 ⟨j, List.mem_reverse.2 h, by simp⟩
    obtain ⟨s, hs⟩ := Option.isSome_iff_exists.1 found
    obtain rfl : s = j := by simpa using List.find?_some hs
    rw [hs]
    rfl
  · next h =>
    have missing : l.reverse.find? ((·.1 == j) ∘ fun s => (s, f s)) = none := by
      refine List.find?_eq_none.2 fun s hs => ?_
      rintro hj
      obtain rfl : s = j := by simpa using hj
      exact h (List.mem_reverse.1 hs)
    rw [missing]
    rfl

/-- A list of bindings binds the keys that stand in it. -/
theorem contains_ofList {l : List (String × α)} {j : String} :
    (ofList l).contains j = true ↔ j ∈ l.map (·.1) := by
  rw [contains, find?_ofList, Option.isSome_map, List.find?_isSome, List.mem_map]
  simp

/-- A binding can be read if its key stands in the list once. -/
theorem find?_ofList_of_mem {l : List (String × α)} {j : String} {v : α}
    (distinct : (l.map (·.1)).Nodup) (h : (j, v) ∈ l) : (ofList l).find? j = some v := by
  have bound := contains_ofList.2 (List.mem_map_of_mem (f := (·.1)) h)
  obtain ⟨w, found⟩ := Option.isSome_iff_exists.1 bound
  rw [found]
  rw [find?_ofList] at found
  obtain ⟨⟨i, u⟩, hp, rfl⟩ := Option.map_eq_some_iff.1 found
  obtain rfl : i = j := by simpa using List.find?_some hp
  have member := List.mem_reverse.1 (List.mem_of_find?_eq_some hp)
  clear found hp bound
  induction l with
  | nil => cases h
  | cons q l ih =>
    rw [List.map_cons, List.nodup_cons] at distinct
    rcases List.mem_cons.1 h with rfl | later
    · rcases List.mem_cons.1 member with e | member
      · cases e
        rfl
      · exact absurd (List.mem_map_of_mem (f := (·.1)) member) distinct.1
    · rcases List.mem_cons.1 member with rfl | member
      · exact absurd (List.mem_map_of_mem (f := (·.1)) later) distinct.1
      · exact ih distinct.2 later member

/-- The bindings of a map, written one after another, are the map. -/
theorem ofList_entries (m : SortedMap α) : ofList m.entries = m := by
  refine ext_find? fun j => ?_
  rw [find?_ofList]
  refine Option.ext fun v => ?_
  rw [← mem_entries]
  constructor
  · intro h
    obtain ⟨p, hp, rfl⟩ := Option.map_eq_some_iff.1 h
    have key : p.1 = j := by simpa using List.find?_some hp
    have member := List.mem_reverse.1 (List.mem_of_find?_eq_some hp)
    exact key ▸ member
  · intro h
    have found : (m.entries.reverse.find? (·.1 == j)).isSome :=
      List.find?_isSome.2 ⟨(j, v), List.mem_reverse.2 h, by simp⟩
    obtain ⟨p, hp⟩ := Option.isSome_iff_exists.1 found
    have key : p.1 = j := by simpa using List.find?_some hp
    have member := List.mem_reverse.1 (List.mem_of_find?_eq_some hp)
    have same := mem_entries.1 (show (j, p.2) ∈ m.entries from key ▸ member)
    rw [mem_entries.1 h] at same
    rw [hp, Option.map_some, same]

/-- The bindings of `n` written over those of `m`. -/
def union (m n : SortedMap α) : SortedMap α :=
  n.entries.foldl (fun r p => r.insert p.1 p.2) m

/-- A union has the bindings of its second map, and elsewhere those of its
first. -/
theorem find?_union (m n : SortedMap α) (j : String) :
    (m.union n).find? j = (n.find? j).or (m.find? j) := by
  rw [union, find?_foldl_insert, ← find?_ofList, ofList_entries]

/-- Every value replaced, keys kept. -/
def map (f : α → β) (m : SortedMap α) : SortedMap β where
  entries := m.entries.map fun p => (p.1, f p.2)
  increasing := List.pairwise_map.2 m.increasing

theorem find?_map (f : α → β) (m : SortedMap α) (j : String) :
    (m.map f).find? j = (m.find? j).map f := by
  simp [map, find?, List.find?_map, Function.comp_def]

-- ============================================================= counters

private theorem sum_put {k : String} {v w : Nat} {l : List (String × Nat)}
    (increasing : l.Pairwise (·.1 < ·.1))
    (h : (l.find? (·.1 == k)).map (·.2) = some w) :
    ((put k v l).map (·.2)).foldr (· + ·) 0 + w = (l.map (·.2)).foldr (· + ·) 0 + v := by
  induction l with
  | nil => simp at h
  | cons q rest ih =>
    obtain ⟨j, u⟩ := q
    obtain ⟨hj, hrest⟩ := List.pairwise_cons.1 increasing
    simp only [put]
    split
    · next hk =>
      have far : ∀ p ∈ (j, u) :: rest, k < p.1 := by
        intro p hp
        rcases List.mem_cons.1 hp with rfl | hp
        · exact hk
        · exact String.lt_trans hk (hj p hp)
      rw [find?_eq_none_of_lt far] at h
      simp at h
    · split
      · next hjk =>
        have differs : ¬ j = k := fun e => String.lt_irrefl k (e ▸ hjk)
        have found : (rest.find? (·.1 == k)).map (·.2) = some w := by
          simpa [List.find?_cons, differs] using h
        have := ih hrest found
        simp only [List.map_cons, List.foldr_cons]
        omega
      · next hk hjk =>
        obtain rfl := eq_of_not_lt hk hjk
        obtain rfl : u = w := by simpa using h
        simp only [List.map_cons, List.foldr_cons]
        omega

/-- The sum of the values. -/
def total (m : SortedMap Nat) : Nat := (m.entries.map (·.2)).foldr (· + ·) 0

/-- A write over a value changes the sum by the difference. -/
theorem total_insert {m : SortedMap Nat} {k : String} {v w : Nat} (h : m.find? k = some w) :
    (m.insert k v).total + w = m.total + v :=
  sum_put m.increasing h

end SortedMap

/-- A finite set of texts in increasing order. -/
abbrev TextSet := SortedMap Unit

/-- The set of the members of a list. -/
def TextSet.ofList (l : List String) : TextSet :=
  SortedMap.ofList (l.map fun s => (s, ()))

theorem TextSet.mem_keys_ofList {l : List String} {s : String} :
    s ∈ (TextSet.ofList l).keys ↔ s ∈ l := by
  rw [SortedMap.mem_keys, SortedMap.contains, TextSet.ofList,
    SortedMap.find?_ofList_map fun _ => ()]
  split
  · next member => simp [member]
  · next other => simp [other]

end PartPlan
