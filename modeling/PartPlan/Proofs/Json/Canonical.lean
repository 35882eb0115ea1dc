/-
Values in key order. Bringing a value into key order a second time changes
nothing: a map is already in the order of its keys, and its values are. A text
that denotes the value still denotes it, and `null` remains the only `null`.
-/
import PartPlan.Proofs.Json.RoundTrip

namespace PartPlan.Json

theorem canonicalItems_eq (items : List Json) : canonicalItems items = items.map canonical := by
  induction items with
  | nil => rw [canonicalItems, List.map_nil]
  | cons v vs ih => rw [canonicalItems, ih, List.map_cons]

theorem canonicalMembers_eq (members : List (String × Json)) :
    canonicalMembers members = members.map fun m => (m.1, m.2.canonical) := by
  induction members with
  | nil => rw [canonicalMembers, List.map_nil]
  | cons m ms ih =>
    obtain ⟨k, v⟩ := m
    rw [canonicalMembers, ih, List.map_cons]

/-- The members of an object in key order are its own, each in key order. -/
theorem exists_of_mem_canonical {members : List (String × Json)} {m : String × Json}
    (h : m ∈ (SortedMap.ofList (canonicalMembers members)).entries) :
    ∃ n ∈ members, m.2 = n.2.canonical := by
  have listed := SortedMap.mem_of_mem_ofList h
  rw [canonicalMembers_eq] at listed
  obtain ⟨n, hn, rfl⟩ := List.mem_map.1 listed
  exact ⟨n, hn, rfl⟩

theorem eq_null_of_canonical {v : Json} (h : v.canonical = .null) : v = .null := by
  cases v <;> simp_all [canonical]

theorem canonical_canonical {v : Json} (h : Sound v) : v.canonical.canonical = v.canonical := by
  induction h with
  | arr _ ih =>
    rw [canonical, canonical, canonicalItems_eq, canonicalItems_eq, List.map_map]
    exact congrArg Json.arr (List.map_congr_left fun v hv => ih v hv)
  | @obj members _ ih =>
    have settled : canonicalMembers (SortedMap.ofList (canonicalMembers members)).entries
        = (SortedMap.ofList (canonicalMembers members)).entries := by
      rw [canonicalMembers_eq]
      refine (List.map_congr_left fun m hm => ?_).trans (List.map_id _)
      obtain ⟨n, hn, same⟩ := exists_of_mem_canonical hm
      rw [same, ih n hn, ← same]
      rfl
    rw [canonical, canonical, settled, SortedMap.ofList_entries]
  | _ => rfl

theorem Textual.canonical {v : Json} (h : Textual v) : Textual v.canonical := by
  obtain ⟨sound, readable⟩ := h
  induction sound with
  | arr _ ih =>
    rw [Json.canonical, canonicalItems_eq]
    exact textual_map fun v hv => ih v hv (readable_arr.1 readable v hv)
  | obj _ ih =>
    rw [Json.canonical]
    refine .obj fun m hm => ?_
    obtain ⟨n, hn, same⟩ := exists_of_mem_canonical hm
    rw [same]
    exact ih n hn (readable_obj.1 readable n hn)
  | null => exact .null
  | bool b => exact .bool b
  | str s => exact .str s
  | int fits => exact ⟨.int fits, rfl⟩
  | num finite => exact ⟨.num finite, rfl⟩
  | unreadable => cases readable

/-- A value that is kept in key order is kept as it is afterwards. -/
theorem RoundTrips.canonical : RoundTrips (fun v => v.whole?.map Json.canonical) id := by
  intro v a sound given
  obtain ⟨w, whole, rfl⟩ := Option.map_eq_some_iff.1 given
  obtain ⟨readable, rfl⟩ := of_whole? whole
  have textual : Textual v.canonical := Textual.canonical ⟨sound, readable⟩
  refine ⟨?_, textual⟩
  show v.canonical.whole?.map Json.canonical = _
  rw [textual.whole?, Option.map_some, canonical_canonical sound]

end PartPlan.Json
