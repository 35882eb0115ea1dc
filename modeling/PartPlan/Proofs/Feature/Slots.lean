/-
The entries of a payload: what is in its filled slots, slot by slot. They
follow the list of slots, and an action on the values of a payload is one on
its entries, which keep their names and types.
-/
import Mathlib.Data.List.Forall2
import PartPlan.Feature.Slot
import PartPlan.Proofs.Checked

namespace PartPlan

variable {ε : Type} {m : Type → Type} [Monad m]

namespace Slot

/-- A pure action on a slot is one on its content. -/
theorem content?_mapM_id {h : (t : SlotType) → t.Value → t.Value} (s : Slot) (v : s.Value) :
    s.content? (s.mapM (m := Id) h v) = (s.content? v).map (h s.type) := by
  obtain ⟨name, type, presence⟩ := s
  cases presence with
  | required => rfl
  | defaulted value => rfl
  | optional =>
    cases v with
    | none => rfl
    | some w => rfl

/-- An action on a slot after a pure one is one action. -/
theorem mapM_mapM_id {h : (t : SlotType) → t.Value → m t.Value}
    {k : (t : SlotType) → t.Value → t.Value} (s : Slot) (v : s.Value) :
    s.mapM h (s.mapM (m := Id) k v) = s.mapM (fun t w => h t (k t w)) v := by
  obtain ⟨name, type, presence⟩ := s
  cases presence with
  | required => rfl
  | defaulted value => rfl
  | optional =>
    cases v with
    | none => rfl
    | some w => rfl

/-- Actions that agree on the content of a slot agree on the slot. -/
theorem mapM_congr {h k : (t : SlotType) → t.Value → m t.Value} (s : Slot) (v : s.Value)
    (same : ∀ w ∈ s.content? v, h s.type w = k s.type w) : s.mapM h v = s.mapM k v := by
  obtain ⟨name, type, presence⟩ := s
  cases presence with
  | required => exact same v rfl
  | defaulted value => exact same v rfl
  | optional =>
    cases v with
    | none => rfl
    | some w => exact congrArg (some <$> ·) (same w rfl)

/-- An action that has succeeded on a slot has succeeded on its content. -/
theorem content?_of_mapM {h : (t : SlotType) → t.Value → Except ε t.Value} {s : Slot}
    {v v' : s.Value} (mapped : s.mapM h v = .ok v') :
    Option.Rel (fun w w' => h s.type w = .ok w') (s.content? v) (s.content? v') := by
  obtain ⟨name, type, presence⟩ := s
  cases presence with
  | required => exact .some mapped
  | defaulted value => exact .some mapped
  | optional =>
    cases v with
    | none =>
      cases mapped
      exact .none
    | some w =>
      obtain ⟨w', hw, rfl⟩ := Checked.map_eq_ok.1 mapped
      exact .some hw

end Slot

namespace Payload

variable {ss : List Slot}

/-- The entries follow the slots. -/
theorem types_entries_sublist (p : Payload ss) :
    ((p.entries ss).map Entry.type).Sublist (ss.map Slot.type) := by
  induction ss with
  | nil => exact List.Sublist.refl _
  | cons s ss ih =>
    obtain ⟨v, p⟩ := p
    rw [entries, List.map_cons]
    split
    · exact (ih p).cons_cons _
    · exact (ih p).cons _

/-- A pure action on a payload is one on its entries. -/
theorem entries_mapM_id {h : (t : SlotType) → t.Value → t.Value} (p : Payload ss) :
    (p.mapM (m := Id) (fun _ => h) ss).entries ss
      = (p.entries ss).map fun e => ⟨e.name, e.type, h e.type e.value⟩ := by
  induction ss with
  | nil => rfl
  | cons s ss ih =>
    obtain ⟨v, p⟩ := p
    show entries (s :: ss) (s.mapM (m := Id) h v, p.mapM (m := Id) (fun _ => h) ss) = _
    rw [entries, entries, Slot.content?_mapM_id, ih]
    cases s.content? v with
    | none => rfl
    | some w => rfl

/-- An action on a payload after a pure one is one action. -/
theorem mapM_mapM_id {h : String → (t : SlotType) → t.Value → m t.Value}
    {k : (t : SlotType) → t.Value → t.Value} (p : Payload ss) :
    (p.mapM (m := Id) (fun _ => k) ss).mapM h ss
      = p.mapM (fun name t w => h name t (k t w)) ss := by
  induction ss with
  | nil => rfl
  | cons s ss ih =>
    obtain ⟨v, p⟩ := p
    show mapM h (s :: ss) (s.mapM (m := Id) k v, p.mapM (m := Id) (fun _ => k) ss) = _
    rw [mapM, mapM, s.mapM_mapM_id v, ih p]

/-- Actions that agree on the entries of a payload agree on it. -/
theorem mapM_congr {h k : String → (t : SlotType) → t.Value → m t.Value} (p : Payload ss)
    (same : ∀ e ∈ p.entries ss, h e.name e.type e.value = k e.name e.type e.value) :
    p.mapM h ss = p.mapM k ss := by
  induction ss with
  | nil => rfl
  | cons s ss ih =>
    obtain ⟨v, p⟩ := p
    rw [entries] at same
    have here : s.mapM (h s.name) v = s.mapM (k s.name) v := by
      refine s.mapM_congr v fun w hw => same ⟨s.name, s.type, w⟩ ?_
      rw [Option.mem_def.1 hw]
      exact List.mem_cons_self
    have rest : p.mapM h ss = p.mapM k ss := by
      refine ih p fun e he => same e ?_
      split
      · exact List.mem_cons_of_mem _ he
      · exact he
    rw [mapM, mapM, here, rest]

/-- An action that has succeeded on a payload has succeeded on its entries. -/
theorem forall₂_entries_of_mapM {h : String → (t : SlotType) → t.Value → Except ε t.Value}
    {p p' : Payload ss} (mapped : p.mapM h ss = .ok p') :
    List.Forall₂ (fun e e' => ∃ v, h e.name e.type e.value = .ok v ∧ e' = ⟨e.name, e.type, v⟩)
      (p.entries ss) (p'.entries ss) := by
  induction ss with
  | nil => exact .nil
  | cons s ss ih =>
    obtain ⟨v, p⟩ := p
    obtain ⟨v', here, mapped⟩ := Checked.bind_eq_ok.1 mapped
    obtain ⟨p', rest, mapped⟩ := Checked.bind_eq_ok.1 mapped
    obtain rfl := Except.ok.inj mapped
    have content := Slot.content?_of_mapM here
    rw [entries, entries]
    revert content
    generalize s.content? v = w
    generalize s.content? v' = w'
    intro content
    cases content with
    | none => exact ih rest
    | some hw => exact .cons ⟨_, hw, rfl⟩ (ih rest)

end Payload
end PartPlan
