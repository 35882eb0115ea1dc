/-
What a context holds after a history. A context is only ever told of two
things, an output to absorb and a selection to register, and a `History` is
a sequence of them. The selections it then holds are told from the batches
in which they came, without going through the contexts in between: of each
batch those stay whose owner no later batch mentions.

The induction is on the history from its first event, for every context, so
that what the context held before is one more batch in front of the others.
-/
import PartPlan.Selection.Context

namespace PartPlan

/-- Something a context is told. -/
inductive Event where
  | absorb (o : BackendOutput)
  | register (name : String) (s : Selection)

namespace Event

/-- The selections an event brings, if it is an output. -/
def batch? : Event → Option (List Selection)
  | absorb o => some o.selections
  | register _ _ => none

/-- What an event registers under a name. -/
def written? (name : String) : Event → Option Selection
  | absorb o => o.outputs.find? name
  | register n s => if name = n then some s else none

/-- A context that has been told of an event. -/
def apply (c : ResolutionContext) : Event → ResolutionContext
  | absorb o => c.absorb o
  | register name s => c.register name s

end Event

/-- A sequence of events. -/
abbrev History := List Event

/-- Selections in the batches in which they came. -/
abbrev Batches := List (List Selection)

/-- The batches of a history, in their order. -/
def History.batches (h : History) : Batches := h.filterMap Event.batch?

/-- What is registered under a name last. -/
def History.lastWritten? (name : String) (h : History) : Option Selection :=
  h.reverse.findSome? (Event.written? name)

/-- A context that has been told of a history. -/
def ResolutionContext.run (c : ResolutionContext) (h : History) : ResolutionContext :=
  h.foldl Event.apply c

-- ============================================================== batches

/-- A selection without an owner, or with one that no later batch
mentions. -/
def Selection.Current (later : Batches) (s : Selection) : Prop :=
  ∀ owner ∈ s.owner?, ∀ batch ∈ later, ∀ t ∈ batch, t.owner? ≠ some owner

instance (later : Batches) : DecidablePred (Selection.Current later) := fun s =>
  inferInstanceAs
    (Decidable (∀ owner ∈ s.owner?, ∀ batch ∈ later, ∀ t ∈ batch, t.owner? ≠ some owner))

/-- The current selections of batches, batch by batch. -/
def Batches.current : Batches → List Selection
  | [] => []
  | batch :: later => batch.filter (Selection.Current later) ++ current later

namespace Selection

variable {s : Selection} {later : Batches} {owner : String}

theorem current_of_unowned (unowned : s.owner? = none) : s.Current later := by
  intro owner owned
  rw [unowned] at owned
  cases owned

theorem current_iff_of_owned (owned : s.owner? = some owner) :
    s.Current later ↔ ∀ batch ∈ later, ∀ t ∈ batch, t.owner? ≠ some owner := by
  unfold Current
  rw [owned]
  simp only [Option.mem_some_iff, forall_eq']

/-- A selection survives an output if it stays current when the selections
of the output follow. -/
theorem survives_owners {o : BackendOutput} :
    ResolutionContext.survives o.owners s = true ↔ s.Current [o.selections] := by
  unfold ResolutionContext.survives BackendOutput.owners
  cases owned : s.owner? with
  | none =>
    refine ⟨fun _ => current_of_unowned owned, fun _ => rfl⟩
  | some owner =>
    rw [current_iff_of_owned owned]
    simp

theorem current_cons {batch : List Selection} :
    s.Current (batch :: later) ↔ s.Current [batch] ∧ s.Current later := by
  cases owned : s.owner? with
  | none =>
    have stays : ∀ l : Batches, s.Current l := fun l => current_of_unowned owned
    exact iff_of_true (stays _) ⟨stays _, stays _⟩
  | some owner =>
    rw [current_iff_of_owned owned, current_iff_of_owned owned, current_iff_of_owned owned,
      List.forall_mem_cons, List.forall_mem_singleton]

end Selection

/-- What an output leaves of a batch is what is current of it when the output
is the next batch. -/
theorem filter_survives (o : BackendOutput) (batch : List Selection)
    (later : Batches) :
    (batch.filter (ResolutionContext.survives o.owners)).filter (Selection.Current later)
      = batch.filter (Selection.Current (o.selections :: later)) := by
  rw [List.filter_filter]
  refine List.filter_congr fun s _ => ?_
  rw [Bool.eq_iff_iff, Bool.and_eq_true, decide_eq_true_iff, decide_eq_true_iff,
    Selection.survives_owners, @Selection.current_cons s later, and_comm]

-- ================================================================= runs

namespace ResolutionContext

variable (c : ResolutionContext) (h : History)

/-- The selections after a history are the current ones of what was there
and of the batches. -/
theorem selections_run : (c.run h).selections = Batches.current (c.selections :: h.batches) := by
  induction h generalizing c with
  | nil =>
    have all : c.selections.filter (Selection.Current []) = c.selections := by
      refine List.filter_eq_self.2 fun s _ => decide_eq_true ?_
      exact fun _ _ _ none_later => absurd none_later List.not_mem_nil
    show c.selections = c.selections.filter (Selection.Current []) ++ []
    rw [all, List.append_nil]
  | cons e h ih =>
    cases e with
    | absorb o =>
      show ((c.absorb o).run h).selections
        = Batches.current (c.selections :: o.selections :: History.batches h)
      rw [ih, Batches.current, Batches.current, Batches.current, absorb, List.filter_append,
        filter_survives, List.append_assoc]
    | register name s =>
      show ((c.register name s).run h).selections
        = Batches.current (c.selections :: History.batches h)
      rw [ih]
      rfl

/-- What an event registers goes before what was registered. -/
theorem find?_named_apply (e : Event) (name : String) :
    (e.apply c).named.find? name = (e.written? name).or (c.named.find? name) := by
  cases e with
  | absorb o => exact SortedMap.find?_union c.named o.outputs name
  | register n s =>
    show (c.named.insert n s).find? name = _
    rw [SortedMap.find?_insert, Event.written?]
    split
    · rfl
    · rfl

/-- A name stands for what was registered under it last. -/
theorem find?_named_run (name : String) :
    (c.run h).named.find? name = (h.lastWritten? name).or (c.named.find? name) := by
  induction h generalizing c with
  | nil => rfl
  | cons e h ih =>
    show ((e.apply c).run h).named.find? name = _
    rw [ih, find?_named_apply, ← Option.or_assoc]
    unfold History.lastWritten?
    rw [List.reverse_cons, List.findSome?_append, List.findSome?_singleton]

end ResolutionContext

-- ========================================================== consequences

namespace Batches

variable (batches : Batches) (owner : String)

/-- Current selections keep their order, and none is there more often than it
came. -/
theorem current_sublist : (current batches).Sublist batches.flatten := by
  induction batches with
  | nil => exact List.Sublist.refl _
  | cons batch later ih =>
    rw [current, List.flatten_cons]
    exact List.filter_sublist.append ih

/-- A selection without an owner stays. -/
theorem unowned_current :
    (current batches).filter (·.owner? = none) = batches.flatten.filter (·.owner? = none) := by
  induction batches with
  | nil => rfl
  | cons batch later ih =>
    rw [current, List.flatten_cons, List.filter_append, List.filter_append, ih,
      List.filter_filter]
    refine congrArg (· ++ _) (List.filter_congr fun s _ => ?_)
    by_cases unowned : s.owner? = none
    · simp [unowned, Selection.current_of_unowned unowned]
    · simp [unowned]

/-- Whether a batch mentions an owner. -/
def mentions (batch : List Selection) : Bool := batch.any (·.owner? = some owner)

/-- Selections of an owner that no batch mentions are none. -/
theorem owned_eq_nil {batch : List Selection} (silent : mentions owner batch = false) :
    batch.filter (·.owner? = some owner) = [] := by
  refine List.filter_eq_nil_iff.2 fun s hs owned => ?_
  exact List.any_eq_false.1 silent s hs owned

/-- Of the selections of an owner a batch keeps all or none. -/
theorem owned_filter_current (batch : List Selection) (later : Batches) :
    (batch.filter (Selection.Current later)).filter (·.owner? = some owner)
      = if later.any (mentions owner) then [] else batch.filter (·.owner? = some owner) := by
  rw [List.filter_filter]
  cases spoken : later.any (mentions owner) with
  | true =>
    obtain ⟨b, hb, mentioned⟩ := List.any_eq_true.1 spoken
    obtain ⟨t, ht, same⟩ := List.any_eq_true.1 mentioned
    refine List.filter_eq_nil_iff.2 fun s _ kept => ?_
    obtain ⟨owned, stays⟩ := Bool.and_eq_true_iff.1 kept
    have stays := (Selection.current_iff_of_owned (of_decide_eq_true owned)).1
      (of_decide_eq_true stays)
    exact stays b hb t ht (of_decide_eq_true same)
  | false =>
    refine List.filter_congr fun s _ => ?_
    by_cases owned : s.owner? = some owner
    · have stays : s.Current later := by
        refine (Selection.current_iff_of_owned owned).2 fun b hb t ht same => ?_
        exact List.any_eq_false.1 spoken b hb (List.any_eq_true.2 ⟨t, ht, decide_eq_true same⟩)
      simp [owned, stays]
    · simp [owned]

/-- The current selections of an owner are those of the last batch that
mentions it, all of them. -/
theorem owned_current :
    (current batches).filter (·.owner? = some owner)
      = ((batches.reverse.find? (mentions owner)).getD []).filter (·.owner? = some owner) := by
  induction batches with
  | nil => rfl
  | cons batch later ih =>
    rw [current, List.filter_append, owned_filter_current, ih, List.reverse_cons,
      List.find?_append]
    cases found : later.reverse.find? (mentions owner) with
    | some last =>
      have spoken : later.any (mentions owner) = true :=
        List.any_eq_true.2 ⟨last, List.mem_reverse.1 (List.mem_of_find?_eq_some found),
          List.find?_some found⟩
      rw [if_pos spoken]
      rfl
    | none =>
      have silent : ¬ later.any (mentions owner) = true := by
        rw [← List.any_reverse, List.any_eq_true]
        intro h
        obtain ⟨b, hb, mentioned⟩ := h
        exact List.find?_eq_none.1 found b hb mentioned
      rw [if_neg silent]
      show _ ++ [] = _
      rw [List.append_nil]
      cases here : mentions owner batch with
      | true => simp [here]
      | false => simp [here, owned_eq_nil owner here]

end Batches

/-- After a history that began with given selections, a context holds the
current ones of these and of the batches, batch by batch. Of an owner it
holds what the last batch that mentions it has brought, and it holds all
selections without an owner; none is there more often or in another order
than it came. A name stands for the selection that was registered under it
last, whether that is still current or not. -/
theorem ResolutionContext.run_ofSelections (given : List Selection) (h : History) :
    ((ofSelections given).run h).selections = Batches.current (given :: h.batches)
      ∧ (∀ owner, ((ofSelections given).run h).selections.filter (·.owner? = some owner)
        = (((given :: h.batches).reverse.find? (Batches.mentions owner)).getD []).filter
          (·.owner? = some owner))
      ∧ ((ofSelections given).run h).selections.filter (·.owner? = none)
        = (given :: h.batches).flatten.filter (·.owner? = none)
      ∧ ((ofSelections given).run h).selections.Sublist (given :: h.batches).flatten
      ∧ ∀ name, ((ofSelections given).run h).named.find? name = h.lastWritten? name := by
  have held : ((ofSelections given).run h).selections = Batches.current (given :: h.batches) :=
    selections_run (ofSelections given) h
  rw [held]
  refine ⟨rfl, fun owner => ?_, ?_, ?_, fun name => ?_⟩
  · exact Batches.owned_current (given :: h.batches) owner
  · exact Batches.unowned_current (given :: h.batches)
  · exact Batches.current_sublist (given :: h.batches)
  · rw [find?_named_run]
    exact Option.or_none

end PartPlan
