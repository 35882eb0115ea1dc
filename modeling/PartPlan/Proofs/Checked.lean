/-
Computations that may fail. Read backwards, a sequence that has succeeded
has done so with each of its steps, and a pass over a list on each of its
members. A sequence that fails does so with an error of one of its steps, and
one whose steps say exactly what they accept accepts just that. Errors that are
rewritten at the end may as well be rewritten in each step. And two sequences
whose steps end alike end alike.
-/
import Mathlib.Data.List.Forall2
import Mathlib.Data.List.Perm.Basic

namespace PartPlan.Checked

variable {ε ε' α β : Type}

theorem bind_eq_ok {x : Except ε α} {f : α → Except ε β} {b : β} :
    (x >>= f) = .ok b ↔ ∃ a, x = .ok a ∧ f a = .ok b := by
  cases x with
  | error e =>
    refine ⟨fun h => ?_, fun h => ?_⟩
    · cases h
    · obtain ⟨_, h, -⟩ := h
      cases h
  | ok a =>
    refine ⟨fun h => ⟨a, rfl, h⟩, fun h => ?_⟩
    obtain ⟨_, h, hb⟩ := h
    cases h
    exact hb

theorem map_eq_ok {f : α → β} {x : Except ε α} {b : β} :
    (f <$> x) = .ok b ↔ ∃ a, x = .ok a ∧ f a = b := by
  cases x with
  | error e =>
    refine ⟨fun h => ?_, fun h => ?_⟩
    · cases h
    · obtain ⟨_, h, -⟩ := h
      cases h
  | ok a =>
    refine ⟨fun h => ⟨a, rfl, Except.ok.inj h⟩, fun h => ?_⟩
    obtain ⟨_, h, hb⟩ := h
    cases h
    rw [← hb]
    rfl

theorem mapError_eq_ok {f : ε → ε'} {x : Except ε α} {a : α} :
    x.mapError f = .ok a ↔ x = .ok a := by
  cases x with
  | error e =>
    refine ⟨fun h => ?_, fun h => ?_⟩
    · cases h
    · cases h
  | ok b =>
    refine ⟨fun h => ?_, fun h => ?_⟩
    · cases h
      rfl
    · cases h
      rfl

theorem toOption_eq_some {x : Except ε α} {a : α} : x.toOption = some a ↔ x = .ok a := by
  cases x with
  | error e => simp [Except.toOption]
  | ok b => simp [Except.toOption]

/-- A sequence fails with what its first failing step fails with. -/
theorem bind_eq_error {x : Except ε α} {f : α → Except ε β} {e : ε} :
    (x >>= f) = .error e ↔ x = .error e ∨ ∃ a, x = .ok a ∧ f a = .error e := by
  cases x with
  | error e' => simp [bind, Except.bind]
  | ok a => simp [bind, Except.bind]

theorem mapError_eq_error {f : ε → ε'} {x : Except ε α} {e : ε'} :
    x.mapError f = .error e ↔ ∃ e', x = .error e' ∧ f e' = e := by
  cases x with
  | error e' => simp [Except.mapError]
  | ok a => simp [Except.mapError]

/-- Passes that do the same on every member of a list do the same on the list. -/
theorem mapM_congr {f g : α → Except ε β} {l : List α} (same : ∀ a ∈ l, f a = g a) :
    l.mapM f = l.mapM g := by
  induction l with
  | nil => rfl
  | cons a l ih =>
    obtain ⟨here, same⟩ := List.forall_mem_cons.1 same
    rw [List.mapM_cons, List.mapM_cons, here, ih same]

/-- A pass over a list succeeds with the results on its members. -/
theorem mapM_eq_ok {f : α → Except ε β} {l : List α} {r : List β} :
    l.mapM f = .ok r ↔ List.Forall₂ (fun a b => f a = .ok b) l r := by
  induction l generalizing r with
  | nil =>
    rw [List.mapM_nil]
    refine ⟨?_, ?_⟩
    · intro h
      cases h
      exact .nil
    · intro h
      cases h
      rfl
  | cons a l ih =>
    rw [List.mapM_cons, bind_eq_ok]
    refine ⟨?_, ?_⟩
    · intro h
      obtain ⟨b, hb, h⟩ := h
      obtain ⟨bs, hbs, h⟩ := bind_eq_ok.1 h
      cases h
      exact .cons hb (ih.1 hbs)
    · intro h
      cases h with
      | cons hb hbs => exact ⟨_, hb, bind_eq_ok.2 ⟨_, ih.2 hbs, rfl⟩⟩

/-- A pass over a list succeeds if it does on each member. -/
theorem exists_mapM_eq_ok {f : α → Except ε β} {l : List α} :
    (∃ r, l.mapM f = .ok r) ↔ ∀ a ∈ l, ∃ b, f a = .ok b := by
  refine ⟨?_, ?_⟩
  · intro h
    obtain ⟨r, h⟩ := h
    have pairs := mapM_eq_ok.1 h
    clear h
    induction pairs with
    | nil => exact fun _ ha => absurd ha List.not_mem_nil
    | cons hb _ ih =>
      intro x hx
      rcases List.mem_cons.1 hx with rfl | hx
      · exact ⟨_, hb⟩
      · exact ih x hx
  · intro h
    induction l with
    | nil => exact ⟨[], rfl⟩
    | cons a l ih =>
      obtain ⟨b, hb⟩ := h a List.mem_cons_self
      obtain ⟨bs, hbs⟩ := ih fun x hx => h x (List.mem_cons_of_mem _ hx)
      exact ⟨b :: bs, mapM_eq_ok.2 (.cons hb (mapM_eq_ok.1 hbs))⟩

/-- The results of a pass are those on the members. -/
theorem mem_of_mapM_eq_ok {f : α → Except ε β} {l : List α} {r : List β} (h : l.mapM f = .ok r)
    {b : β} : b ∈ r ↔ ∃ a ∈ l, f a = .ok b := by
  have pairs := mapM_eq_ok.1 h
  clear h
  induction pairs with
  | nil => simp
  | @cons a b' l r hb _ ih =>
    have here : f a = .ok b ↔ b = b' := by rw [hb, Except.ok.injEq, eq_comm]
    rw [List.mem_cons, List.exists_mem_cons_iff, here]
    exact or_congr Iff.rfl ih

/-- What is known of each result is known of the list. -/
theorem map_of_mapM_eq_ok {γ : Type} {f : α → Except ε β} {p : α → γ} {q : β → γ} {l : List α}
    {r : List β} (h : l.mapM f = .ok r) (known : ∀ a ∈ l, ∀ b, f a = .ok b → q b = p a) :
    r.map q = l.map p := by
  have pairs := mapM_eq_ok.1 h
  clear h
  induction pairs with
  | nil => rfl
  | @cons a b l r hb _ ih =>
    rw [List.map_cons, List.map_cons, known a List.mem_cons_self b hb,
      ih fun x hx => known x (List.mem_cons_of_mem _ hx)]

/-- What a computation fails with. -/
def failure? : Except ε α → Option ε
  | .error e => some e
  | .ok _ => none

/-- A pass over a list fails as it does on the first member on which it fails. -/
theorem mapM_eq_error {f : α → Except ε β} {l : List α} {e : ε} :
    l.mapM f = .error e ↔ l.findSome? (fun a => failure? (f a)) = some e := by
  induction l with
  | nil =>
    rw [List.mapM_nil, List.findSome?_nil]
    constructor
    · intro h
      cases h
    · intro h
      cases h
  | cons a l ih =>
    rw [List.mapM_cons, List.findSome?_cons, bind_eq_error]
    cases here : f a with
    | error e' => simp [failure?]
    | ok b =>
      show _ ↔ l.findSome? _ = some e
      rw [← ih]
      simp [bind_eq_error, pure, Except.pure]

theorem failure?_eq_some {x : Except ε α} {e : ε} : failure? x = some e ↔ x = .error e := by
  cases x <;> simp [failure?]

theorem failure?_eq_none {x : Except ε α} : failure? x = none ↔ ∃ a, x = .ok a := by
  cases x <;> simp [failure?]

/-- Two computations in a row fail as the first does, or else as the second. -/
theorem failure?_both {γ : Type} {x : Except ε α} {y : Except ε β} (g : α → β → γ) :
    failure? (do let a ← x; let b ← y; pure (g a b)) = (failure? x).or (failure? y) := by
  cases x with
  | error e => rfl
  | ok a => cases y <;> rfl

/-- A pass that has failed did so on a member, and not on those ahead of it. -/
theorem exists_first_of_mapM_eq_error {f : α → Except ε β} {l : List α} {e : ε}
    (h : l.mapM f = .error e) :
    ∃ before a after, l = before ++ a :: after ∧ f a = .error e
      ∧ ∀ x ∈ before, ∃ b, f x = .ok b := by
  obtain ⟨before, a, after, split, here, earlier⟩ := List.findSome?_eq_some_iff.1 (mapM_eq_error.1 h)
  exact ⟨before, a, after, split, failure?_eq_some.1 here,
    fun x hx => failure?_eq_none.1 (earlier x hx)⟩

-- ============================================================= acceptance

/-- A computation succeeds exactly if `P` holds, and then with `a`. -/
def Accepts (x : Except ε α) (P : Prop) (a : α) : Prop := ∀ r, x = .ok r ↔ P ∧ r = a

namespace Accepts

variable {P Q : Prop} {x : Except ε α} {a : α} {b : β}

theorem ok (a : α) : Accepts (.ok a : Except ε α) True a := by
  intro r
  rw [Except.ok.injEq, eq_comm, true_and]

theorem error (e : ε) (a : α) : Accepts (.error e : Except ε α) False a := by
  intro r
  rw [false_and, iff_false]
  exact fun h => nomatch h

theorem congr (h : Accepts x P a) (same : P ↔ Q) : Accepts x Q a := by
  intro r
  rw [h r, same]

/-- A sequence accepts what both steps accept. The second step is of interest
only for what the first results in, if it is accepted. -/
theorem bind {f : α → Except ε β} (first : Accepts x P a) (rest : P → Accepts (f a) Q b) :
    Accepts (x >>= f) (P ∧ Q) b := by
  intro r
  rw [bind_eq_ok, and_assoc]
  constructor
  · intro h
    obtain ⟨a', here, there⟩ := h
    obtain ⟨p, rfl⟩ := (first a').1 here
    exact ⟨p, (rest p r).1 there⟩
  · intro h
    exact ⟨a, (first a).2 ⟨h.1, rfl⟩, (rest h.1 r).2 h.2⟩

/-- A step that only puts its result into shape accepts what it did. -/
theorem bind_ok (h : Accepts x P a) (g : α → β) : Accepts (x >>= fun a => .ok (g a)) P (g a) :=
  (h.bind fun _ => ok (g a)).congr (by rw [and_true])

theorem map (h : Accepts x P a) (g : α → β) : Accepts (g <$> x) P (g a) := by
  intro r
  rw [map_eq_ok]
  constructor
  · intro h'
    obtain ⟨a', here, rfl⟩ := h'
    obtain ⟨p, rfl⟩ := (h a').1 here
    exact ⟨p, rfl⟩
  · intro h'
    exact ⟨a, (h a).2 ⟨h'.1, rfl⟩, h'.2.symm⟩

theorem mapError (h : Accepts x P a) (g : ε → ε') : Accepts (x.mapError g) P a := by
  intro r
  rw [mapError_eq_ok]
  exact h r

theorem mapM {f : α → Except ε β} {P : α → Prop} {g : α → β} {l : List α}
    (each : ∀ a ∈ l, Accepts (f a) (P a) (g a)) :
    Accepts (l.mapM f) (∀ a ∈ l, P a) (l.map g) := by
  induction l with
  | nil =>
    exact (ok []).congr (by simp)
  | cons a l ih =>
    rw [List.mapM_cons, List.forall_mem_cons]
    refine (each a List.mem_cons_self).bind fun _ => ?_
    exact (ih fun x hx => each x (List.mem_cons_of_mem _ hx)).bind_ok _

/-- The same of a pass that is told the places. -/
theorem mapM_zipIdx {f : α × ℕ → Except ε β} {P : α → Prop} {g : α → β} {l : List α}
    (each : ∀ a i, Accepts (f (a, i)) (P a) (g a)) :
    Accepts (l.zipIdx.mapM f) (∀ a ∈ l, P a) (l.map g) := by
  have pass : Accepts (l.zipIdx.mapM f) (∀ a ∈ l.zipIdx, P a.1) (l.zipIdx.map (g ∘ Prod.fst)) :=
    mapM fun a _ => each a.1 a.2
  rw [← List.map_map, List.zipIdx_map_fst] at pass
  refine pass.congr ?_
  rw [← List.forall_mem_map (f := Prod.fst), List.zipIdx_map_fst]

/-- A run of steps accepts what each step accepts after those before it. -/
theorem foldlM {f : β → α → Except ε β} {P : β → α → Prop} {g : β → α → β}
    (each : ∀ b a, Accepts (f b a) (P b a) (g b a)) (l : List α) (b : β) :
    Accepts (l.foldlM f b) (∀ before a after, l = before ++ a :: after → P (before.foldl g b) a)
      (l.foldl g b) := by
  induction l generalizing b with
  | nil => exact (ok b).congr (by simp)
  | cons a l ih =>
    rw [List.foldlM_cons]
    refine ((each b a).bind fun _ => ih (g b a)).congr ⟨?_, fun all => ⟨?_, ?_⟩⟩
    · rintro ⟨here, later⟩ before a' after split
      cases before with
      | nil =>
        obtain ⟨rfl, -⟩ := List.cons.inj split
        exact here
      | cons _ before =>
        obtain ⟨rfl, rest⟩ := List.cons.inj split
        exact later before a' after rest
    · exact all [] a l rfl
    · exact fun before a' after split => all (a :: before) a' after (split ▸ rfl)

/-- A check ahead of a computation is one more demand. -/
theorem check {c : Prop} [Decidable c] {e : ε} (h : Accepts x P a) :
    Accepts (if c then .error e else x) (¬c ∧ P) a := by
  split
  · next refused => exact (error e a).congr (by simp [refused])
  · next allowed => exact h.congr (by simp [allowed])

/-- A test accepts what passes it. -/
theorem test {c : Prop} [Decidable c] (e : ε) (a : α) :
    Accepts (if c then .ok a else .error e) c a := by
  split
  · next passed => exact (ok a).congr (iff_of_true trivial passed)
  · next failed => exact (error e a).congr (iff_of_false not_false failed)

end Accepts

-- ================================================================ failure

/-- Whatever a computation fails with satisfies `P`. -/
def Fails (P : ε → Prop) (x : Except ε α) : Prop := ∀ e, x = .error e → P e

namespace Fails

variable {P : ε → Prop}

theorem ok (a : α) : Fails P (.ok a) := by
  intro e h
  cases h

theorem error {e : ε} (h : P e) : Fails P (.error e : Except ε α) := by
  intro _ same
  cases same
  exact h

theorem bind {x : Except ε α} {f : α → Except ε β} (first : Fails P x)
    (rest : ∀ a, Fails P (f a)) : Fails P (x >>= f) := by
  intro e h
  cases x with
  | error e' =>
    cases h
    exact first _ rfl
  | ok a => exact rest a e h

theorem mapM {f : α → Except ε β} {l : List α} (each : ∀ a ∈ l, Fails P (f a)) :
    Fails P (l.mapM f) := by
  induction l with
  | nil => exact ok []
  | cons a l ih =>
    rw [List.mapM_cons]
    refine (each a List.mem_cons_self).bind fun b => ?_
    refine Fails.bind (ih fun x hx => each x (List.mem_cons_of_mem _ hx)) fun bs => ?_
    exact ok (b :: bs)

theorem foldlM {f : β → α → Except ε β} {l : List α} (each : ∀ b, ∀ a ∈ l, Fails P (f b a))
    (b : β) : Fails P (l.foldlM f b) := by
  induction l generalizing b with
  | nil => exact ok b
  | cons a l ih =>
    rw [List.foldlM_cons]
    refine (each b a List.mem_cons_self).bind fun next => ?_
    exact ih (fun b x hx => each b x (List.mem_cons_of_mem _ hx)) next

/-- A check ahead of a computation is one more way to fail. -/
theorem check {c : Prop} [Decidable c] {e : ε} {x : Except ε α} (refused : P e)
    (h : Fails P x) : Fails P (if c then .error e else x) := by
  split
  · exact error refused
  · exact h

theorem mapError {P : ε' → Prop} {g : ε → ε'} {x : Except ε α} (h : Fails (P ∘ g) x) :
    Fails P (x.mapError g) := by
  intro e same
  cases x with
  | error e' =>
    cases same
    exact h e' rfl
  | ok a => cases same

end Fails

-- ============================================================== rewriting

theorem mapError_bind (g : ε → ε') (x : Except ε α) (f : α → Except ε β) :
    (x >>= f).mapError g = x.mapError g >>= fun a => (f a).mapError g := by
  cases x with
  | error e => rfl
  | ok a => rfl

theorem mapError_mapM (g : ε → ε') (f : α → Except ε β) (l : List α) :
    (l.mapM f).mapError g = l.mapM fun a => (f a).mapError g := by
  induction l with
  | nil => rfl
  | cons a l ih =>
    rw [List.mapM_cons, List.mapM_cons, mapError_bind, ← ih]
    refine congrArg _ (funext fun b => ?_)
    rw [mapError_bind]
    rfl

theorem mapError_mapError {ε'' : Type} (g : ε' → ε'') (h : ε → ε') (x : Except ε α) :
    (x.mapError h).mapError g = x.mapError (g ∘ h) := by
  cases x with
  | error e => rfl
  | ok a => rfl

-- ======================================================= two computations

/-- Two computations both succeed, with results that are related, or both fail,
with errors that are related. -/
inductive Corresponds (E : ε → ε' → Prop) (R : α → β → Prop) : Except ε α → Except ε' β → Prop
  | ok {a : α} {b : β} (related : R a b) : Corresponds E R (.ok a) (.ok b)
  | error {e : ε} {e' : ε'} (related : E e e') : Corresponds E R (.error e) (.error e')

namespace Corresponds

variable {α' β' : Type} {E : ε → ε' → Prop} {R : α → β → Prop} {S : α' → β' → Prop}
  {x : Except ε α} {y : Except ε' β}

theorem bind {f : α → Except ε α'} {g : β → Except ε' β'} (first : Corresponds E R x y)
    (rest : ∀ a b, R a b → Corresponds E S (f a) (g b)) : Corresponds E S (x >>= f) (y >>= g) := by
  cases first with
  | ok related => exact rest _ _ related
  | error related => exact .error related

theorem map {f : α → α'} {g : β → β'} (h : Corresponds E R x y)
    (results : ∀ a b, R a b → S (f a) (g b)) : Corresponds E S (x.map f) (y.map g) := by
  cases h with
  | ok related => exact .ok (results _ _ related)
  | error related => exact .error related

theorem mapError {δ δ' : Type} {D : δ → δ' → Prop} {f : ε → δ} {g : ε' → δ'}
    (h : Corresponds E R x y) (errors : ∀ e e', E e e' → D (f e) (g e')) :
    Corresponds D R (x.mapError f) (y.mapError g) := by
  cases h with
  | ok related => exact .ok related
  | error related => exact .error (errors _ _ related)

theorem refl {E : ε → ε → Prop} {R : α → α → Prop} (errors : ∀ e, E e e) (results : ∀ a, R a a)
    (x : Except ε α) : Corresponds E R x x := by
  cases x with
  | ok a => exact .ok (results a)
  | error e => exact .error (errors e)

theorem eq {x y : Except ε α} (h : Corresponds Eq Eq x y) : x = y := by
  cases h with
  | ok same => rw [same]
  | error same => rw [same]

end Corresponds

/-- A pass over a list in another order has its results in another order, or fails
as well, perhaps with another error. -/
theorem corresponds_mapM_perm {f : α → Except ε β} {l l' : List α} (perm : l.Perm l') :
    Corresponds (fun _ _ => True) List.Perm (l.mapM f) (l'.mapM f) := by
  have onward : ∀ {l l' : List α} {r : List β}, l'.Perm l → l.mapM f = .ok r →
      ∃ r', l'.mapM f = .ok r' ∧ r.Perm r' := by
    intro l l' r perm passed
    obtain ⟨r', pairs, same⟩ := List.perm_comp_forall₂ perm (mapM_eq_ok.1 passed)
    exact ⟨r', mapM_eq_ok.2 pairs, same.symm⟩
  cases left : l.mapM f with
  | ok r =>
    obtain ⟨r', right, same⟩ := onward perm.symm left
    rw [right]
    exact .ok same
  | error e =>
    cases right : l'.mapM f with
    | ok r' =>
      obtain ⟨r, passed, -⟩ := onward perm right
      rw [left] at passed
      cases passed
    | error e' => exact .error trivial

end PartPlan.Checked
