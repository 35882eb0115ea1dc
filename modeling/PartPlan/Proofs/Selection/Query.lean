/-
What a query stands for, said without the order in which anything is tested. A
predicate asks for a field of some type (`Predicate.field`, `Predicate.fieldType`), and
a selection lacks that field or it satisfies the predicate or not. The order of the
predicates matters in one respect: a field that is lacking is only noticed if the
predicates ahead are satisfied (`Blocks`). If no selection of the kind is blocked, the
candidates are those that satisfy every predicate, and otherwise the first selection
that is blocked tells the error.

Ranking narrows the candidates, and what is left of them is never nothing. One selection
is then asked for on top of that (`Selector.resolve_cases`), which adds one way to fail.
-/
import PartPlan.Proofs.Selection.Ranking

namespace PartPlan

-- ============================================================ predicates

/-- A direction is read from its literal, blanks around it aside. -/
theorem Direction.ofLiteral?_eq_some {text : String} {d : Direction} :
    ofLiteral? text = some d ↔ Text.trim text = d.literal := by
  constructor
  · intro found
    have matched := List.find?_some found
    exact (beq_iff_eq.1 matched).symm
  · intro same
    unfold ofLiteral?
    rw [same]
    cases d <;> decide

/-- What is made of a field can be made of it at once. -/
theorem Selection.require_map {α β : Type} {x : Selection} (key : String) (t : MetaType)
    (narrow : MetaValue → Option α) (g : α → β) :
    (x.require key t narrow >>= fun a => .ok (g a))
      = x.require key t fun v => (narrow v).map g := by
  unfold Selection.require
  cases x.metadata.find? key with
  | none => rfl
  | some v =>
    rw [Option.bind_some, Option.bind_some]
    cases narrow v <;> rfl

namespace Predicate

/-- The key of the metadata that a predicate asks for. -/
def field : Predicate → MetaKey
  | planar => .planar
  | normal _ => .normal
  | createdBy _ => .createdBy
  | role _ => .role

/-- The type that the metadata has to be of. -/
def fieldType : Predicate → MetaType
  | planar => .bool
  | normal _ | createdBy _ | role _ => .text

/-- What a predicate wants the metadata to be. -/
def admits : Predicate → MetaValue → Bool
  | planar, .bool b => b
  | normal d, .text text => Text.trim text == d.literal
  | createdBy feature, .text text => text == feature
  | role value, .text text => text == value
  | _, _ => false

/-- The metadata of a selection that a predicate asks for. -/
def fieldOf (p : Predicate) (x : Selection) : Option MetaValue := x.metadata.find? p.field.name

/-- The metadata is there and as the predicate wants it to be. -/
def satisfied (p : Predicate) (x : Selection) : Bool := (p.fieldOf x).any p.admits

/-- The metadata is missing or of another type. -/
def Lacks (p : Predicate) (x : Selection) : Prop :=
  (p.fieldOf x).map MetaValue.type ≠ some p.fieldType

instance (p : Predicate) (x : Selection) : Decidable (p.Lacks x) :=
  inferInstanceAs (Decidable (_ ≠ _))

/-- What is reported of metadata that a selection lacks. -/
def lacking (p : Predicate) (x : Selection) : MetaMissing :=
  ⟨x.id, p.field.name, p.fieldType, (p.fieldOf x).map MetaValue.type⟩

variable {p : Predicate} {x : Selection}

theorem not_lacks_of_satisfied (h : p.satisfied x = true) : ¬ p.Lacks x := by
  rw [satisfied, Option.any_eq_true] at h
  obtain ⟨v, found, admitted⟩ := h
  rw [Lacks, found, not_not]
  cases p <;> cases v <;> first | rfl | cases admitted

/-- What a predicate makes of a piece of metadata, if it is of the right type. -/
def verdict? (p : Predicate) (v : MetaValue) : Option Bool :=
  if v.type = p.fieldType then some (p.admits v) else none

/-- A predicate asks for its field and judges what it finds. -/
theorem holds_eq_require : p.holds x = x.require p.field.name p.fieldType p.verdict? := by
  cases p with
  | planar =>
    have same : MetaValue.bool? = planar.verdict? := funext fun v => by cases v <;> rfl
    rw [holds, Selection.requireBool, same]
    rfl
  | normal d =>
    refine (Selection.require_map _ _ _ _).trans (congrArg _ (funext fun v => ?_))
    cases v with
    | text t =>
      refine congrArg some ?_
      rw [Bool.eq_iff_iff, beq_iff_eq, Direction.ofLiteral?_eq_some]
      exact beq_iff_eq.symm
    | bool _ | number _ | vec3 _ => rfl
  | createdBy feature =>
    exact (Selection.require_map _ _ _ _).trans (congrArg _ (funext fun v => by cases v <;> rfl))
  | role value =>
    exact (Selection.require_map _ _ _ _).trans (congrArg _ (funext fun v => by cases v <;> rfl))

theorem holds_of_lacks (h : p.Lacks x) : p.holds x = .error (p.lacking x) := by
  have nothing : (x.metadata.find? p.field.name).bind p.verdict? = none := by
    unfold Lacks fieldOf at h
    cases found : x.metadata.find? p.field.name with
    | none => rfl
    | some v =>
      rw [found] at h
      exact if_neg fun same => h (congrArg some same)
  rw [holds_eq_require, Selection.require, nothing]
  rfl

theorem holds_of_not_lacks (h : ¬ p.Lacks x) : p.holds x = .ok (p.satisfied x) := by
  rw [Lacks, not_not, Option.map_eq_some_iff] at h
  obtain ⟨v, found, typed⟩ := h
  rw [holds_eq_require, Selection.require_eq_ok, satisfied, found]
  show ((p.fieldOf x).bind p.verdict?) = _
  rw [found]
  exact if_pos typed

end Predicate

/-- A predicate is the first that a selection does not satisfy, and that is because the
selection lacks what the predicate asks for. -/
def Blocks (ps : List Predicate) (x : Selection) (p : Predicate) : Prop :=
  ∃ before after, ps = before ++ p :: after ∧ (∀ q ∈ before, q.satisfied x = true) ∧ p.Lacks x

variable {ps : List Predicate} {p : Predicate} {x : Selection} {cs : List Selection}

theorem not_blocks_nil : ¬ Blocks [] x p := by
  rintro ⟨before, after, empty, -⟩
  exact absurd empty.symm (List.append_ne_nil_of_right_ne_nil _ (List.cons_ne_nil _ _))

/-- The first predicate is lacked, or is satisfied and one of the others is the one. -/
theorem blocks_cons {q : Predicate} :
    Blocks (q :: ps) x p ↔ p = q ∧ q.Lacks x ∨ q.satisfied x = true ∧ Blocks ps x p := by
  constructor
  · rintro ⟨before, after, same, satisfied, lacks⟩
    cases before with
    | nil =>
      obtain ⟨rfl, -⟩ := List.cons.inj same
      exact .inl ⟨rfl, lacks⟩
    | cons r before =>
      obtain ⟨rfl, rfl⟩ := List.cons.inj same
      obtain ⟨here, later⟩ := List.forall_mem_cons.1 satisfied
      exact .inr ⟨here, before, after, rfl, later, lacks⟩
  · rintro (⟨rfl, lacks⟩ | ⟨here, before, after, rfl, later, lacks⟩)
    · exact ⟨[], ps, rfl, fun _ h => absurd h List.not_mem_nil, lacks⟩
    · exact ⟨q :: before, after, rfl, List.forall_mem_cons.2 ⟨here, later⟩, lacks⟩

/-- The predicates are tested from the left, up to the one that blocks. -/
theorem allHold_of_blocks (h : Blocks ps x p) : allHold x ps = .error (p.lacking x) := by
  induction ps with
  | nil => exact absurd h not_blocks_nil
  | cons q ps ih =>
    rcases blocks_cons.1 h with ⟨rfl, lacks⟩ | ⟨satisfied, later⟩
    · rw [allHold, Predicate.holds_of_lacks lacks]
      rfl
    · rw [allHold, Predicate.holds_of_not_lacks (Predicate.not_lacks_of_satisfied satisfied),
        satisfied]
      exact ih later

theorem allHold_of_clear (clear : ∀ p, ¬ Blocks ps x p) :
    allHold x ps = .ok (ps.all (·.satisfied x)) := by
  induction ps with
  | nil => rfl
  | cons q ps ih =>
    have known : ¬ q.Lacks x := fun lacks => clear q (blocks_cons.2 (.inl ⟨rfl, lacks⟩))
    rw [allHold, Predicate.holds_of_not_lacks known, List.all_cons]
    cases here : q.satisfied x with
    | false => rfl
    | true => exact ih fun p blocked => clear p (blocks_cons.2 (.inr ⟨here, blocked⟩))

/-- The first selection that is blocked tells the error. -/
theorem satisfying_of_blocks {before after : List Selection}
    (clear : ∀ y ∈ before, ∀ q, ¬ Blocks ps y q) (h : Blocks ps x p) :
    satisfying ps (before ++ x :: after) = .error (p.lacking x) := by
  induction before with
  | nil =>
    rw [List.nil_append, satisfying, allHold_of_blocks h]
    rfl
  | cons y before ih =>
    obtain ⟨here, later⟩ := List.forall_mem_cons.1 clear
    rw [List.cons_append, satisfying, allHold_of_clear here, ih later]
    rfl

theorem satisfying_of_clear (clear : ∀ x ∈ cs, ∀ p, ¬ Blocks ps x p) :
    satisfying ps cs = .ok (cs.filter fun x => ps.all (·.satisfied x)) := by
  induction cs with
  | nil => rfl
  | cons x cs ih =>
    obtain ⟨here, later⟩ := List.forall_mem_cons.1 clear
    rw [satisfying, allHold_of_clear here, ih later, List.filter_cons]
    rfl

/-- If some selection is blocked, there is a first one. -/
theorem exists_first_blocked (h : ¬ ∀ x ∈ cs, ∀ p, ¬ Blocks ps x p) :
    ∃ before x after p, cs = before ++ x :: after ∧ (∀ y ∈ before, ∀ q, ¬ Blocks ps y q)
      ∧ Blocks ps x p := by
  induction cs with
  | nil => exact absurd (fun _ hx => absurd hx List.not_mem_nil) h
  | cons x cs ih =>
    by_cases here : ∀ p, ¬ Blocks ps x p
    · obtain ⟨before, y, after, p, rfl, clear, blocked⟩ := ih fun later =>
        h (List.forall_mem_cons.2 ⟨here, later⟩)
      exact ⟨x :: before, y, after, p, rfl, List.forall_mem_cons.2 ⟨here, clear⟩, blocked⟩
    · obtain ⟨p, blocked⟩ := not_forall_not.1 here
      exact ⟨[], x, cs, p, rfl, fun _ hy => absurd hy List.not_mem_nil, blocked⟩

-- ================================================================= queries

/-- The selections of a kind that satisfy every predicate. -/
def ResolutionContext.candidates (c : ResolutionContext) (kind : SelectionKind)
    (ps : List Predicate) : List Selection :=
  (c.selections.filter (·.kind == kind)).filter fun x => ps.all (·.satisfied x)

namespace Selector

variable {c : ResolutionContext} {kind : SelectionKind} {rs : List RankRule}

/-- A query ranks its candidates, and both before and after it has to have some. -/
theorem query_of_clear
    (clear : ∀ x ∈ c.selections.filter (·.kind == kind), ∀ p, ¬ Blocks ps x p) :
    (query kind ps rs).resolveAll c
      = if c.candidates kind ps = [] then .error (.empty (query kind ps rs).description kind)
        else rankBy c rs (c.candidates kind ps) >>= fun kept =>
          if kept = [] then .error (.emptyAfterRank (query kind ps rs).description)
          else .ok kept := by
  rw [resolveAll, satisfying_of_clear clear]
  show (if (c.candidates kind ps).isEmpty then throw _ else _ : Except SelectorError _) = _
  simp only [List.isEmpty_iff]
  rfl

/-- A query whose predicates are blocked somewhere fails with what is lacking first. -/
theorem query_of_blocks {before after : List Selection}
    (all : c.selections.filter (·.kind == kind) = before ++ x :: after)
    (clear : ∀ y ∈ before, ∀ q, ¬ Blocks ps y q) (h : Blocks ps x p) :
    (query kind ps rs).resolveAll c = .error (.metaMissing (p.lacking x)) := by
  rw [resolveAll, all, satisfying_of_blocks clear h]
  rfl

/-- A query that succeeds was not blocked anywhere. -/
theorem clear_of_query {found : List Selection}
    (h : (query kind ps rs).resolveAll c = .ok found) :
    ∀ x ∈ c.selections.filter (·.kind == kind), ∀ p, ¬ Blocks ps x p := by
  by_contra blocked
  obtain ⟨before, x, after, p, all, clear, here⟩ := exists_first_blocked blocked
  rw [query_of_blocks all clear here] at h
  cases h

/-- What a query stands for is some of its candidates, and not none of them. -/
theorem query_eq_ok {found : List Selection}
    (h : (query kind ps rs).resolveAll c = .ok found) :
    found ≠ [] ∧ found.Sublist (c.candidates kind ps) := by
  rw [query_of_clear (clear_of_query h)] at h
  split at h
  · cases h
  · obtain ⟨kept, ranked, h⟩ := Checked.bind_eq_ok.1 h
    split at h
    · cases h
    · next some_left =>
      cases h
      exact ⟨some_left, rankBy_sublist ranked⟩

/-- One selection is what a list of one holds. Of several the list is reported. -/
theorem resolve_cases (c : ResolutionContext) (s : Selector) :
    (∃ e, s.resolveAll c = .error e ∧ s.resolve c = .error e)
      ∨ (∃ x, s.resolveAll c = .ok [x] ∧ s.resolve c = .ok x)
      ∨ ∃ found, s.resolveAll c = .ok found ∧ 2 ≤ found.length
        ∧ s.resolve c = .error (.ambiguous s.description (found.map Selection.id)) := by
  have inSteps : s.resolve c = s.resolveAll c >>= exactlyOne s := rfl
  rw [inSteps]
  cases all : s.resolveAll c with
  | error e => exact .inl ⟨e, rfl, rfl⟩
  | ok found =>
    match found with
    | [] =>
      exfalso
      cases s with
      | query kind ps rs => exact (query_eq_ok all).1 rfl
      | named name =>
        rw [resolveAll] at all
        split at all
        · cases all
        · cases all
    | [x] => exact .inr (.inl ⟨x, rfl, rfl⟩)
    | x :: y :: rest => exact .inr (.inr ⟨_, rfl, by simp, rfl⟩)

theorem resolve_of_error {s : Selector} {e : SelectorError} (failed : s.resolveAll c = .error e) :
    s.resolve c = .error e := by
  rw [resolve, failed]
  rfl

theorem resolve_eq_ok {s : Selector} : s.resolve c = .ok x ↔ s.resolveAll c = .ok [x] := by
  rcases resolve_cases c s with ⟨e, all, one⟩ | ⟨y, all, one⟩ | ⟨found, all, several, one⟩
  · rw [all, one]
    simp
  · rw [all, one]
    simp
  · rw [all, one]
    constructor
    · intro h
      cases h
    · intro h
      cases h
      exact absurd several (by simp)

/-- A selector is ambiguous if it stands for several selections, and if the list of
what it stands for already is. -/
theorem resolve_ambiguous {s : Selector} {selector : String} {ids : List String} :
    s.resolve c = .error (.ambiguous selector ids)
      ↔ (∃ found, s.resolveAll c = .ok found ∧ 2 ≤ found.length
          ∧ selector = s.description ∧ ids = found.map Selection.id)
        ∨ s.resolveAll c = .error (.ambiguous selector ids) := by
  rcases resolve_cases c s with ⟨e, all, one⟩ | ⟨y, all, one⟩ | ⟨found, all, several, one⟩
  · rw [all, one]
    simp
  · rw [all, one]
    constructor
    · intro h
      cases h
    · rintro (⟨found, h, several, -⟩ | h)
      · cases h
        exact absurd several (by simp)
      · cases h
  · rw [all, one]
    constructor
    · intro h
      cases h
      exact .inl ⟨found, rfl, several, rfl, rfl⟩
    · rintro (⟨_, h, -, rfl, rfl⟩ | h)
      · cases h
        rfl
      · cases h

end Selector

/-- Ranking is ambiguous only by the target of one of its rules. -/
theorem rankBy_ambiguous {c : ResolutionContext} {rs : List RankRule} {cs : List Selection}
    {selector : String} {ids : List String}
    (h : rankBy c rs cs = .error (.ambiguous selector ids)) :
    ∃ target, .closestTo target ∈ rs ∧ target.resolve c = .error (.ambiguous selector ids) := by
  induction rs generalizing cs with
  | nil =>
    rw [rankBy] at h
    cases h
  | cons r rs ih =>
    by_cases few : cs.length ≤ 1
    · rw [rankBy_of_le _ few] at h
      cases h
    · rw [rankBy_cons few] at h
      rcases Checked.bind_eq_error.1 h with here | ⟨sc, -, h⟩
      · cases r with
        | maxArea | minZ | maxZ =>
          rw [RankRule.prepare] at here
          cases here
        | closestTo target =>
          rw [prepare_closestTo] at here
          rcases Checked.bind_eq_error.1 here with reported | ⟨reference, -, here⟩
          · exact ⟨target, List.mem_cons_self, reported⟩
          · rcases Checked.bind_eq_error.1 here with here | ⟨center, -, here⟩
            · obtain ⟨e, -, same⟩ := Checked.mapError_eq_error.1 here
              cases same
            · cases here
      · rcases Checked.bind_eq_error.1 h with here | ⟨narrowed, -, later⟩
        · obtain ⟨e, -, same⟩ := Checked.mapError_eq_error.1 here
          cases same
        · obtain ⟨target, rule, reported⟩ := ih later
          exact ⟨target, List.mem_cons_of_mem _ rule, reported⟩

/-- A selector that is ambiguous as a whole holds one that is ambiguous where one
selection is needed. -/
theorem Selector.resolveAll_ambiguous {c : ResolutionContext} {s : Selector} {selector : String}
    {ids : List String} (h : s.resolveAll c = .error (.ambiguous selector ids)) :
    ∃ kind ps rs target, s = .query kind ps rs ∧ .closestTo target ∈ rs
      ∧ target.resolve c = .error (.ambiguous selector ids) := by
  cases s with
  | named name =>
    rw [resolveAll] at h
    split at h
    · cases h
    · cases h
  | query kind ps rs =>
    by_cases clear : ∀ x ∈ c.selections.filter (·.kind == kind), ∀ p, ¬ Blocks ps x p
    · rw [query_of_clear clear] at h
      split at h
      · cases h
      · rcases Checked.bind_eq_error.1 h with h | ⟨kept, -, h⟩
        · obtain ⟨target, rule, reported⟩ := rankBy_ambiguous h
          exact ⟨kind, ps, rs, target, rfl, rule, reported⟩
        · split at h
          · cases h
          · cases h
    · obtain ⟨before, x, after, p, all, clear, here⟩ := exists_first_blocked clear
      rw [query_of_blocks all clear here] at h
      cases h

/-- A query fails with what is lacking in the first selection that is blocked. If none
is, it has no candidates, or stands for all of them, or for those that ranking leaves.
And one selection is what the list holds if it holds one; if it holds several, the
selector is ambiguous; and any failure of the list is passed on. Among those is that the
target of a rule was ambiguous, so an ambiguous selector need not stand for several
selections. -/
theorem Selector.query_resolution (c : ResolutionContext) :
    (∀ kind ps rs,
      (∀ before x after p, c.selections.filter (·.kind == kind) = before ++ x :: after →
        (∀ y ∈ before, ∀ q, ¬ Blocks ps y q) → Blocks ps x p →
        (query kind ps rs).resolveAll c = .error (.metaMissing (p.lacking x)))
      ∧ ((∀ x ∈ c.selections.filter (·.kind == kind), ∀ p, ¬ Blocks ps x p) →
        (c.candidates kind ps = [] →
          (query kind ps rs).resolveAll c
            = .error (.empty (query kind ps rs).description kind))
        ∧ (c.candidates kind ps ≠ [] →
          (rs = [] → (query kind ps rs).resolveAll c = .ok (c.candidates kind ps))
          ∧ (rs ≠ [] → (query kind ps rs).resolveAll c
            = rankBy c rs (c.candidates kind ps) >>= fun kept =>
              if kept = [] then .error (.emptyAfterRank (query kind ps rs).description)
              else .ok kept)))
      ∧ ∀ found, (query kind ps rs).resolveAll c = .ok found →
        found ≠ [] ∧ found.Sublist (c.candidates kind ps))
    ∧ ∀ s : Selector,
      (∀ x, s.resolve c = .ok x ↔ s.resolveAll c = .ok [x])
      ∧ (∀ selector ids, s.resolve c = .error (.ambiguous selector ids)
        ↔ (∃ found, s.resolveAll c = .ok found ∧ 2 ≤ found.length
            ∧ selector = s.description ∧ ids = found.map Selection.id)
          ∨ s.resolveAll c = .error (.ambiguous selector ids))
      ∧ (∀ e, s.resolveAll c = .error e → s.resolve c = .error e)
      ∧ ∀ selector ids, s.resolveAll c = .error (.ambiguous selector ids) →
        ∃ kind ps rs target, s = query kind ps rs ∧ .closestTo target ∈ rs
          ∧ target.resolve c = .error (.ambiguous selector ids) := by
  refine ⟨fun kind ps rs => ⟨fun before x after p => query_of_blocks, fun clear => ?_,
    fun found => query_eq_ok⟩, fun s => ⟨fun x => resolve_eq_ok,
    fun selector ids => resolve_ambiguous, fun e => resolve_of_error, fun selector ids => resolveAll_ambiguous⟩⟩
  rw [query_of_clear clear]
  refine ⟨fun none => if_pos none, fun several => ?_⟩
  rw [if_neg several]
  refine ⟨fun unranked => ?_, fun _ => rfl⟩
  rw [unranked, rankBy]
  exact if_neg several

/-- Two faces and two edges of which nothing is known. -/
def bareFacesAndEdges : ResolutionContext :=
  .ofSelections [.bare "left" .face, .bare "right" .face, .bare "front" .edge,
    .bare "back" .edge]

/-- The face nearest to an edge, whichever edge that is. -/
def nearestToAnEdge : Selector := .query .face [] [.closestTo (.query .edge [] [])]

/-- The face cannot be told because the edge cannot. Then the selector is ambiguous, and
the list of what it stands for is no list of several selections. -/
theorem nearestToAnEdge_ambiguous :
    nearestToAnEdge.resolve bareFacesAndEdges
        = .error (.ambiguous "selector.edge(0p, 0r)" ["front", "back"])
      ∧ nearestToAnEdge.resolveAll bareFacesAndEdges
        = .error (.ambiguous "selector.edge(0p, 0r)" ["front", "back"])
      ∧ ¬ ((∃ selector ids, nearestToAnEdge.resolve bareFacesAndEdges
            = .error (.ambiguous selector ids))
          ↔ ∃ found, nearestToAnEdge.resolveAll bareFacesAndEdges = .ok found
            ∧ 2 ≤ found.length) := by
  have all : nearestToAnEdge.resolveAll bareFacesAndEdges
      = .error (.ambiguous "selector.edge(0p, 0r)" ["front", "back"]) := rfl
  have one := Selector.resolve_of_error all
  refine ⟨one, all, fun same => ?_⟩
  obtain ⟨found, several, -⟩ := same.1 ⟨_, _, one⟩
  rw [all] at several
  cases several

/-- A flat face that a feature has created. -/
def flatFace (id creator : String) : Selection :=
  ⟨id, .face, .ofList [(MetaKey.createdBy.name, .text creator),
    (MetaKey.planar.name, .bool true)]⟩

/-- The two faces of a lid, and between them one of a base of which not even that it is
flat is known. -/
def twoFacedLid : ResolutionContext :=
  .ofSelections [flatFace "inner" "lid",
    (Selection.bare "base" .face).withMeta MetaKey.createdBy.name (.text "base"),
    flatFace "outer" "lid"]

/-- Who created the faces has to be asked first. -/
theorem twoFacedLid_queries :
    (Selector.query .face [.createdBy "lid", .planar] []).resolveAll twoFacedLid
        = .ok [flatFace "inner" "lid", flatFace "outer" "lid"]
      ∧ (Selector.query .face [.createdBy "lid", .planar] []).resolve twoFacedLid
        = .error (.ambiguous "selector.face(2p, 0r)" ["inner", "outer"])
      ∧ (Selector.query .face [.planar, .createdBy "lid"] []).resolveAll twoFacedLid
        = .error (.metaMissing ⟨"base", "planar", .bool, none⟩) := by
  have clear : ∀ x ∈ twoFacedLid.selections.filter (·.kind == .face), ∀ p,
      ¬ Blocks [.createdBy "lid", .planar] x p := by
    have creators : ∀ x ∈ twoFacedLid.selections.filter (·.kind == .face),
        ¬ (Predicate.createdBy "lid").Lacks x
          ∧ ((Predicate.createdBy "lid").satisfied x = true → ¬ Predicate.planar.Lacks x) := by
      decide +kernel
    intro x hx p blocked
    obtain ⟨known, flat⟩ := creators x hx
    rcases blocks_cons.1 blocked with ⟨rfl, lacks⟩ | ⟨created, blocked⟩
    · exact known lacks
    · rcases blocks_cons.1 blocked with ⟨rfl, lacks⟩ | ⟨-, blocked⟩
      · exact flat created lacks
      · exact not_blocks_nil blocked
  obtain ⟨queries, selectors⟩ := Selector.query_resolution twoFacedLid
  have both : (Selector.query .face [.createdBy "lid", .planar] []).resolveAll twoFacedLid
      = .ok [flatFace "inner" "lid", flatFace "outer" "lid"] := by
    have all := ((queries .face [.createdBy "lid", .planar] []).2.1 clear).2 (by decide +kernel)
    rw [all.1 rfl]
    refine congrArg Except.ok ?_
    decide +kernel
  refine ⟨both, ?_, ?_⟩
  · exact ((selectors _).2.1 _ _).2
      (.inl ⟨_, both, by decide, by decide +kernel, by decide +kernel⟩)
  · refine (queries .face [.planar, .createdBy "lid"] []).1 [flatFace "inner" "lid"] _ _ .planar
      rfl ?_ ?_
    · rintro y hy q ⟨before, after, same, -, lacks⟩
      have known : ∀ y ∈ [flatFace "inner" "lid"], ∀ q ∈ [.planar, .createdBy "lid"],
          ¬ Predicate.Lacks q y := by decide +kernel
      exact known y hy q (same ▸ List.mem_append_right _ List.mem_cons_self) lacks
    · exact ⟨[], _, rfl, fun _ h => absurd h List.not_mem_nil, by decide +kernel⟩

end PartPlan
