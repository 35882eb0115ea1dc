/-
Records read back. A record that was written from fields with distinct names is
read as those fields, the ones without a value as missing; a tagged record is
read as its form with its fields. What is read from a single field then comes
down to what is read from its value, so the law of a type is assembled from
those of its fields.
-/
import PartPlan.Json.Record
import PartPlan.Proofs.Json.Parse

namespace PartPlan.Json

-- ================================================================ members

/-- The members of a written record. -/
def membersOf (fields : List (String × Option Json)) : List (String × Json) :=
  fields.filterMap fun (name, v) => v.map fun v => (name, v)

variable {fields : List (String × Option Json)} {name : String} {v : Option Json}

theorem name_of_mem_membersOf {m : String × Json} (h : m ∈ membersOf fields) :
    m.1 ∈ fields.map Prod.fst := by
  obtain ⟨f, hf, same⟩ := List.mem_filterMap.1 h
  obtain ⟨w, -, rfl⟩ := Option.map_eq_some_iff.1 same
  exact List.mem_map_of_mem hf

theorem membersOf_cons (f : String × Option Json) (fields : List (String × Option Json)) :
    membersOf (f :: fields) = (f.2.map fun v => (f.1, v)).toList ++ membersOf fields := by
  obtain ⟨name, v⟩ := f
  cases v <;> rfl

theorem filter_membersOf (distinct : (fields.map Prod.fst).Nodup) (h : (name, v) ∈ fields) :
    (membersOf fields).filter (·.1 == name) = (v.map fun w => (name, w)).toList := by
  induction fields with
  | nil => cases h
  | cons f fields ih =>
    obtain ⟨fresh, distinct⟩ := List.nodup_cons.1 distinct
    rw [membersOf_cons, List.filter_append]
    rcases List.mem_cons.1 h with rfl | h
    · have others : (membersOf fields).filter (·.1 == name) = [] := by
        refine List.filter_eq_nil_iff.2 fun m hm => ?_
        rw [beq_iff_eq]
        rintro rfl
        exact fresh (name_of_mem_membersOf hm)
      rw [others, List.append_nil]
      cases v <;> simp
    · have other : f.1 ≠ name := fun same => fresh (same ▸ List.mem_map_of_mem (f := Prod.fst) h)
      rw [ih distinct h]
      cases f.2 <;> simp [other]

theorem sole?_membersOf (distinct : (fields.map Prod.fst).Nodup) (h : (name, v) ∈ fields) :
    sole? name (membersOf fields) = some v := by
  unfold sole?
  rw [filter_membersOf distinct h]
  cases v <;> rfl

theorem mapM_sole? (distinct : (fields.map Prod.fst).Nodup) {part : List (String × Option Json)}
    (sub : ∀ f ∈ part, f ∈ fields) :
    (part.map Prod.fst).mapM (sole? · (membersOf fields)) = some (part.map Prod.snd) := by
  induction part with
  | nil => rfl
  | cons f part ih =>
    obtain ⟨name, v⟩ := f
    rw [List.map_cons, List.mapM_cons, sole?_membersOf distinct (sub _ List.mem_cons_self),
      ih fun f hf => sub f (List.mem_cons_of_mem _ hf)]
    rfl

/-- A record is read as its fields. -/
theorem fields?_record (distinct : (fields.map Prod.fst).Nodup) :
    (record fields).fields? (fields.map Prod.fst) = some (fields.map Prod.snd) :=
  mapM_sole? distinct fun _ h => h

/-- A record with a tag among its fields is read as its form and those of its
fields that the form declares. -/
theorem taggedFields?_record {α : Type} {style : TagStyle} {forms : List (String × α)}
    {names : α → List String} {tag : String} {form : α} {part : List (String × Option Json)}
    (distinct : (fields.map Prod.fst).Nodup) (tagged : ("kind", some (.str tag)) ∈ fields)
    (known : choice? forms tag = some form) (sub : ∀ f ∈ part, f ∈ fields)
    (declared : names form = part.map Prod.fst) :
    taggedFields? style forms names (record fields) = some (form, part.map Prod.snd) := by
  have kind := sole?_membersOf distinct tagged
  have found : tag? style forms (.str tag) = some form := known
  have contents : (Body.members (membersOf fields)).fields? (names form)
      = some (part.map Prod.snd) := by
    rw [declared]
    exact mapM_sole? distinct sub
  have shape : tagged? style forms (record fields)
      = some (form, Body.members (membersOf fields)) := by
    show tagged? style forms (.obj (membersOf fields)) = _
    simp only [tagged?, kind, Option.bind_eq_bind, Option.bind_some, found]
  unfold taggedFields?
  rw [shape]
  simp only [Option.bind_eq_bind, Option.bind_some, contents]

theorem depth_map_le {α : Type} {write : α → Json} {l : List α} {n : ℕ} :
    (Json.arr (l.map write)).depth ≤ n + 1 ↔ ∀ a ∈ l, (write a).depth ≤ n := by
  rw [depth_arr_le, List.forall_mem_map]

/-- A record is as deep as the deepest of its fields, and one bracket more. -/
theorem depth_record_le {n : ℕ} :
    (record fields).depth ≤ n + 1 ↔ ∀ f ∈ fields, ∀ v ∈ f.2, v.depth ≤ n := by
  show (Json.obj (membersOf fields)).depth ≤ n + 1 ↔ _
  rw [depth_obj_le]
  induction fields with
  | nil => simp [membersOf]
  | cons f fields ih =>
    obtain ⟨name, v⟩ := f
    rw [membersOf_cons, List.forall_mem_append, ih, List.forall_mem_cons]
    cases v <;> simp

/-- What is lost of a record is lost of its fields. -/
theorem reread_record (r : Number.Rounding) {n : ℕ} (shallow : n < maxDepth)
    (fields : List (String × Option Json)) :
    (record fields).reread r n
      = record (fields.map fun f => (f.1, f.2.map (reread r (n + 1)))) := by
  show (Json.obj (membersOf fields)).reread r n = .obj (membersOf _)
  rw [reread_obj r shallow]
  refine congrArg Json.obj ?_
  induction fields with
  | nil => rfl
  | cons f fields ih =>
    obtain ⟨name, v⟩ := f
    rw [List.map_cons, membersOf_cons, membersOf_cons, List.map_append, ih]
    cases v <;> rfl

theorem fields?_reread_record (r : Number.Rounding) {n : ℕ} (shallow : n < maxDepth)
    (distinct : (fields.map Prod.fst).Nodup) :
    ((record fields).reread r n).fields? (fields.map Prod.fst)
      = some (fields.map fun f => f.2.map (reread r (n + 1))) := by
  have names : (fields.map fun f => (f.1, f.2.map (reread r (n + 1)))).map Prod.fst
      = fields.map Prod.fst := List.map_map
  have read := fields?_record (by rw [names]; exact distinct)
  rw [names, List.map_map] at read
  rw [reread_record r shallow, read]
  rfl

theorem taggedFields?_taggedRecord {α : Type} {style : TagStyle} {forms : List (String × α)}
    {names : α → List String} {tag : String} {form : α}
    (known : choice? forms tag = some form) (declared : names form = fields.map Prod.fst)
    (distinct : ("kind" :: names form).Nodup) :
    taggedFields? style forms names (taggedRecord tag fields)
      = some (form, fields.map Prod.snd) :=
  taggedFields?_record (by rw [List.map_cons, ← declared]; exact distinct) List.mem_cons_self known
    (fun _ h => List.mem_cons_of_mem _ h) declared

-- ================================================================== values

/-- A value is read as `a`, and a text can denote it. -/
structure Reads {α : Type} (read : Json → Option α) (v : Json) (a : α) : Prop where
  read : read v = some a
  textual : Textual v

-- ================================================================= fields

section Fields

variable {α : Type} {read : Json → Option α} {write : α → Json}

theorem mapM_map_of_reads {β : Type} {read : β → Option α} {write : α → β} {l : List α}
    (each : ∀ a ∈ l, read (write a) = some a) : (l.map write).mapM read = some l := by
  induction l with
  | nil => rfl
  | cons a l ih =>
    rw [List.map_cons, List.mapM_cons, each a List.mem_cons_self,
      ih fun a ha => each a (List.mem_cons_of_mem _ ha)]
    rfl

/-- Nothing in a list that is read is skipped. -/
theorem exists_of_mapM {β : Type} {f : β → Option α} {l : List β} {r : List α}
    (h : l.mapM f = some r) : ∀ b ∈ l, ∃ a, f b = some a := by
  induction l generalizing r with
  | nil => exact List.forall_mem_nil _
  | cons b l ih =>
    rw [List.mapM_cons] at h
    obtain ⟨a, here, h⟩ := Option.bind_eq_some_iff.1 h
    obtain ⟨as, later, -⟩ := Option.bind_eq_some_iff.1 h
    exact List.forall_mem_cons.2 ⟨⟨a, here⟩, ih later⟩

/-- A list is read item by item. -/
theorem list?_map {l : List α} (each : ∀ a ∈ l, read (write a) = some a) :
    list? read (.arr (l.map write)) = some l := mapM_map_of_reads each

/-- A field that may be missing is read if `null` cannot stand for it. -/
theorem optional_map (null : read .null = none) {o : Option α}
    (each : ∀ a ∈ o, read (write a) = some a) : optional read (o.map write) = some o := by
  cases o with
  | none => rfl
  | some a =>
    have value := each a rfl
    unfold optional
    split
    · next missing => cases missing
    · next isNull =>
      rw [Option.map_some, Option.some.injEq] at isNull
      rw [isNull, null] at value
      cases value
    · next w _ same =>
      rw [Option.map_some, Option.some.injEq] at same
      rw [← same, value]
      rfl

theorem defaulted_nonEmpty {l : List α} (each : ∀ a ∈ l, read (write a) = some a) :
    defaulted [] (list? read) (nonEmpty (l.map write)) = some l := by
  cases l with
  | nil => rfl
  | cons a l => exact list?_map each

end Fields

-- =================================================================== text

theorem textual_record (each : ∀ f ∈ fields, ∀ v ∈ f.2, Textual v) : Textual (record fields) := by
  refine .obj fun m hm => ?_
  obtain ⟨f, hf, same⟩ := List.mem_filterMap.1 hm
  obtain ⟨v, hv, rfl⟩ := Option.map_eq_some_iff.1 same
  exact each f hf v hv

theorem textual_taggedRecord {tag : String} (each : ∀ f ∈ fields, ∀ v ∈ f.2, Textual v) :
    Textual (taggedRecord tag fields) := by
  refine textual_record fun f hf v hv => ?_
  rcases List.mem_cons.1 hf with rfl | hf
  · cases hv
    exact .str tag
  · exact each f hf v hv

theorem textual_map {α : Type} {write : α → Json} {l : List α}
    (each : ∀ a ∈ l, Textual (write a)) : Textual (.arr (l.map write)) := by
  refine .arr fun v hv => ?_
  obtain ⟨a, ha, rfl⟩ := List.mem_map.1 hv
  exact each a ha

theorem textual_nonEmpty {l : List Json} (each : ∀ v ∈ l, Textual v) :
    ∀ v ∈ nonEmpty l, Textual v := by
  intro v hv
  unfold nonEmpty at hv
  split at hv
  · cases hv
  · cases hv
    exact .arr each

end PartPlan.Json
