/-
Readers and writers that agree. A reader and a writer agree if whatever is read
from a value that a text can denote is read again from what is written of it,
and a text can denote that as well. A field of a record may be missing, so for
its reader and its writer the same is said of a value that may be there.

Agreement is carried along by everything that puts readers together: lists, maps
and records, and fields that are required, optional or have a default. Nothing
here looks at what a value means.
-/
import PartPlan.Proofs.Json.Origin

namespace PartPlan

-- =================================================================== maps

/-- The bindings of a map that is written as a list stand in the list. -/
theorem SortedMap.mem_of_mem_ofList {α : Type} {l : List (String × α)} {p : String × α}
    (h : p ∈ (ofList l).entries) : p ∈ l := by
  obtain ⟨k, a⟩ := p
  rw [mem_entries, find?_ofList] at h
  obtain ⟨q, found, rfl⟩ := Option.map_eq_some_iff.1 h
  obtain rfl : q.1 = k := by simpa using List.find?_some found
  exact List.mem_reverse.1 (List.mem_of_find?_eq_some found)

namespace Json

variable {α β γ δ : Type} {read : Json → Option α} {write : α → Json}

-- ================================================================= values

theorem of_whole? {v w : Json} (h : v.whole? = some w) : v.readable = true ∧ v = w := by
  unfold whole? at h
  split at h
  · next readable => exact ⟨readable, Option.some.inj h⟩
  · cases h

theorem Textual.whole? {v : Json} (h : Textual v) : v.whole? = some v := if_pos h.readable

/-- A reader may ask for a value that is readable in all its parts. -/
theorem Reads.whole? {v : Json} {a : α} (h : Reads read v a) :
    Reads (fun v => v.whole?.bind read) v a := by
  refine ⟨?_, h.textual⟩
  show v.whole?.bind read = _
  rw [h.textual.whole?, Option.bind_some, h.read]

theorem Grants.whole? {P : α → Prop} (h : Grants read P) :
    Grants (fun v => v.whole?.bind read) P := by
  intro v a sound given
  obtain ⟨w, whole, given⟩ := Option.bind_eq_some_iff.1 given
  obtain ⟨-, rfl⟩ := of_whole? whole
  exact h v a sound given

/-- A map that is written is read with its values, its keys kept in order. -/
theorem map?_ofMap {m : SortedMap α} (each : ∀ p ∈ m.entries, read (write p.2) = some p.2) :
    map? read (ofMap write m) = some m := by
  show SortedMap.ofList <$> List.mapM _ (List.map _ m.entries) = _
  rw [mapM_map_of_reads, Option.map_eq_map, Option.map_some, SortedMap.ofList_entries]
  intro p hp
  show (read (write p.2)).map _ = _
  rw [each p hp]
  rfl

theorem textual_ofMap {m : SortedMap α} (each : ∀ p ∈ m.entries, Textual (write p.2)) :
    Textual (ofMap write m) := by
  refine .obj fun n hn => ?_
  obtain ⟨p, hp, rfl⟩ := List.mem_map.1 hn
  exact each p hp

/-- What is read from what a text can denote is read again from what is written
of it. -/
def RoundTrips (read : Json → Option α) (write : α → Json) : Prop :=
  Grants read fun a => Reads read (write a) a

namespace RoundTrips

/-- What is granted of all results is enough to read them again. -/
theorem of_grants {P : α → Prop} (granted : Grants read P)
    (reads : ∀ a, P a → Reads read (write a) a) : RoundTrips read write :=
  fun v a sound given => reads a (granted v a sound given)

theorem of_reads (reads : ∀ a, Reads read (write a) a) : RoundTrips read write :=
  fun _ a _ _ => reads a

theorem text? : RoundTrips Json.text? .str := of_reads fun s => ⟨rfl, .str s⟩

theorem bool? : RoundTrips Json.bool? .bool := of_reads fun b => ⟨rfl, .bool b⟩

theorem float? : RoundTrips Json.float? .ofFloat := by
  intro v x sound given
  refine ⟨?_, .ofFloat x⟩
  rw [ofFloat, if_pos (sound.isFinite_of_float? given)]
  rfl

theorem whole? (h : RoundTrips read write) :
    RoundTrips (fun v => v.whole?.bind read) write :=
  fun v a sound given => (Grants.whole? h v a sound given).whole?

theorem list? (h : RoundTrips read write) :
    RoundTrips (Json.list? read) fun l => .arr (l.map write) := by
  intro v l sound given
  have each := Grants.list? h v l sound given
  exact ⟨list?_map fun a ha => (each a ha).read, textual_map fun a ha => (each a ha).textual⟩

/-- The values of a map are read one by one, and its keys are kept in order. -/
theorem map? (h : RoundTrips read write) : RoundTrips (Json.map? read) (ofMap write) := by
  intro v m sound given
  unfold Json.map? at given
  split at given
  case h_2 => cases given
  next ms =>
  obtain ⟨l, pairs, rfl⟩ := Option.map_eq_some_iff.1 given
  have each : ∀ p ∈ (SortedMap.ofList l).entries, Reads read (write p.2) p.2 := by
    intro p hp
    obtain ⟨⟨k, v⟩, hv, pair⟩ := exists_of_mem_mapM pairs (SortedMap.mem_of_mem_ofList hp)
    obtain ⟨a, value, rfl⟩ := Option.map_eq_some_iff.1 pair
    exact h v a (sound.of_members (k, v) hv) value
  exact ⟨map?_ofMap fun p hp => (each p hp).read, textual_ofMap fun p hp => (each p hp).textual⟩

end RoundTrips

-- ================================================================= fields

/-- A field is read as `a`, and a text can denote it. -/
structure FieldReads (read : Option Json → Option α) (f : Option Json) (a : α) : Prop where
  read : read f = some a
  textual : ∀ w ∈ f, Textual w

/-- What is read from a field that a text can denote is read again from the field
that is written of it. -/
def FieldRoundTrips (read : Option Json → Option α) (write : α → Option Json) : Prop :=
  ∀ f a, (∀ w ∈ f, Sound w) → read f = some a → FieldReads read (write a) a

theorem FieldReads.of_reads {read : Option Json → Option α} {v : Json} {a : α}
    (h : Reads (fun v => read (some v)) v a) : FieldReads read (some v) a := by
  refine ⟨h.read, fun w hw => ?_⟩
  cases hw
  exact h.textual

namespace FieldRoundTrips

theorem required (h : RoundTrips read write) :
    FieldRoundTrips (required read) fun a => some (write a) := by
  intro f a sound given
  have reads := Grants.required (P := fun b => Reads read (write b) b) h sound given
  exact .of_reads reads

/-- An optional field can be left out if nothing but `null` makes it `null`. -/
theorem optional (h : RoundTrips read write)
    (solid : ∀ v a, read v = some a → write a = .null → v = .null) :
    FieldRoundTrips (optional read) fun o => o.map write := by
  intro f o sound given
  unfold Json.optional at given
  split at given
  · cases given
    exact ⟨rfl, fun w hw => nomatch hw⟩
  · cases given
    exact ⟨rfl, fun w hw => nomatch hw⟩
  · next v other =>
    obtain ⟨a, value, rfl⟩ := Option.map_eq_some_iff.1 given
    have reads := h v a (sound v rfl) value
    refine .of_reads ⟨?_, reads.textual⟩
    show Json.optional read (some (write a)) = _
    unfold Json.optional
    split
    · next missing => cases missing
    · next isNull => exact absurd (solid v a value (Option.some.inj isNull)) other
    · next w _ same =>
      cases same
      rw [reads.read]
      rfl

/-- A field with a default is always written. -/
theorem defaulted (h : RoundTrips read write) {value : α}
    (start : Reads read (write value) value) :
    FieldRoundTrips (defaulted value read) fun a => some (write a) := by
  intro f a sound given
  have reads := Grants.defaulted (P := fun b => Reads read (write b) b) h sound start given
  exact .of_reads reads

/-- A list that is left out when it is empty. -/
theorem nonEmpty (h : RoundTrips read write) :
    FieldRoundTrips (Json.defaulted [] (list? read)) fun l => nonEmpty (l.map write) := by
  intro f l sound given
  have each : ∀ a ∈ l, Reads read (write a) a :=
    Grants.defaulted (Grants.list? h) sound (List.forall_mem_nil _) given
  refine ⟨defaulted_nonEmpty fun a ha => (each a ha).read, textual_nonEmpty fun v hv => ?_⟩
  obtain ⟨a, ha, rfl⟩ := List.mem_map.1 hv
  exact (each a ha).textual

end FieldRoundTrips

-- ================================================================ records

/-- A record is read as what its fields make. -/
theorem Reads.record {names : List String} {make : List (Option Json) → Option α}
    {fields : List (String × Option Json)} {a : α} (distinct : names.Nodup)
    (declared : fields.map Prod.fst = names) (made : make (fields.map Prod.snd) = some a)
    (textual : ∀ f ∈ fields, ∀ w ∈ f.2, Textual w) :
    Reads (fun v => (v.fields? names).bind make) (Json.record fields) a := by
  refine ⟨?_, textual_record textual⟩
  have written : (Json.record fields).fields? names = some (fields.map Prod.snd) := by
    rw [← declared]
    exact fields?_record (by rw [declared]; exact distinct)
  show ((Json.record fields).fields? names).bind make = _
  rw [written, Option.bind_some, made]

/-- A record is read again if its fields are, whatever is made of them. -/
theorem RoundTrips.record {names : List String} {make : List (Option Json) → Option α}
    {fields : α → List (String × Option Json)} (distinct : names.Nodup)
    (declared : ∀ a, (fields a).map Prod.fst = names)
    (each : ∀ fs a, (∀ f ∈ fs, ∀ w ∈ f, Sound w) → make fs = some a →
      make ((fields a).map Prod.snd) = some a ∧ ∀ f ∈ fields a, ∀ w ∈ f.2, Textual w) :
    RoundTrips (fun v => (v.fields? names).bind make) fun a => record (fields a) := by
  intro v a sound given
  obtain ⟨fs, contents, given⟩ := Option.bind_eq_some_iff.1 given
  obtain ⟨again, textual⟩ := each fs a (sound.of_fields? contents) given
  exact .record distinct (declared a) again textual

/-- A record with two fields, which are all of the value that is made of them. -/
theorem RoundTrips.record₂ {n m : String} {r : Option Json → Option β} {s : Option Json → Option γ}
    {wx : β → Option Json} {wy : γ → Option Json} (make : β → γ → α) (x : α → β) (y : α → γ)
    (parts : ∀ b c, x (make b c) = b ∧ y (make b c) = c) (distinct : [n, m].Nodup)
    (hr : FieldRoundTrips r wx) (hs : FieldRoundTrips s wy) :
    RoundTrips
      (fun v => do
        match ← v.fields? [n, m] with
        | [f, g] => some (make (← r f) (← s g))
        | _ => none)
      fun a => Json.record [(n, wx (x a)), (m, wy (y a))] := by
  refine .record distinct (fun _ => rfl) fun fs a sound given => ?_
  split at given
  case h_2 => cases given
  next f g =>
  simp only [Option.bind_eq_bind, Option.bind_eq_some_iff, Option.some.injEq] at given
  obtain ⟨b, hb, c, hc, rfl⟩ := given
  obtain ⟨first, second⟩ := parts b c
  have fst := hr f b (sound f (by simp)) hb
  have snd := hs g c (sound g (by simp)) hc
  rw [first, second]
  refine ⟨?_, by simpa using ⟨fst.textual, snd.textual⟩⟩
  simp [fst.read, snd.read]

/-- A record with three fields. -/
theorem RoundTrips.record₃ {n m k : String} {r : Option Json → Option β}
    {s : Option Json → Option γ} {t : Option Json → Option δ} {wx : β → Option Json}
    {wy : γ → Option Json} {wz : δ → Option Json} (make : β → γ → δ → α) (x : α → β) (y : α → γ)
    (z : α → δ) (parts : ∀ b c d, x (make b c d) = b ∧ y (make b c d) = c ∧ z (make b c d) = d)
    (distinct : [n, m, k].Nodup) (hr : FieldRoundTrips r wx) (hs : FieldRoundTrips s wy)
    (ht : FieldRoundTrips t wz) :
    RoundTrips
      (fun v => do
        match ← v.fields? [n, m, k] with
        | [f, g, h] => some (make (← r f) (← s g) (← t h))
        | _ => none)
      fun a => Json.record [(n, wx (x a)), (m, wy (y a)), (k, wz (z a))] := by
  refine .record distinct (fun _ => rfl) fun fs a sound given => ?_
  split at given
  case h_2 => cases given
  next f g h =>
  simp only [Option.bind_eq_bind, Option.bind_eq_some_iff, Option.some.injEq] at given
  obtain ⟨b, hb, c, hc, d, hd, rfl⟩ := given
  obtain ⟨first, second, third⟩ := parts b c d
  have fst := hr f b (sound f (by simp)) hb
  have snd := hs g c (sound g (by simp)) hc
  have trd := ht h d (sound h (by simp)) hd
  rw [first, second, third]
  refine ⟨?_, by simpa using ⟨fst.textual, snd.textual, trd.textual⟩⟩
  simp [fst.read, snd.read, trd.read]

end Json
end PartPlan
