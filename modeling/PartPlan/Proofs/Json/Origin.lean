/-
What a text can denote. A number that is read from a text is finite and an
integer has 64 bits, for the value of a literal is so however it is rounded; the
reader puts brackets around what it has read and nothing else. So every part of a
value that is read from a text is such a number, another plain value, or unreadable.

What a reader of such values grants of its results then follows from what the
readers of their fields grant.
-/
import PartPlan.Proofs.Json.Record

namespace PartPlan.Json

-- ================================================================== tokens

/-- The value of a token is one that a text can denote. -/
def Token.Sound : Token → Prop
  | .scalar v => v.Sound
  | _ => True

theorem sound_literalValue (r : Number.Rounding) (l : Number.Literal) :
    (Token.literalValue r l).Sound := by
  unfold Token.literalValue
  split
  · next n whole => exact .int (Token.isInt64_of_toInt64? whole)
  · cases read : r.round l with
    | none => exact .unreadable
    | some x => exact .num (r.finite read)

theorem Token.sound_of_next? {r : Number.Rounding} {cs rest : List Char} {t : Token}
    (h : next? r cs = some (t, rest)) : t.Sound := by
  unfold next? at h
  split at h
  case h_7 => cases h; exact .null
  case h_8 => cases h; exact .bool true
  case h_9 => cases h; exact .bool false
  case h_10 =>
    obtain ⟨s, -, same⟩ := Option.map_eq_some_iff.1 h
    cases same
    trivial
  case h_11 =>
    obtain ⟨l, -, same⟩ := Option.map_eq_some_iff.1 h
    cases same
    exact sound_literalValue r l.1
  all_goals
    cases h
    trivial

theorem Token.sound_of_scan {r : Number.Rounding} {cs : List Char} {ts : List Token}
    (h : scan r cs = some ts) : ∀ t ∈ ts, t.Sound := by
  fun_induction scan r cs generalizing ts with
  | case1 =>
    cases h
    simp
  | case2 c rest _ ih => exact ih h
  | case3 => cases h
  | case4 c rest _ t after found ih =>
    obtain ⟨us, scanned, rfl⟩ := Option.map_eq_some_iff.1 h
    exact List.forall_mem_cons.2 ⟨sound_of_next? found, ih scanned⟩

-- ================================================================== reader

/-- The values in an open bracket are such as a text can denote. -/
def Frame.Sound : Frame → Prop
  | .list items => ∀ v ∈ items, v.Sound
  | .record members _ => ∀ m ∈ members, m.2.Sound

/-- So is the value that has just been read. -/
def Place.Sound : Place → Prop
  | .after v => v.Sound
  | _ => True

/-- All values a reader holds are such as a text can denote. -/
structure Reading.Sound (r : Reading) : Prop where
  frames : ∀ f ∈ r.frames, f.Sound
  place : r.place.Sound

section Reader

variable {frames : List Frame} {v : Json} {outside : ℕ}

theorem sound_sealed (h : v.Sound) : (sealed outside v).Sound := by
  unfold sealed
  split
  · exact .unreadable
  · exact h

theorem sound_closedList {items : List Json} (h : ∀ v ∈ items, v.Sound) :
    (closedList outside items).Sound :=
  sound_sealed (.arr fun v hv => h v (List.mem_reverse.1 hv))

theorem sound_closedRecord {members : List (Option String × Json)}
    (h : ∀ m ∈ members, m.2.Sound) : (closedRecord outside members).Sound := by
  unfold closedRecord
  split
  · next ms named =>
    refine sound_sealed (.obj fun m hm => ?_)
    obtain ⟨⟨k, v⟩, hmem, same⟩ := exists_of_mem_mapM named hm
    obtain ⟨l, -, rfl⟩ := Option.map_eq_some_iff.1 same
    exact h (k, v) (List.mem_reverse.1 hmem)
  · exact .unreadable

theorem sound_ofText (s : Option String) : (ofText s).Sound := by
  cases s with
  | none => exact .unreadable
  | some s => exact .str s

theorem Reading.sound_begin? {t : Token} {r : Reading} (h : ∀ f ∈ frames, f.Sound)
    (token : t.Sound) (next : begin? frames t = some r) : r.Sound := by
  cases t with
  | openList =>
    cases next
    exact ⟨List.forall_mem_cons.2 ⟨List.forall_mem_nil _, h⟩, trivial⟩
  | openRecord =>
    cases next
    exact ⟨List.forall_mem_cons.2 ⟨List.forall_mem_nil _, h⟩, trivial⟩
  | text s =>
    cases next
    exact ⟨h, sound_ofText s⟩
  | scalar v =>
    cases next
    exact ⟨h, token⟩
  | _ => cases next

theorem Reading.sound_key? {t : Token} {r : Reading} (h : ∀ f ∈ frames, f.Sound)
    (next : key? frames t = some r) : r.Sound := by
  unfold key? at next
  split at next
  · cases next
    obtain ⟨here, rest⟩ := List.forall_mem_cons.1 h
    exact ⟨List.forall_mem_cons.2 ⟨here, rest⟩, trivial⟩
  · cases next

theorem Reading.sound_follow? {t : Token} {r : Reading} (h : ∀ f ∈ frames, f.Sound)
    (value : v.Sound) (next : follow? v frames t = some r) : r.Sound := by
  unfold follow? at next
  split at next
  case h_5 => cases next
  all_goals
    cases next
    obtain ⟨here, rest⟩ := List.forall_mem_cons.1 h
  · exact ⟨List.forall_mem_cons.2 ⟨List.forall_mem_cons.2 ⟨value, here⟩, rest⟩, trivial⟩
  · exact ⟨rest, sound_closedList (List.forall_mem_cons.2 ⟨value, here⟩)⟩
  · exact ⟨List.forall_mem_cons.2 ⟨List.forall_mem_cons.2 ⟨value, here⟩, rest⟩, trivial⟩
  · exact ⟨rest, sound_closedRecord (List.forall_mem_cons.2 ⟨value, here⟩)⟩

/-- A step holds no value that a text could not denote. -/
theorem Reading.Sound.step {r s : Reading} {t : Token} (h : r.Sound) (token : t.Sound)
    (next : r.step? t = some s) : s.Sound := by
  obtain ⟨frames, place⟩ := r
  obtain ⟨each, value⟩ := h
  unfold step? at next
  dsimp only at next
  split at next
  · exact sound_begin? each token next
  · split at next
    · cases next
      obtain ⟨here, rest⟩ := List.forall_mem_cons.1 each
      exact ⟨rest, sound_closedList here⟩
    · cases next
  · exact sound_begin? each token next
  · split at next
    · cases next
      obtain ⟨here, rest⟩ := List.forall_mem_cons.1 each
      exact ⟨rest, sound_closedRecord here⟩
    · cases next
  · exact sound_key? each next
  · exact sound_key? each next
  · cases next
    exact ⟨each, trivial⟩
  · cases next
  · exact sound_follow? each value next

theorem Reading.Sound.run {r s : Reading} {ts : List Token} (h : r.Sound)
    (tokens : ∀ t ∈ ts, t.Sound) (ran : r.run? ts = some s) : s.Sound := by
  induction ts generalizing r with
  | nil =>
    cases ran
    exact h
  | cons t ts ih =>
    obtain ⟨here, rest⟩ := List.forall_mem_cons.1 tokens
    obtain ⟨r', next, ran⟩ := Option.bind_eq_some_iff.1 ran
    exact ih (h.step here next) rest ran

end Reader

/-- What is read from a text is a value that a text can denote. -/
theorem sound_of_parse? {r : Number.Rounding} {text : String} {v : Json}
    (h : parse? r text = some v) : v.Sound := by
  obtain ⟨ts, scanned, read⟩ := Option.bind_eq_some_iff.1 h
  obtain ⟨r, ran, result⟩ := Option.bind_eq_some_iff.1 read
  have start : Reading.Sound ⟨[], .value⟩ := ⟨List.forall_mem_nil _, trivial⟩
  have sound := start.run (Token.sound_of_scan scanned) ran
  obtain ⟨frames, place⟩ := r
  unfold Reading.result? at result
  dsimp only at result
  split at result
  · cases result
    exact sound.place
  · cases result

-- ================================================================= fields

section Fields

variable {α : Type} {v w : Json} {names : List String} {fs : List (Option Json)}

theorem Sound.of_items {items : List Json} (h : Sound (.arr items)) : ∀ v ∈ items, Sound v := by
  cases h with
  | arr each => exact each

theorem Sound.of_members {members : List (String × Json)} (h : Sound (.obj members)) :
    ∀ m ∈ members, Sound m.2 := by
  cases h with
  | obj each => exact each

/-- All contents of a record are such as a text can denote. -/
def Body.Sound : Body → Prop
  | .members ms => ∀ m ∈ ms, m.2.Sound
  | .items vs => ∀ v ∈ vs, v.Sound

theorem Body.Sound.of_fields? {b : Body} (h : b.Sound) (fields : b.fields? names = some fs) :
    ∀ f ∈ fs, ∀ w ∈ f, Json.Sound w := by
  rintro f hf w rfl
  have held := Body.holds_of_fields? fields hf
  cases b with
  | members ms =>
    obtain ⟨name, held⟩ := held
    exact h (name, w) held
  | items vs => exact h w held

/-- A field of a record is such as a text can denote if the record is. -/
theorem Sound.of_fields? (h : Sound v) (fields : v.fields? names = some fs) :
    ∀ f ∈ fs, ∀ w ∈ f, Sound w := by
  obtain ⟨b, body, fields⟩ := Option.bind_eq_some_iff.1 fields
  refine Body.Sound.of_fields? ?_ fields
  unfold body? at body
  split at body
  · cases body
    exact h.of_members
  · cases body
    exact h.of_items
  · cases body

theorem Sound.of_taggedFields? {style : TagStyle} {forms : List (String × α)}
    {declared : α → List String} {form : α} (h : Sound v)
    (fields : taggedFields? style forms declared v = some (form, fs)) :
    ∀ f ∈ fs, ∀ w ∈ f, Sound w := by
  simp only [taggedFields?, Option.bind_eq_bind, Option.bind_eq_some_iff, Prod.exists] at fields
  obtain ⟨a, body, tagged, fs', fields, same⟩ := fields
  obtain ⟨rfl, rfl⟩ : a = form ∧ fs' = fs := by simpa using same
  refine Body.Sound.of_fields? ?_ fields
  unfold tagged? at tagged
  split at tagged
  · simp only [Option.bind_eq_bind, Option.bind_eq_some_iff] at tagged
    obtain ⟨_, _, _, _, _, _, same⟩ := tagged
    obtain ⟨-, rfl⟩ : _ ∧ _ = body := by simpa using same
    exact h.of_members
  · simp only [Option.bind_eq_bind, Option.bind_eq_some_iff] at tagged
    obtain ⟨_, _, same⟩ := tagged
    obtain ⟨-, rfl⟩ : _ ∧ _ = body := by simpa using same
    exact fun v hv => h.of_items v (List.mem_cons_of_mem _ hv)
  · cases tagged

theorem Sound.isFinite_of_float? {x : Float} (h : Sound v) (read : v.float? = some x) :
    x.isFinite = true := by
  cases h with
  | int fits =>
    cases read
    exact fits.isFinite_ofInt
  | num finite =>
    cases read
    exact finite
  | _ => cases read

/-- Whatever is read from what a text can denote has a property. -/
def Grants (read : Json → Option α) (P : α → Prop) : Prop :=
  ∀ v a, Sound v → read v = some a → P a

namespace Grants

variable {read : Json → Option α} {P : α → Prop} {f : Option Json} {a : α}

theorem required (h : Grants read P) (sound : ∀ w ∈ f, Sound w)
    (given : Json.required read f = some a) : P a := by
  obtain ⟨v, rfl, given⟩ := Option.bind_eq_some_iff.1 given
  exact h v a (sound v rfl) given

theorem optional (h : Grants read P) (sound : ∀ w ∈ f, Sound w) {o : Option α}
    (given : Json.optional read f = some o) : ∀ a ∈ o, P a := by
  rintro a rfl
  unfold Json.optional at given
  split at given
  · cases given
  · cases given
  · next v _ =>
    obtain ⟨b, given, same⟩ := Option.map_eq_some_iff.1 given
    cases same
    exact h v a (sound v rfl) given

theorem defaulted (h : Grants read P) (sound : ∀ w ∈ f, Sound w) {value : α} (start : P value)
    (given : Json.defaulted value read f = some a) : P a := by
  cases f with
  | none =>
    cases given
    exact start
  | some v => exact h v a (sound v rfl) given

theorem list? (h : Grants read P) : Grants (Json.list? read) fun l => ∀ a ∈ l, P a := by
  intro v l sound given a ha
  cases v with
  | arr items =>
    obtain ⟨w, hw, given⟩ := exists_of_mem_mapM given ha
    exact h w a (sound.of_items w hw) given
  | _ => cases given

end Grants

theorem exists_of_choice? {choices : List (String × α)} {name : String} {a : α}
    (h : choice? choices name = some a) : ∃ c ∈ choices, c.2 = a := by
  obtain ⟨c, found, rfl⟩ := Option.map_eq_some_iff.1 h
  exact ⟨c, List.mem_of_find?_eq_some found, rfl⟩

/-- A keyword is one of the choices. -/
theorem exists_of_keyword? {choices : List (String × α)} {a : α}
    (h : keyword? choices v = some a) : ∃ c ∈ choices, c.2 = a := by
  unfold keyword? at h
  split at h
  · exact exists_of_choice? h
  · exact exists_of_choice? h
  · cases h

end Fields

end PartPlan.Json
