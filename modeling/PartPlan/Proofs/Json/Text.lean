/-
The compact text of a value says which value it is. A text is read from its
start: the first character tells the kind of value, a string ends at the quote
that is not escaped, a number where no number goes on, and brackets where their
items do. So two values that are written in front of something are the same
whenever the texts are, and so is what follows them.

This holds of the values that have a text of their own: in JSON there is no NaN
and there are no infinities, and they are written as `null`.
-/
import PartPlan.Plan.Fingerprint
import PartPlan.Proofs.Json.Number

namespace PartPlan.Json

open Token (Stops)

-- ================================================================ strings

namespace Token

theorem hexValue?_digitChar {n : ℕ} (h : n < 16) : hexValue? (Nat.digitChar n) = some n := by
  interval_cases n <;> decide

/-- A character that is written as it is, is one code unit. -/
theorem units?_cons {c : Char} (rest : List Char) (quote : c ≠ '"') (slash : c ≠ '\\')
    (visible : ¬c.toNat < 0x20) :
    units? (c :: rest) = (units? rest).map fun (us, rest) => (c.toNat :: us, rest) := by
  rw [units?.eq_def]
  split
  case h_5 =>
    next c' rest' _ _ _ same =>
    cases same
    rw [if_neg (by simp [slash, visible])]
    cases units? rest <;> rfl
  all_goals simp_all

/-- A character with an escape of one letter. -/
theorem units?_escape {e c : Char} (rest : List Char) (known : escaped? e = some c) :
    units? ('\\' :: e :: rest) = (units? rest).map fun (us, rest) => (c.toNat :: us, rest) := by
  have other : e ≠ 'u' := by
    rintro rfl
    cases known
  rw [units?.eq_def]
  split
  case h_4 =>
    next e' rest' _ same =>
    cases same
    rw [known]
    cases units? rest <;> rfl
  case h_5 =>
    next _ _ _ _ plain same =>
    cases same
    exact (plain e rest rfl rfl).elim
  all_goals simp_all

/-- A control character is written as a numeric escape of four digits. -/
theorem units?_numeric {c : Char} (rest : List Char) (control : c.toNat < 0x20) :
    units? ('\\' :: 'u' :: '0' :: '0' :: Nat.digitChar (c.toNat / 16)
        :: Nat.digitChar (c.toNat % 16) :: rest)
      = (units? rest).map fun (us, rest) => (c.toNat :: us, rest) := by
  have zero : hexValue? '0' = some 0 := by decide
  have high := hexValue?_digitChar (n := c.toNat / 16) (by omega)
  have low := hexValue?_digitChar (n := c.toNat % 16) (by omega)
  have value : ((0 * 16 + 0) * 16 + c.toNat / 16) * 16 + c.toNat % 16 = c.toNat := by omega
  rw [units?, zero, high, low]
  simp only [Option.bind_eq_bind, Option.bind_some, value]
  cases units? rest <;> rfl

/-- An escaped character is read as one code unit. -/
theorem units?_escapeChar (c : Char) (rest : List Char) :
    units? (escapeChar c ++ rest) = (units? rest).map fun (us, rest) => (c.toNat :: us, rest) := by
  unfold escapeChar
  split
  case h_8 quote slash _ _ _ _ _ =>
    split
    · next control => exact units?_numeric rest control
    · next visible => exact units?_cons rest quote slash visible
  all_goals exact units?_escape rest rfl

theorem units?_flatMap (cs rest : List Char) :
    units? (cs.flatMap escapeChar ++ '"' :: rest) = some (cs.map Char.toNat, rest) := by
  induction cs with
  | nil => rw [List.flatMap_nil, List.nil_append, units?, List.map_nil]
  | cons c cs ih =>
    rw [List.flatMap_cons, List.append_assoc, units?_escapeChar, ih]
    rfl

/-- No character is half a surrogate pair. -/
theorem not_surrogate (c : Char) : c.toNat < 0xD800 ∨ 0xE000 ≤ c.toNat := by
  rcases c.valid with low | high
  · exact .inl low
  · exact .inr high.1

theorem charsOfUnits?_map (cs : List Char) : charsOfUnits? (cs.map Char.toNat) = some cs := by
  induction cs with
  | nil => rfl
  | cons c cs ih =>
    have apart := not_surrogate c
    cases cs with
    | nil =>
      rw [List.map_singleton, charsOfUnits?, if_neg (by omega), Char.ofNat_toNat]
    | cons d ds =>
      rw [List.map_cons, List.map_cons, charsOfUnits?, if_neg (by omega), if_neg (by omega),
        ← List.map_cons, ih, Char.ofNat_toNat]
      rfl

/-- A written string is read back. -/
theorem string?_flatMap (s : String) (rest : List Char) :
    string? (s.toList.flatMap escapeChar ++ '"' :: rest) = some (some s, rest) := by
  unfold string?
  rw [units?_flatMap]
  simp only [Option.bind_eq_bind, Option.bind_some]
  rw [charsOfUnits?_map, Option.map_some, String.ofList_toList]

end Token

theorem stringChars_append_inj {s t : String} {rest rest' : List Char}
    (same : stringChars s ++ rest = stringChars t ++ rest') : s = t ∧ rest = rest' := by
  unfold stringChars at same
  rw [List.cons_append, List.cons_append, List.append_assoc, List.append_assoc,
    List.singleton_append, List.singleton_append, List.cons.injEq] at same
  have read := Token.string?_flatMap s rest
  rw [same.2, Token.string?_flatMap] at read
  simp only [Option.some.injEq, Prod.mk.injEq] at read
  exact ⟨read.1.symm, read.2.symm⟩

-- ================================================================= values

/-- A value that has a text of its own. -/
inductive Faithful : Json → Prop
  | null : Faithful .null
  | bool (b : Bool) : Faithful (.bool b)
  | int (n : ℤ) : Faithful (.int n)
  | num {x : Float} (finite : x.isFinite = true) : Faithful (.num x)
  | str (s : String) : Faithful (.str s)
  | arr {items : List Json} (each : ∀ v ∈ items, Faithful v) : Faithful (.arr items)
  | obj {members : List (String × Json)} (each : ∀ m ∈ members, Faithful m.2) :
    Faithful (.obj members)

/-- The kinds of values that the first character of a text tells apart. -/
inductive Kind where
  | null
  | true
  | false
  | str
  | arr
  | obj
  | number
  | close
  deriving DecidableEq

/-- The kind of value that starts with a character. -/
def Kind.ofChar : Char → Kind
  | 'n' => .null
  | 't' => .true
  | 'f' => .false
  | '"' => .str
  | '[' => .arr
  | '\x7b' => .obj
  | ']' => .close
  | _ => .number

/-- The kind of a value. -/
def kind : Json → Kind
  | .null => .null
  | .bool true => .true
  | .bool false => .false
  | .int _ => .number
  | .num _ => .number
  | .str _ => .str
  | .arr _ => .arr
  | .obj _ => .obj
  | .unreadable => .null

variable {v w : Json} {rest rest' : List Char} {d d' : ℕ}

theorem kind_of_isDigit {c : Char} (h : Token.isDigit c = true) : Kind.ofChar c = .number := by
  unfold Kind.ofChar
  split
  case h_8 => rfl
  all_goals cases h

/-- A text that is read as a number starts as one. -/
theorem kind_of_literal? {cs : List Char} {r : Number.Literal × List Char}
    (h : Token.literal? cs = some r) : ∃ c t, cs = c :: t ∧ Kind.ofChar c = .number := by
  unfold Token.literal? at h
  split at h
  · exact ⟨_, _, rfl, rfl⟩
  · cases cs with
    | nil => cases h
    | cons c t =>
      refine ⟨c, t, rfl, kind_of_isDigit ?_⟩
      by_contra other
      have none : Token.wholePart? (c :: t) = none := by
        simp [Token.wholePart?, Token.digitRun, other]
      unfold Token.magnitude? at h
      rw [none] at h
      cases h

/-- The first character of a text tells its kind. -/
theorem write_eq_cons (h : Faithful v) (stops : Stops rest) :
    ∃ c t, v.write .compact d rest = c :: t ∧ Kind.ofChar c = v.kind := by
  cases h with
  | null => exact ⟨_, _, rfl, rfl⟩
  | bool b => cases b <;> exact ⟨_, _, rfl, rfl⟩
  | int n => exact kind_of_literal? (Token.literal?_intChars n stops)
  | num finite =>
    obtain ⟨l, read, -⟩ := Token.literal?_chars finite
    exact kind_of_literal? (read _ stops)
  | str s => exact ⟨_, _, rfl, rfl⟩
  | @arr items each => cases items <;> exact ⟨_, _, rfl, rfl⟩
  | @obj members each =>
    cases members with
    | nil => exact ⟨_, _, rfl, rfl⟩
    | cons m ms => exact ⟨_, _, rfl, rfl⟩

theorem kind_eq (hv : Faithful v) (hw : Faithful w) (stops : Stops rest) (stops' : Stops rest')
    (same : v.write .compact d rest = w.write .compact d' rest') : v.kind = w.kind := by
  obtain ⟨c, t, text, first⟩ := write_eq_cons (d := d) hv stops
  obtain ⟨c', t', text', first'⟩ := write_eq_cons (d := d') hw stops'
  rw [text, text', List.cons.injEq] at same
  rw [← first, ← first', same.1]

/-- All that a spacing puts between tokens are blanks. -/
structure Spacing.Blank (sp : Spacing) : Prop where
  gap : ∀ d, ∀ c ∈ sp.gap d, Token.isSpace c = true
  afterColon : ∀ c ∈ sp.afterColon, Token.isSpace c = true

theorem Spacing.Blank.compact : Spacing.compact.Blank where
  gap _ := List.forall_mem_nil _
  afterColon := List.forall_mem_nil _

/-- A number ends where blanks or a mark follow. -/
theorem stops_blanks {blanks : List Char} (blank : ∀ c ∈ blanks, Token.isSpace c = true)
    (stops : Stops rest) : Stops (blanks ++ rest) := by
  cases blanks with
  | nil => exact stops
  | cons c blanks =>
    intro c' hc
    obtain rfl : c = c' := Option.some.inj hc
    have either : c = ' ' ∨ c = '\n' ∨ c = '\r' ∨ c = '\t' := by
      simpa [Token.isSpace, or_assoc] using blank c List.mem_cons_self
    rcases either with rfl | rfl | rfl | rfl <;> decide

theorem stops_writeItems {sp : Spacing} (blank : sp.Blank) (vs : List Json) (d : ℕ)
    (rest : List Char) : Stops (writeItems sp d vs rest) := by
  cases vs with
  | nil => exact stops_blanks (blank.gap d) (by simp [Stops, Token.isDigit])
  | cons v vs => simp [writeItems, Stops, Token.isDigit]

theorem stops_writeMembers {sp : Spacing} (blank : sp.Blank) (ms : List (String × Json)) (d : ℕ)
    (rest : List Char) : Stops (writeMembers sp d ms rest) := by
  cases ms with
  | nil => exact stops_blanks (blank.gap d) (by simp [Stops, Token.isDigit])
  | cons m ms => simp [writeMembers, Stops, Token.isDigit]

/-- A value is determined by a text that it is written at the start of, and so
is the rest of the text. -/
def Determined (v : Json) : Prop :=
  ∀ (w : Json) (d d' : ℕ) (rest rest' : List Char), Faithful w → Stops rest → Stops rest' →
    v.write .compact d rest = w.write .compact d' rest' → v = w ∧ rest = rest'

theorem writeItems_inj {vs ws : List Json} (determined : ∀ v ∈ vs, Determined v)
    (faithful : ∀ w ∈ ws, Faithful w)
    (same : writeItems .compact d vs rest = writeItems .compact d' ws rest') :
    vs = ws ∧ rest = rest' := by
  induction vs generalizing ws with
  | nil =>
    cases ws with
    | nil => simpa [writeItems, Spacing.compact] using same
    | cons w ws => simp [writeItems, Spacing.compact] at same
  | cons v vs ih =>
    cases ws with
    | nil => simp [writeItems, Spacing.compact] at same
    | cons w ws =>
      simp only [writeItems, Spacing.compact, List.nil_append, List.cons.injEq, true_and] at same
      obtain ⟨rfl, tail⟩ := determined v List.mem_cons_self w _ _ _ _
        (faithful w List.mem_cons_self) (stops_writeItems .compact _ _ _)
        (stops_writeItems .compact _ _ _) same
      obtain ⟨rfl, rfl⟩ := ih (fun v hv => determined v (List.mem_cons_of_mem _ hv))
        (fun w hw => faithful w (List.mem_cons_of_mem _ hw)) tail
      exact ⟨rfl, rfl⟩

theorem writeMembers_inj {ms ns : List (String × Json)} (determined : ∀ m ∈ ms, Determined m.2)
    (faithful : ∀ n ∈ ns, Faithful n.2)
    (same : writeMembers .compact d ms rest = writeMembers .compact d' ns rest') :
    ms = ns ∧ rest = rest' := by
  induction ms generalizing ns with
  | nil =>
    cases ns with
    | nil => simpa [writeMembers, Spacing.compact] using same
    | cons n ns => simp [writeMembers, Spacing.compact] at same
  | cons m ms ih =>
    cases ns with
    | nil => simp [writeMembers, Spacing.compact] at same
    | cons n ns =>
      obtain ⟨k, v⟩ := m
      obtain ⟨l, w⟩ := n
      simp only [writeMembers, Spacing.compact, List.nil_append, List.cons.injEq, true_and] at same
      obtain ⟨rfl, value⟩ := stringChars_append_inj same
      obtain ⟨rfl, tail⟩ := determined (k, v) List.mem_cons_self w _ _ _ _
        (faithful (k, w) List.mem_cons_self) (stops_writeMembers .compact _ _ _)
        (stops_writeMembers .compact _ _ _)
        (List.cons.inj value).2
      obtain ⟨rfl, rfl⟩ := ih (fun m hm => determined m (List.mem_cons_of_mem _ hm))
        (fun n hn => faithful n (List.mem_cons_of_mem _ hn)) tail
      exact ⟨rfl, rfl⟩

/-- An array is empty or starts with an item, which does not start with the
bracket that closes an array. -/
theorem arr_determined {vs : List Json} (faithful : ∀ v ∈ vs, Faithful v)
    (determined : ∀ v ∈ vs, Determined v) : Determined (.arr vs) := by
  intro w d d' rest rest' hw stops stops' same
  have kinds := kind_eq (.arr faithful) hw stops stops' same
  cases hw with
  | @arr ws faithful' =>
    have item {v : Json} (hv : Faithful v) (vs : List Json) (d d' : ℕ) (rest rest' : List Char) :
        v.write .compact (d + 1) (writeItems .compact d vs rest) ≠ ']' :: rest' := by
      obtain ⟨c, t, text, first⟩ := write_eq_cons (d := d + 1) hv
        (stops_writeItems .compact vs d rest)
      rw [text, ne_eq, List.cons.injEq]
      rintro ⟨rfl, -⟩
      cases hv with
      | bool b => cases b <;> cases first
      | _ => cases first
    cases vs with
    | nil =>
      cases ws with
      | nil => simpa [write] using same
      | cons w ws =>
        simp only [write, Spacing.compact, List.nil_append, List.cons.injEq, true_and] at same
        exact absurd same.symm (item (faithful' w List.mem_cons_self) ws d' d rest' rest)
    | cons v vs =>
      cases ws with
      | nil =>
        simp only [write, Spacing.compact, List.nil_append, List.cons.injEq, true_and] at same
        exact absurd same (item (faithful v List.mem_cons_self) vs d d' rest rest')
      | cons w ws =>
        have items : writeItems .compact d (v :: vs) rest
            = writeItems .compact d' (w :: ws) rest' := by
          simp only [write, Spacing.compact, List.nil_append, List.cons.injEq, true_and] at same
          simp only [writeItems, Spacing.compact, List.nil_append, same]
        obtain ⟨same, rests⟩ := writeItems_inj determined faithful' items
        exact ⟨congrArg _ same, rests⟩
  | bool b => cases b <;> cases kinds
  | _ => cases kinds

theorem obj_determined {ms : List (String × Json)} (faithful : ∀ m ∈ ms, Faithful m.2)
    (determined : ∀ m ∈ ms, Determined m.2) : Determined (.obj ms) := by
  intro w d d' rest rest' hw stops stops' same
  have kinds := kind_eq (.obj faithful) hw stops stops' same
  cases hw with
  | @obj ns faithful' =>
    cases ms with
    | nil =>
      cases ns with
      | nil => simpa [write] using same
      | cons n ns => simp [write, Spacing.compact, stringChars] at same
    | cons m ms =>
      cases ns with
      | nil => simp [write, Spacing.compact, stringChars] at same
      | cons n ns =>
        have members : writeMembers .compact d (m :: ms) rest
            = writeMembers .compact d' (n :: ns) rest' := by
          simp only [write, Spacing.compact, List.nil_append, List.cons.injEq, true_and] at same
          simp only [writeMembers, Spacing.compact, List.nil_append, same]
        obtain ⟨same, rests⟩ := writeMembers_inj determined faithful' members
        exact ⟨congrArg _ same, rests⟩
  | bool b => cases b <;> cases kinds
  | _ => cases kinds

theorem Faithful.determined (h : Faithful v) : Determined v := by
  induction h with
  | arr each ih => exact arr_determined each ih
  | obj each ih => exact obj_determined each ih
  | null =>
    intro w d d' rest rest' hw stops stops' same
    have kinds := kind_eq .null hw stops stops' same
    cases hw with
    | null => simpa [write] using same
    | bool b => cases b <;> cases kinds
    | _ => cases kinds
  | bool b =>
    intro w d d' rest rest' hw stops stops' same
    have kinds := kind_eq (.bool b) hw stops stops' same
    cases hw with
    | bool b' => cases b <;> cases b' <;> simp_all [write, kind]
    | _ => cases b <;> cases kinds
  | str s =>
    intro w d d' rest rest' hw stops stops' same
    have kinds := kind_eq (.str s) hw stops stops' same
    cases hw with
    | str t =>
      obtain ⟨same, rests⟩ := stringChars_append_inj same
      exact ⟨congrArg _ same, rests⟩
    | bool b => cases b <;> cases kinds
    | _ => cases kinds
  | int n =>
    intro w d d' rest rest' hw stops stops' same
    have kinds := kind_eq (.int n) hw stops stops' same
    cases hw with
    | int m =>
      obtain ⟨same, rests⟩ := Token.intChars_append_inj stops stops' same
      exact ⟨congrArg _ same, rests⟩
    | num finite => exact absurd same (Token.intChars_append_ne finite stops stops')
    | bool b => cases b <;> cases kinds
    | _ => cases kinds
  | num finite =>
    intro w d d' rest rest' hw stops stops' same
    have kinds := kind_eq (.num finite) hw stops stops' same
    cases hw with
    | int m => exact absurd same.symm (Token.intChars_append_ne finite stops' stops)
    | num finite' =>
      obtain ⟨same, rests⟩ := Token.chars_append_inj finite finite' stops stops' same
      exact ⟨congrArg _ same, rests⟩
    | bool b => cases b <;> cases kinds
    | _ => cases kinds

-- ==================================================================== bytes

theorem compact_inj (hv : Faithful v) (hw : Faithful w) (same : v.compact = w.compact) : v = w := by
  have stops : Stops [] := by simp [Stops]
  have texts : v.write .compact 0 [] = w.write .compact 0 [] := String.ofList_injective same
  exact (hv.determined w 0 0 [] [] hw stops stops texts).1

theorem utf8_injective {s t : String} (same : Digest.utf8 s = Digest.utf8 t) : s = t := by
  unfold Digest.utf8 at same
  have data : s.toUTF8.data = t.toUTF8.data := Array.toList_inj.1 same
  exact String.toByteArray_inj.1 (ByteArray.ext data)

/-- Values with the same bytes are the same. -/
theorem bytes_inj (hv : Faithful v) (hw : Faithful w) (same : v.bytes = w.bytes) : v = w :=
  compact_inj hv hw (utf8_injective same)

end PartPlan.Json
