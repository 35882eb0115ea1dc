/-
Written values are read back. A value has its tokens to a reader (`tokens`), and those
are what the reader's scanner finds in any text of the value, whatever blanks its
brackets are filled with (`Scans`). Of the tokens the reader makes the value again, but
for two things: a number becomes what its text is rounded to, and what is nested too
deep denotes nothing (`ReadsBack`). Both depend on the value only and not on the blanks,
so the compact text of a value and its indented one denote the same to every reader.
They denote the value itself if its brackets are few enough and the reader gives each
number in it back (`Rounding.Returns`), as one does that rounds to the nearest number.
-/
import PartPlan.Json.Reader
import PartPlan.Proofs.Json.Literal
import PartPlan.Proofs.Json.Text

namespace PartPlan.Number.Rounding

/-- What a reader makes of a number that is written. -/
def reread (r : Rounding) (x : Float) : Json :=
  (Json.parse? r (Json.num x).compact).getD .unreadable

/-- A reader gives a number back from its text. -/
def Returns (r : Rounding) (x : Float) : Prop :=
  Json.parse? r (Json.num x).compact = some (.num x)

theorem returns_iff {r : Rounding} {x : Float} : r.Returns x ↔ r.reread x = .num x := by
  unfold Returns reread
  cases Json.parse? r (Json.num x).compact <;> simp

end PartPlan.Number.Rounding

namespace PartPlan.Json

open Number (Layout Rounding)
open Token (Stops IsInt64)

-- ======================================================== values of a text

/-- The parts of a value are such as a text can denote, or unreadable. -/
inductive Sound : Json → Prop
  | null : Sound .null
  | bool (b : Bool) : Sound (.bool b)
  | int {n : ℤ} (fits : IsInt64 n) : Sound (.int n)
  | num {x : Float} (finite : x.isFinite = true) : Sound (.num x)
  | str (s : String) : Sound (.str s)
  | arr {items : List Json} (each : ∀ v ∈ items, Sound v) : Sound (.arr items)
  | obj {members : List (String × Json)} (each : ∀ m ∈ members, Sound m.2) :
    Sound (.obj members)
  | unreadable : Sound .unreadable

/-- A value that a text can denote. -/
structure Textual (v : Json) : Prop where
  sound : Sound v
  readable : v.readable = true

mutual
/-- How deep the brackets of a value are nested. -/
def depth : Json → ℕ
  | .arr items => itemsDepth items + 1
  | .obj members => membersDepth members + 1
  | _ => 0

/-- The greatest depth among the items of an array. -/
def itemsDepth : List Json → ℕ
  | [] => 0
  | v :: vs => max v.depth (itemsDepth vs)

/-- The greatest depth among the members of an object. -/
def membersDepth : List (String × Json) → ℕ
  | [] => 0
  | (_, v) :: ms => max v.depth (membersDepth ms)
end

mutual
/-- The numbers in a value. -/
def numbers : Json → List Float
  | .num x => [x]
  | .arr items => itemsNumbers items
  | .obj members => membersNumbers members
  | _ => []

/-- The numbers in the items of an array. -/
def itemsNumbers : List Json → List Float
  | [] => []
  | v :: vs => v.numbers ++ itemsNumbers vs

/-- The numbers in the members of an object. -/
def membersNumbers : List (String × Json) → List Float
  | [] => []
  | (_, v) :: ms => v.numbers ++ membersNumbers ms
end

theorem numbers_arr (items : List Json) : (Json.arr items).numbers = items.flatMap numbers := by
  rw [numbers]
  induction items with
  | nil => rfl
  | cons v vs ih => rw [itemsNumbers, ih, List.flatMap_cons]

theorem numbers_obj (members : List (String × Json)) :
    (Json.obj members).numbers = members.flatMap fun m => m.2.numbers := by
  rw [numbers]
  induction members with
  | nil => rfl
  | cons m ms ih =>
    obtain ⟨k, v⟩ := m
    rw [membersNumbers, ih, List.flatMap_cons]

/-- The numbers that a text can denote are finite. -/
theorem Sound.isFinite_of_mem {v : Json} (h : Sound v) : ∀ x ∈ v.numbers, x.isFinite = true := by
  induction h with
  | num finite => exact List.forall_mem_singleton.2 finite
  | arr _ ih =>
    rw [numbers_arr]
    intro x hx
    obtain ⟨v, hv, hx⟩ := List.mem_flatMap.1 hx
    exact ih v hv x hx
  | obj _ ih =>
    rw [numbers_obj]
    intro x hx
    obtain ⟨m, hm, hx⟩ := List.mem_flatMap.1 hx
    exact ih m hm x hx
  | _ => exact List.forall_mem_nil _

theorem readable_arr {items : List Json} :
    (Json.arr items).readable = true ↔ ∀ v ∈ items, v.readable = true := by
  rw [readable]
  induction items with
  | nil => simp [allReadable]
  | cons v vs ih => rw [allReadable, Bool.and_eq_true, ih, List.forall_mem_cons]

theorem readable_obj {members : List (String × Json)} :
    (Json.obj members).readable = true ↔ ∀ m ∈ members, m.2.readable = true := by
  rw [readable]
  induction members with
  | nil => simp [membersReadable]
  | cons m ms ih =>
    obtain ⟨k, v⟩ := m
    rw [membersReadable, Bool.and_eq_true, ih, List.forall_mem_cons]

namespace Textual

theorem null : Textual .null := ⟨.null, rfl⟩

theorem bool (b : Bool) : Textual (.bool b) := ⟨.bool b, rfl⟩

theorem str (s : String) : Textual (.str s) := ⟨.str s, rfl⟩

theorem arr {items : List Json} (each : ∀ v ∈ items, Textual v) : Textual (.arr items) :=
  ⟨.arr fun v hv => (each v hv).sound, readable_arr.2 fun v hv => (each v hv).readable⟩

theorem obj {members : List (String × Json)} (each : ∀ m ∈ members, Textual m.2) :
    Textual (.obj members) :=
  ⟨.obj fun m hm => (each m hm).sound, readable_obj.2 fun m hm => (each m hm).readable⟩

theorem ofFloat (x : Float) : Textual (ofFloat x) := by
  unfold Json.ofFloat
  split
  · next finite => exact ⟨.num finite, rfl⟩
  · exact null

/-- A value that a text can denote has a text of its own. -/
theorem faithful {v : Json} (h : Textual v) : Faithful v := by
  obtain ⟨sound, readable⟩ := h
  induction sound with
  | null => exact .null
  | bool b => exact .bool b
  | int => exact .int _
  | num finite => exact .num finite
  | str s => exact .str s
  | arr _ ih => exact .arr fun v hv => ih v hv (readable_arr.1 readable v hv)
  | obj _ ih => exact .obj fun m hm => ih m hm (readable_obj.1 readable m hm)
  | unreadable => cases readable

end Textual

-- ================================================================== tokens

mutual
/-- The tokens of a value to a reader, in front of others. -/
def tokens (r : Rounding) : Json → List Token → List Token
  | .null, ts => .scalar .null :: ts
  | .bool b, ts => .scalar (.bool b) :: ts
  | .int n, ts => .scalar (.int n) :: ts
  | .num x, ts => .scalar (r.reread x) :: ts
  | .str s, ts => .text (some s) :: ts
  | .arr [], ts => .openList :: .closeList :: ts
  | .arr (v :: vs), ts => .openList :: v.tokens r (itemTokens r vs ts)
  | .obj [], ts => .openRecord :: .closeRecord :: ts
  | .obj ((k, v) :: ms), ts =>
    .openRecord :: .text (some k) :: .colon :: v.tokens r (memberTokens r ms ts)
  | .unreadable, ts => .scalar .null :: ts

/-- The tokens of the items after the first, and of the closing bracket. -/
def itemTokens (r : Rounding) : List Json → List Token → List Token
  | [], ts => .closeList :: ts
  | v :: vs, ts => .comma :: v.tokens r (itemTokens r vs ts)

/-- The tokens of the members after the first, and of the closing brace. -/
def memberTokens (r : Rounding) : List (String × Json) → List Token → List Token
  | [], ts => .closeRecord :: ts
  | (k, v) :: ms, ts => .comma :: .text (some k) :: .colon :: v.tokens r (memberTokens r ms ts)
end

section Scanning

variable {r : Rounding} {cs rest : List Char} {t : Token} {v : Json} {d : ℕ} {sp : Spacing}

theorem next?_of_isSpace {c : Char} (blank : Token.isSpace c = true) :
    Token.next? r (c :: cs) = none := by
  have either : c = ' ' ∨ c = '\n' ∨ c = '\r' ∨ c = '\t' := by
    simpa [Token.isSpace, or_assoc] using blank
  rcases either with rfl | rfl | rfl | rfl <;> rfl

theorem scan_of_next? (found : Token.next? r cs = some (t, rest)) :
    Token.scan r cs = (Token.scan r rest).map (t :: ·) := by
  cases cs with
  | nil => cases found
  | cons c cs =>
    have visible : ¬Token.isSpace c = true := by
      intro blank
      rw [next?_of_isSpace blank] at found
      cases found
    rw [Token.scan, if_neg visible]
    split
    · next none =>
      rw [found] at none
      cases none
    · next t' rest' found' =>
      rw [found] at found'
      cases found'
      rfl

/-- Blanks in front of a text are skipped. -/
theorem scan_blanks {blanks : List Char} (blank : ∀ c ∈ blanks, Token.isSpace c = true)
    (cs : List Char) : Token.scan r (blanks ++ cs) = Token.scan r cs := by
  induction blanks with
  | nil => rfl
  | cons c blanks ih =>
    obtain ⟨here, later⟩ := List.forall_mem_cons.1 blank
    rw [List.cons_append, Token.scan, if_pos here, ih later]

/-- A number is a token by itself. -/
theorem next?_of_literal? {l : Number.Literal} (read : Token.literal? cs = some (l, rest)) :
    Token.next? r cs = some (.scalar (Token.literalValue r l), rest) := by
  unfold Token.next?
  split
  case h_11 => rw [read, Option.map_some]
  -- no number starts as any other token does
  all_goals cases read

theorem scan_nil : Token.scan r [] = some [] := by rw [Token.scan]

/-- What a reader makes of a number is the value of its literal. -/
theorem reread_of_literal? {x : Float} {l : Number.Literal}
    (read : Token.literal? (Layout.json.chars x) = some (l, [])) :
    r.reread x = Token.literalValue r l := by
  unfold Rounding.reread parse?
  rw [show (Json.num x).compact.toList = Layout.json.chars x by simp [compact, write],
    scan_of_next? (next?_of_literal? read), scan_nil]
  rfl

theorem reread_eq_num {x y : Float} {l : Number.Literal}
    (read : Token.literal? (Layout.json.chars x) = some (l, [])) (noInteger : l.toInt64? = none)
    (rounded : r.round l = some y) : r.reread x = .num y := by
  rw [reread_of_literal? read, Token.literalValue, noInteger]
  dsimp only
  rw [rounded, Option.map_some, Option.getD_some]

/-- The text of a number is one token, whatever follows it. -/
theorem next?_chars (r : Rounding) {x : Float} (finite : x.isFinite = true) (stops : Stops rest) :
    Token.next? r (Layout.json.chars x ++ rest) = some (.scalar (r.reread x), rest) := by
  obtain ⟨l, read, -⟩ := Token.literal?_chars finite
  rw [reread_of_literal? (Token.literal?_alone read)]
  exact next?_of_literal? (read rest stops)

theorem next?_stringChars (s : String) (rest : List Char) :
    Token.next? r (stringChars s ++ rest) = some (.text (some s), rest) := by
  have body := Token.string?_flatMap s rest
  show Token.next? r ('"' :: (s.toList.flatMap escapeChar ++ ['"'] ++ rest)) = _
  rw [List.append_assoc]
  show (Token.string? (s.toList.flatMap escapeChar ++ '"' :: rest)).map _ = _
  rw [body]
  rfl

/-- What a scanner finds in a text that starts with the value are its tokens. -/
def Scans (r : Rounding) (sp : Spacing) (v : Json) : Prop :=
  ∀ (d : ℕ) (rest : List Char), Stops rest →
    Token.scan r (v.write sp d rest) = (Token.scan r rest).map (v.tokens r)

theorem scan_writeItems (blank : sp.Blank) {vs : List Json} (each : ∀ v ∈ vs, Scans r sp v) :
    Token.scan r (writeItems sp d vs rest) = (Token.scan r rest).map (itemTokens r vs) := by
  induction vs with
  | nil =>
    have close : Token.next? r (']' :: rest) = some (.closeList, rest) := rfl
    rw [writeItems, scan_blanks (blank.gap d), scan_of_next? close]
    rfl
  | cons v vs ih =>
    obtain ⟨here, later⟩ := List.forall_mem_cons.1 each
    have comma (cs : List Char) : Token.next? r (',' :: cs) = some (.comma, cs) := rfl
    rw [writeItems, scan_of_next? (comma _), scan_blanks (blank.gap (d + 1)),
      here _ _ (stops_writeItems blank _ _ _), ih later, Option.map_map, Option.map_map]
    rfl

/-- A key and its colon are two tokens. -/
theorem scan_key (blank : sp.Blank) (k : String) (cs : List Char) :
    Token.scan r (stringChars k ++ ':' :: (sp.afterColon ++ cs))
      = (Token.scan r cs).map fun ts => .text (some k) :: .colon :: ts := by
  have colon (cs : List Char) : Token.next? r (':' :: cs) = some (.colon, cs) := rfl
  rw [scan_of_next? (next?_stringChars k _), scan_of_next? (colon _),
    scan_blanks blank.afterColon, Option.map_map]
  rfl

theorem scan_writeMembers (blank : sp.Blank) {ms : List (String × Json)}
    (each : ∀ m ∈ ms, Scans r sp m.2) :
    Token.scan r (writeMembers sp d ms rest) = (Token.scan r rest).map (memberTokens r ms) := by
  induction ms with
  | nil =>
    have close : Token.next? r ('\x7d' :: rest) = some (.closeRecord, rest) := rfl
    rw [writeMembers, scan_blanks (blank.gap d), scan_of_next? close]
    rfl
  | cons m ms ih =>
    obtain ⟨k, v⟩ := m
    obtain ⟨here, later⟩ := List.forall_mem_cons.1 each
    replace here : Scans r sp v := here
    have comma (cs : List Char) : Token.next? r (',' :: cs) = some (.comma, cs) := rfl
    rw [writeMembers, scan_of_next? (comma _), scan_blanks (blank.gap (d + 1)),
      scan_key blank, here _ _ (stops_writeMembers blank _ _ _), ih later, Option.map_map,
      Option.map_map, Option.map_map]
    rfl

theorem scans_arr (blank : sp.Blank) {items : List Json} (each : ∀ v ∈ items, Scans r sp v) :
    Scans r sp (.arr items) := by
  intro d rest _
  have opening (cs : List Char) : Token.next? r ('[' :: cs) = some (.openList, cs) := rfl
  cases items with
  | nil =>
    have close : Token.next? r (']' :: rest) = some (.closeList, rest) := rfl
    rw [write, scan_of_next? (opening _), scan_of_next? close, Option.map_map]
    rfl
  | cons v vs =>
    obtain ⟨here, later⟩ := List.forall_mem_cons.1 each
    rw [write, scan_of_next? (opening _), scan_blanks (blank.gap (d + 1)),
      here _ _ (stops_writeItems blank _ _ _), scan_writeItems blank later, Option.map_map,
      Option.map_map]
    rfl

theorem scans_obj (blank : sp.Blank) {members : List (String × Json)}
    (each : ∀ m ∈ members, Scans r sp m.2) : Scans r sp (.obj members) := by
  intro d rest _
  have opening (cs : List Char) : Token.next? r ('\x7b' :: cs) = some (.openRecord, cs) := rfl
  cases members with
  | nil =>
    have close : Token.next? r ('\x7d' :: rest) = some (.closeRecord, rest) := rfl
    rw [write, scan_of_next? (opening _), scan_of_next? close, Option.map_map]
    rfl
  | cons m ms =>
    obtain ⟨k, v⟩ := m
    obtain ⟨here, later⟩ := List.forall_mem_cons.1 each
    replace here : Scans r sp v := here
    rw [write, scan_of_next? (opening _), scan_blanks (blank.gap (d + 1)), scan_key blank,
      here _ _ (stops_writeMembers blank _ _ _), scan_writeMembers blank later, Option.map_map,
      Option.map_map, Option.map_map]
    rfl

theorem Textual.scans (h : Textual v) (blank : sp.Blank) : Scans r sp v := by
  obtain ⟨sound, readable⟩ := h
  induction sound with
  | null => exact fun _ _ _ => scan_of_next? rfl
  | bool b =>
    cases b with
    | true => exact fun _ _ _ => scan_of_next? rfl
    | false => exact fun _ _ _ => scan_of_next? rfl
  | @int n fits =>
    intro d rest stops
    have found := next?_of_literal? (r := r) (Token.literal?_intChars n stops)
    rw [Token.literalValue_int r fits] at found
    exact scan_of_next? found
  | num finite => exact fun d rest stops => scan_of_next? (next?_chars r finite stops)
  | str s => exact fun _ rest _ => scan_of_next? (next?_stringChars s rest)
  | arr _ ih => exact scans_arr blank fun v hv => ih v hv (readable_arr.1 readable v hv)
  | obj _ ih => exact scans_obj blank fun m hm => ih m hm (readable_obj.1 readable m hm)
  | unreadable => cases readable

end Scanning

-- ======================================================== what is read back

mutual
/-- What a reader makes of a value that is written inside so many brackets: a number
becomes what its text is rounded to, and a bracket that is nested too deep denotes
nothing. -/
def reread (r : Rounding) (outside : ℕ) : Json → Json
  | .num x => r.reread x
  | .arr items => sealed outside (.arr (itemsReread r (outside + 1) items))
  | .obj members => sealed outside (.obj (membersReread r (outside + 1) members))
  | v => v

/-- `reread` on the items of an array. -/
def itemsReread (r : Rounding) (outside : ℕ) : List Json → List Json
  | [] => []
  | v :: vs => v.reread r outside :: itemsReread r outside vs

/-- `reread` on the values of members. -/
def membersReread (r : Rounding) (outside : ℕ) : List (String × Json) → List (String × Json)
  | [] => []
  | (k, v) :: ms => (k, v.reread r outside) :: membersReread r outside ms
end

section Rereading

variable {r : Rounding} {v : Json} {n : ℕ}

theorem itemsReread_eq (r : Rounding) (n : ℕ) (items : List Json) :
    itemsReread r n items = items.map (reread r n) := by
  induction items with
  | nil => rw [itemsReread, List.map_nil]
  | cons v vs ih => rw [itemsReread, ih, List.map_cons]

theorem membersReread_eq (r : Rounding) (n : ℕ) (members : List (String × Json)) :
    membersReread r n members = members.map fun m => (m.1, m.2.reread r n) := by
  induction members with
  | nil => rw [membersReread, List.map_nil]
  | cons m ms ih =>
    obtain ⟨k, v⟩ := m
    rw [membersReread, ih, List.map_cons]

theorem sealed_of_lt (shallow : n < maxDepth) : sealed n v = v := if_neg (not_le.2 shallow)

theorem sealed_of_le (deep : maxDepth ≤ n) : sealed n v = .unreadable := if_pos deep

theorem reread_arr (r : Rounding) (shallow : n < maxDepth) (items : List Json) :
    (Json.arr items).reread r n = .arr (items.map (reread r (n + 1))) := by
  rw [reread, sealed_of_lt shallow, itemsReread_eq]

theorem reread_obj (r : Rounding) (shallow : n < maxDepth) (members : List (String × Json)) :
    (Json.obj members).reread r n = .obj (members.map fun m => (m.1, m.2.reread r (n + 1))) := by
  rw [reread, sealed_of_lt shallow, membersReread_eq]

theorem itemsDepth_le {items : List Json} {n : ℕ} :
    itemsDepth items ≤ n ↔ ∀ v ∈ items, v.depth ≤ n := by
  induction items with
  | nil => simp [itemsDepth]
  | cons v vs ih => rw [itemsDepth, max_le_iff, ih, List.forall_mem_cons]

theorem membersDepth_le {members : List (String × Json)} {n : ℕ} :
    membersDepth members ≤ n ↔ ∀ m ∈ members, m.2.depth ≤ n := by
  induction members with
  | nil => simp [membersDepth]
  | cons m ms ih =>
    obtain ⟨k, v⟩ := m
    rw [membersDepth, max_le_iff, ih, List.forall_mem_cons]

theorem depth_arr_le {items : List Json} :
    (Json.arr items).depth ≤ n + 1 ↔ ∀ v ∈ items, v.depth ≤ n := by
  rw [depth, Nat.add_le_add_iff_right, itemsDepth_le]

theorem depth_obj_le {members : List (String × Json)} :
    (Json.obj members).depth ≤ n + 1 ↔ ∀ m ∈ members, m.2.depth ≤ n := by
  rw [depth, Nat.add_le_add_iff_right, membersDepth_le]

/-- In few enough brackets nothing is lost, if the numbers are given back. -/
theorem Sound.reread_eq_self (h : Sound v) (shallow : n + v.depth ≤ maxDepth)
    (returned : ∀ x ∈ v.numbers, r.Returns x) : v.reread r n = v := by
  induction h generalizing n with
  | num finite => exact Rounding.returns_iff.1 (returned _ (List.mem_singleton_self _))
  | @arr items _ ih =>
    rw [depth] at shallow
    rw [numbers_arr] at returned
    have each : ∀ v ∈ items, n + 1 + v.depth ≤ maxDepth := by
      intro v hv
      have := itemsDepth_le.1 (le_refl _) v hv
      omega
    rw [reread_arr r (by omega)]
    refine congrArg Json.arr ((List.map_congr_left fun v hv => ?_).trans (List.map_id _))
    exact ih v hv (each v hv) fun x hx => returned x (List.mem_flatMap_of_mem hv hx)
  | @obj members _ ih =>
    rw [depth] at shallow
    rw [numbers_obj] at returned
    have each : ∀ m ∈ members, n + 1 + m.2.depth ≤ maxDepth := by
      intro m hm
      have := membersDepth_le.1 (le_refl _) m hm
      omega
    rw [reread_obj r (by omega)]
    refine congrArg Json.obj ((List.map_congr_left fun m hm => ?_).trans (List.map_id _))
    rw [ih m hm (each m hm) fun x hx => returned x (List.mem_flatMap_of_mem hm hx)]
    rfl
  | _ => rfl

/-- Nothing is lost only in few enough brackets, whatever becomes of the numbers. -/
theorem Sound.depth_le_of_readable (h : Sound v) (inside : n ≤ maxDepth)
    (readable : (v.reread r n).readable = true) : n + v.depth ≤ maxDepth := by
  induction h generalizing n with
  | @arr items _ ih =>
    by_cases shallow : n < maxDepth
    · rw [reread_arr r shallow, readable_arr, List.forall_mem_map] at readable
      have each : ∀ v ∈ items, v.depth ≤ maxDepth - (n + 1) := by
        intro v hv
        have deepest : n + 1 + v.depth ≤ maxDepth := ih v hv shallow (readable v hv)
        omega
      rw [depth]
      have := itemsDepth_le.2 each
      omega
    · rw [reread, sealed_of_le (not_lt.1 shallow)] at readable
      cases readable
  | @obj members _ ih =>
    by_cases shallow : n < maxDepth
    · rw [reread_obj r shallow, readable_obj, List.forall_mem_map] at readable
      have each : ∀ m ∈ members, m.2.depth ≤ maxDepth - (n + 1) := by
        intro m hm
        have deepest : n + 1 + m.2.depth ≤ maxDepth := ih m hm shallow (readable m hm)
        omega
      rw [depth]
      have := membersDepth_le.2 each
      omega
    · rw [reread, sealed_of_le (not_lt.1 shallow)] at readable
      cases readable
  | _ => exact inside

end Rereading

-- ============================================================= token by token

/-- Where a value may begin. -/
def Place.Begins (p : Place) : Prop := p = .value ∨ p = .listStart

section Reading

variable {r : Rounding} {frames : List Frame} {p : Place} {v : Json} {ts : List Token}

/-- Of the tokens of a value where one may begin, the reader makes what the value is to
it. -/
def ReadsBack (r : Rounding) (v : Json) : Prop :=
  ∀ (frames : List Frame) (p : Place) (ts : List Token), p.Begins →
    Reading.run? ⟨frames, p⟩ (v.tokens r ts)
      = Reading.run? ⟨frames, .after (v.reread r frames.length)⟩ ts

theorem run?_itemTokens {vs items : List Json} (each : ∀ v ∈ vs, ReadsBack r v) :
    Reading.run? ⟨.list items :: frames, .after v⟩ (itemTokens r vs ts)
      = Reading.run? ⟨frames, .after (sealed frames.length
        (.arr (items.reverse ++ v :: itemsReread r (frames.length + 1) vs)))⟩ ts := by
  induction vs generalizing v items with
  | nil =>
    show Reading.run? ⟨frames, .after (closedList frames.length (v :: items))⟩ ts = _
    rw [closedList, List.reverse_cons]
    rfl
  | cons w vs ih =>
    obtain ⟨here, later⟩ := List.forall_mem_cons.1 each
    show Reading.run? ⟨.list (v :: items) :: frames, .value⟩ (w.tokens r (itemTokens r vs ts)) = _
    rw [here _ _ _ (.inl rfl), ih later, List.reverse_cons, List.append_assoc]
    rfl

theorem namedMembers?_map (ms : List (String × Json)) :
    namedMembers? (ms.map fun m => (some m.1, m.2)) = some ms := by
  unfold namedMembers?
  induction ms with
  | nil => rfl
  | cons m ms ih =>
    rw [List.map_cons, List.mapM_cons, ih]
    rfl

theorem run?_memberTokens {ms : List (String × Json)} {k : String}
    (before : List (String × Json)) (each : ∀ m ∈ ms, ReadsBack r m.2) :
    Reading.run? ⟨.record (before.map fun m => (some m.1, m.2)) (some k) :: frames, .after v⟩
        (memberTokens r ms ts)
      = Reading.run? ⟨frames, .after (sealed frames.length
        (.obj (before.reverse ++ (k, v) :: membersReread r (frames.length + 1) ms)))⟩ ts := by
  induction ms generalizing v k before with
  | nil =>
    have members : namedMembers? ((some k, v) :: before.map fun m => (some m.1, m.2)).reverse
        = some (before.reverse ++ [(k, v)]) := by
      rw [← namedMembers?_map, List.map_append, List.map_reverse, List.reverse_cons]
      rfl
    show Reading.run? ⟨frames, .after (closedRecord frames.length
      ((some k, v) :: before.map fun m => (some m.1, m.2)))⟩ ts = _
    rw [closedRecord, members]
    rfl
  | cons m ms ih =>
    obtain ⟨l, w⟩ := m
    obtain ⟨here, later⟩ := List.forall_mem_cons.1 each
    replace here : ReadsBack r w := here
    show Reading.run? ⟨.record (((k, v) :: before).map fun m => (some m.1, m.2)) (some l) :: frames,
      .value⟩ (w.tokens r (memberTokens r ms ts)) = _
    rw [here _ _ _ (.inl rfl), ih _ later, List.reverse_cons, List.append_assoc]
    rfl

theorem readsBack_arr {items : List Json} (each : ∀ v ∈ items, ReadsBack r v) :
    ReadsBack r (.arr items) := by
  intro frames p ts begins
  cases items with
  | nil => rcases begins with rfl | rfl <;> rfl
  | cons v vs =>
    obtain ⟨here, later⟩ := List.forall_mem_cons.1 each
    have opened : Reading.run? ⟨frames, p⟩ ((Json.arr (v :: vs)).tokens r ts)
        = Reading.run? ⟨.list [] :: frames, .listStart⟩ (v.tokens r (itemTokens r vs ts)) := by
      rcases begins with rfl | rfl <;> rfl
    rw [opened, here _ _ _ (.inr rfl), run?_itemTokens later]
    rfl

theorem readsBack_obj {members : List (String × Json)} (each : ∀ m ∈ members, ReadsBack r m.2) :
    ReadsBack r (.obj members) := by
  intro frames p ts begins
  cases members with
  | nil => rcases begins with rfl | rfl <;> rfl
  | cons m ms =>
    obtain ⟨k, v⟩ := m
    obtain ⟨here, later⟩ := List.forall_mem_cons.1 each
    replace here : ReadsBack r v := here
    have opened : Reading.run? ⟨frames, p⟩ ((Json.obj ((k, v) :: ms)).tokens r ts)
        = Reading.run? ⟨.record [] (some k) :: frames, .value⟩ (v.tokens r (memberTokens r ms ts)) := by
      rcases begins with rfl | rfl <;> rfl
    rw [opened, here _ _ _ (.inl rfl)]
    exact run?_memberTokens [] later

theorem Faithful.readsBack (h : Faithful v) : ReadsBack r v := by
  induction h with
  | arr _ ih => exact readsBack_arr ih
  | obj _ ih => exact readsBack_obj ih
  | _ =>
    intro frames p ts begins
    rcases begins with rfl | rfl <;> rfl

end Reading

-- ================================================================ documents

variable {v : Json}

mutual
/-- What is written in front of a text does not depend on how it goes on. -/
theorem write_append (sp : Spacing) (d : ℕ) (v : Json) (rest rest' : List Char) :
    v.write sp d (rest ++ rest') = v.write sp d rest ++ rest' := by
  cases v with
  | bool b => cases b <;> simp [write]
  | arr items =>
    cases items with
    | nil => simp [write]
    | cons v vs => simp [write, writeItems_append sp d vs, write_append sp (d + 1) v]
  | obj members =>
    cases members with
    | nil => simp [write]
    | cons m ms =>
      obtain ⟨k, v⟩ := m
      simp [write, writeMembers_append sp d ms, write_append sp (d + 1) v]
  | _ => simp [write]

theorem writeItems_append (sp : Spacing) (d : ℕ) (vs : List Json) (rest rest' : List Char) :
    writeItems sp d vs (rest ++ rest') = writeItems sp d vs rest ++ rest' := by
  cases vs with
  | nil => simp [writeItems]
  | cons v vs => simp [writeItems, writeItems_append sp d vs, write_append sp (d + 1) v]

theorem writeMembers_append (sp : Spacing) (d : ℕ) (ms : List (String × Json))
    (rest rest' : List Char) :
    writeMembers sp d ms (rest ++ rest') = writeMembers sp d ms rest ++ rest' := by
  cases ms with
  | nil => simp [writeMembers]
  | cons m ms =>
    obtain ⟨k, v⟩ := m
    simp [writeMembers, writeMembers_append sp d ms, write_append sp (d + 1) v]
end

/-- A text of a value with blanks after it is read as what the value is to a
reader. -/
theorem parse?_write (r : Rounding) {sp : Spacing} (blank : sp.Blank) (h : Textual v)
    {blanks : List Char} (ends : ∀ c ∈ blanks, Token.isSpace c = true) :
    parse? r (String.ofList (v.write sp 0 [] ++ blanks)) = some (v.reread r 0) := by
  have nothing : Token.scan r blanks = some [] := by
    have skipped := scan_blanks (r := r) ends []
    rw [List.append_nil] at skipped
    rw [skipped, scan_nil]
  have stops : Stops blanks := by
    have none : Stops (blanks ++ []) := stops_blanks ends (by simp [Stops])
    rwa [List.append_nil] at none
  have scanned : Token.scan r (v.write sp 0 [] ++ blanks) = some (v.tokens r []) := by
    rw [← write_append, List.nil_append, h.scans blank 0 blanks stops, nothing, Option.map_some]
  have read := h.faithful.readsBack (r := r) [] .value [] (.inl rfl)
  unfold parse? ofTokens?
  rw [String.toList_ofList, scanned]
  show (Reading.run? ⟨[], .value⟩ (v.tokens r [])).bind Reading.result? = _
  rw [read]
  rfl

theorem parse?_compact (r : Rounding) (h : Textual v) :
    parse? r v.compact = some (v.reread r 0) := by
  have read := parse?_write r .compact h (List.forall_mem_nil _)
  rwa [List.append_nil] at read

theorem Spacing.Blank.indented : Spacing.indented.Blank where
  gap d := by
    refine List.forall_mem_cons.2 ⟨rfl, fun c hc => ?_⟩
    rw [List.eq_of_mem_replicate hc]
    rfl
  afterColon := List.forall_mem_singleton.2 rfl

/-- An indented text on lines of its own denotes what the compact one does. -/
theorem parse?_indented (r : Rounding) (h : Textual v) :
    parse? r (v.indented ++ "\n") = some (v.reread r 0) := by
  have lines : v.indented ++ "\n" = String.ofList (v.write .indented 0 [] ++ ['\n']) := by
    rw [String.ofList_append]
    rfl
  rw [lines, parse?_write r .indented h (List.forall_mem_singleton.2 rfl)]

end PartPlan.Json

namespace PartPlan.Number.Rounding

/-- Rounding to the nearest number gives every finite number back, bit for bit. -/
theorem nearest_returns {x : Float} (finite : x.isFinite = true) : nearest.Returns x := by
  obtain ⟨l, read, stands⟩ := Json.Token.literal?_chars finite
  rw [returns_iff, Json.reread_of_literal? (Json.Token.literal?_alone read),
    Json.Token.literalValue_of_standsFor finite stands]

theorem nearest_returns_all {v : Json} (sound : v.Sound) : ∀ x ∈ v.numbers, nearest.Returns x :=
  fun x hx => nearest_returns (sound.isFinite_of_mem x hx)

end PartPlan.Number.Rounding
