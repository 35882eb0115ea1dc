/-
Blank characters and trimming. Blank means the White_Space property of the
Unicode standard, which is wider than the ASCII blanks.
-/
namespace PartPlan.Text

/-- The White_Space characters. -/
def isBlank (c : Char) : Bool :=
  let n := c.toNat
  (9 ≤ n && n ≤ 13) || n == 0x20 || n == 0x85 || n == 0xA0 || n == 0x1680
    || (0x2000 ≤ n && n ≤ 0x200A) || n == 0x2028 || n == 0x2029 || n == 0x202F
    || n == 0x205F || n == 0x3000

/-- A text without the blanks at its start. -/
def dropBlanks (cs : List Char) : List Char := cs.dropWhile isBlank

/-- A text without the blanks at its two ends. -/
def trimChars (cs : List Char) : List Char := (dropBlanks (dropBlanks cs).reverse).reverse

/-- A text without the blanks at its two ends. -/
def trim (s : String) : String := String.ofList (trimChars s.toList)

/-- Whether a text is empty or holds blanks only. -/
def isBlankText (s : String) : Bool := s.toList.all isBlank

theorem dropBlanks_eq_nil {cs : List Char} : dropBlanks cs = [] ↔ ∀ c ∈ cs, isBlank c = true := by
  unfold dropBlanks
  induction cs with
  | nil => simp
  | cons c cs ih =>
    rw [List.dropWhile_cons, List.forall_mem_cons]
    split
    · next blank => rw [ih, and_iff_right blank]
    · next kept => simp [kept]

/-- The blank texts are those of which trimming leaves nothing. -/
theorem trim_eq_empty {s : String} : trim s = "" ↔ isBlankText s = true := by
  have start : isBlankText s = true ↔ dropBlanks s.toList = [] := by
    rw [isBlankText, List.all_eq_true, dropBlanks_eq_nil]
  unfold trim trimChars
  rw [start, show "" = String.ofList [] from rfl, String.ofList_inj, List.reverse_eq_nil_iff,
    dropBlanks_eq_nil]
  simp only [List.mem_reverse]
  constructor
  · intro h
    cases e : dropBlanks s.toList with
    | nil => rfl
    | cons c cs =>
      -- the first character that is kept would be blank
      have first := List.head?_dropWhile_not isBlank s.toList
      rw [← dropBlanks, e, List.head?_cons] at first
      have blank := h c (by rw [e]; exact List.mem_cons_self)
      simp [blank] at first
  · intro h
    rw [h]
    exact fun _ hc => absurd hc List.not_mem_nil

/-- A text with the ASCII capitals made small. -/
def lowerAscii (s : String) : String := String.ofList (s.toList.map Char.toLower)

end PartPlan.Text
