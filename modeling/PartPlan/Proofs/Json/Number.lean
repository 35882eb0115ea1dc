/-
Written numbers read back. In front of anything that does not go on with a
number, the text of a number is one literal: for an integer the integer itself,
and for a binary64 number a literal with its sign whose quantity rounds to it.
A literal that is not whole is never that of an integer, so the two kinds of
numbers are told apart by their texts.
-/
import Mathlib.Tactic.IntervalCases
import PartPlan.Json.Printer
import PartPlan.Json.Token
import PartPlan.Proofs.Number.Rounding

namespace PartPlan

/-- The quantity of a literal without its sign. -/
def Number.Literal.magnitude (l : Number.Literal) : ℚ := l.digits * 10 ^ l.exponent

namespace Json.Token

open Number

-- ================================================================= digits

/-- All characters are decimal digits. -/
def AllDigits (ds : List Char) : Prop := ∀ c ∈ ds, isDigit c = true

/-- A text that does not go on with a number. -/
def Stops (rest : List Char) : Prop :=
  ∀ c ∈ rest.head?, isDigit c = false ∧ c ≠ '.' ∧ c ≠ 'e' ∧ c ≠ 'E'

theorem isDigit_eq (c : Char) : isDigit c = c.isDigit := rfl

theorem allDigits_digitChars (n : ℕ) : AllDigits (digitChars n) := by
  intro c hc
  rw [isDigit_eq]
  exact Nat.isDigit_of_mem_toDigits (by decide) (by decide) hc

theorem allDigits_append {ds es : List Char} :
    AllDigits (ds ++ es) ↔ AllDigits ds ∧ AllDigits es := by
  unfold AllDigits
  rw [List.forall_mem_append]

theorem allDigits_replicate (n : ℕ) : AllDigits (List.replicate n '0') := by
  intro c hc
  rw [List.eq_of_mem_replicate hc]
  rfl

theorem allDigits_zero : AllDigits ['0'] := allDigits_replicate 1

theorem digitsValue_eq (ds : List Char) : digitsValue ds = Nat.ofDigitChars 10 ds 0 := by
  unfold digitsValue Nat.ofDigitChars
  simp only [Nat.mul_comm]

theorem digitsValue_digitChars (n : ℕ) : digitsValue (digitChars n) = n := by
  rw [digitsValue_eq]
  exact Nat.ofDigitChars_ten_toDigits

theorem digitsValue_append_replicate (ds : List Char) (n : ℕ) :
    digitsValue (ds ++ List.replicate n '0') = digitsValue ds * 10 ^ n := by
  rw [digitsValue_eq, digitsValue_eq, Nat.ofDigitChars_append, Nat.ofDigitChars_replicate_zero,
    Nat.mul_comm]

theorem digitsValue_replicate_append (n : ℕ) (ds : List Char) :
    digitsValue (List.replicate n '0' ++ ds) = digitsValue ds := by
  rw [digitsValue_eq, digitsValue_eq, Nat.ofDigitChars_append, Nat.ofDigitChars_replicate_zero,
    Nat.mul_zero]

/-- A run of digits ends where something else begins. -/
theorem digitRun_append {ds rest : List Char} (digits : AllDigits ds)
    (stop : ∀ c ∈ rest.head?, isDigit c = false) : digitRun (ds ++ rest) = (ds, rest) := by
  unfold digitRun
  rw [List.takeWhile_append_of_pos digits, List.dropWhile_append_of_pos digits]
  cases rest with
  | nil => simp
  | cons c cs =>
    have := stop c rfl
    simp [this]

theorem digitChars_ne_nil (n : ℕ) : digitChars n ≠ [] := Nat.toDigits_ne_nil

/-- Digits of a number above zero start with no zero. -/
theorem head?_digitChars {n : ℕ} (positive : n ≠ 0) : (digitChars n).head? ≠ some '0' := by
  induction n using Nat.strongRecOn with
  | ind n ih =>
    unfold digitChars
    by_cases small : n < 10
    · rw [Nat.toDigits_of_lt_base small]
      interval_cases n
      · exact absurd rfl positive
      all_goals decide
    · have split : Nat.toDigits 10 n = digitChars (n / 10) ++ Nat.toDigits 10 (n % 10) := by
        conv_lhs => rw [← Nat.div_add_mod n 10]
        exact (Nat.toDigits_append_toDigits (by decide) (by omega) (by omega)).symm
      rw [split, List.head?_append_of_ne_nil _ (digitChars_ne_nil _)]
      exact ih (n / 10) (by omega) (by omega)

-- ============================================================== the parts

section Parts

variable {ds rest : List Char}

/-- A whole part: one digit, or digits that start with no zero. -/
theorem wholePart?_append (digits : AllDigits ds) (given : ds ≠ [])
    (start : ds.head? = some '0' → ds = ['0']) (stop : ∀ c ∈ rest.head?, isDigit c = false) :
    wholePart? (ds ++ rest) = some (ds, rest) := by
  unfold wholePart?
  rw [digitRun_append digits stop]
  refine if_neg ?_
  rintro (missing | ⟨zero, more⟩)
  · exact given missing
  · exact more (start zero)

theorem fractionPart?_append (digits : AllDigits ds) (given : ds ≠ [])
    (stop : ∀ c ∈ rest.head?, isDigit c = false) :
    fractionPart? ('.' :: (ds ++ rest)) = some (some ds, rest) := by
  rw [fractionPart?, digitRun_append digits stop]
  refine if_neg ?_
  rw [List.isEmpty_iff]
  exact given

theorem fractionPart?_none (stop : ∀ c ∈ rest.head?, c ≠ '.') :
    fractionPart? rest = some (none, rest) := by
  unfold fractionPart?
  split
  · exact absurd rfl (stop '.' rfl)
  · rfl

theorem exponentPart?_none (stop : ∀ c ∈ rest.head?, c ≠ 'e' ∧ c ≠ 'E') :
    exponentPart? rest = some (none, rest) := by
  unfold exponentPart?
  split
  case h_7 => rfl
  all_goals exact absurd (stop _ rfl) (by decide)

theorem exponentDigits?_append (negative : Bool) (n : ℕ)
    (stop : ∀ c ∈ rest.head?, isDigit c = false) :
    exponentDigits? (digitChars n ++ rest) negative
      = some (some (if negative then -(n : ℤ) else n), rest) := by
  unfold exponentDigits?
  rw [digitRun_append (allDigits_digitChars n) stop]
  dsimp only
  rw [if_neg (by rw [List.isEmpty_iff]; exact digitChars_ne_nil n), digitsValue_digitChars]

theorem exponentPart?_append (e : ℤ) (stop : ∀ c ∈ rest.head?, isDigit c = false) :
    exponentPart? ('e' :: (if e < 0 then '-' else '+') :: (digitChars e.natAbs ++ rest))
      = some (some e, rest) := by
  by_cases negative : e < 0
  · rw [if_pos negative]
    refine (exponentDigits?_append true e.natAbs stop).trans ?_
    rw [if_pos rfl, Int.ofNat_natAbs_of_nonpos negative.le, neg_neg]
  · rw [if_neg negative]
    refine (exponentDigits?_append false e.natAbs stop).trans ?_
    rw [if_neg Bool.false_ne_true, Int.natAbs_of_nonneg (not_lt.1 negative)]

end Parts

-- ============================================================= magnitudes

theorem Stops.digit {rest : List Char} (h : Stops rest) : ∀ c ∈ rest.head?, isDigit c = false :=
  fun c hc => (h c hc).1

theorem Stops.point {rest : List Char} (h : Stops rest) : ∀ c ∈ rest.head?, c ≠ '.' :=
  fun c hc => (h c hc).2.1

theorem Stops.exponent {rest : List Char} (h : Stops rest) : ∀ c ∈ rest.head?, c ≠ 'e' ∧ c ≠ 'E' :=
  fun c hc => (h c hc).2.2

section Magnitudes

variable (negative : Bool) {whole fraction rest : List Char}

/-- Digits alone. -/
theorem magnitude?_digits (n : ℕ) (stops : Stops rest) :
    magnitude? negative (digitChars n ++ rest) = some (⟨negative, n, 0, 0, true⟩, rest) := by
  have start : (digitChars n).head? = some '0' → digitChars n = ['0'] := by
    intro zero
    by_cases positive : n = 0
    · rw [positive]
      exact Nat.toDigits_zero 10
    · exact absurd zero (head?_digitChars positive)
  unfold magnitude?
  rw [wholePart?_append (allDigits_digitChars n) (digitChars_ne_nil n) start stops.digit]
  simp only [Option.bind_eq_bind, Option.bind_some]
  rw [fractionPart?_none stops.point]
  simp only [Option.bind_some]
  rw [exponentPart?_none stops.exponent]
  simp [digitsValue_digitChars]

/-- Digits on both sides of a point. -/
theorem magnitude?_point (digits : AllDigits whole) (given : whole ≠ [])
    (start : whole.head? = some '0' → whole = ['0']) (digits' : AllDigits fraction)
    (given' : fraction ≠ []) (stops : Stops rest) :
    magnitude? negative (whole ++ '.' :: fraction ++ rest)
      = some (⟨negative, digitsValue (whole ++ fraction), -fraction.length, fraction.length,
        false⟩, rest) := by
  rw [List.append_assoc, List.cons_append]
  unfold magnitude?
  rw [wholePart?_append digits given start (by simp [isDigit])]
  simp only [Option.bind_eq_bind, Option.bind_some]
  rw [fractionPart?_append digits' given' stops.digit]
  simp only [Option.bind_some]
  rw [exponentPart?_none stops.exponent]
  simp

/-- One digit and an exponent. -/
theorem magnitude?_exponent {d : Char} (digit : isDigit d = true) (e : ℤ) (stops : Stops rest) :
    magnitude? negative (d :: 'e' :: (if e < 0 then '-' else '+') :: (digitChars e.natAbs ++ rest))
      = some (⟨negative, digitsValue [d], e, 0, false⟩, rest) := by
  have single : AllDigits [d] := by simpa [AllDigits] using digit
  unfold magnitude?
  rw [← List.singleton_append, wholePart?_append single (by simp) (by simp) (by simp [isDigit])]
  simp only [Option.bind_eq_bind, Option.bind_some]
  rw [fractionPart?_none (by simp)]
  simp only [Option.bind_some]
  rw [exponentPart?_append e stops.digit]
  simp

/-- One digit, more of them behind a point, and an exponent. -/
theorem magnitude?_point_exponent {d : Char} (digit : isDigit d = true)
    (digits : AllDigits fraction) (given : fraction ≠ []) (e : ℤ) (stops : Stops rest) :
    magnitude? negative (d :: '.' :: (fraction
        ++ 'e' :: (if e < 0 then '-' else '+') :: digitChars e.natAbs) ++ rest)
      = some (⟨negative, digitsValue (d :: fraction), e - fraction.length, fraction.length,
        false⟩, rest) := by
  have single : AllDigits [d] := by simpa [AllDigits] using digit
  simp only [List.cons_append, List.append_assoc]
  unfold magnitude?
  rw [← List.singleton_append (l := '.' :: _), wholePart?_append single (by simp) (by simp) (by simp [isDigit])]
  simp only [Option.bind_eq_bind, Option.bind_some]
  rw [fractionPart?_append digits given (by simp [isDigit])]
  simp only [Option.bind_some]
  rw [exponentPart?_append e stops.digit]
  simp

end Magnitudes

-- ======================================================= decimals and numbers

/-- A text is read as a literal with a point or an exponent, of the given sign
and quantity, and as the same one whatever follows it. -/
def ReadsAs (text : List Char) (negative : Bool) (q : ℚ) : Prop :=
  ∃ l : Literal, (∀ rest, Stops rest → magnitude? negative (text ++ rest) = some (l, rest))
    ∧ l.negative = negative ∧ l.whole = false ∧ l.magnitude = q

section Decimals

variable (negative : Bool) {ds : List Char}

/-- Zeros between the point and the digits. -/
theorem readsAs_point_zeros (digits : AllDigits ds) (given : ds ≠ []) (zeros : ℕ) :
    ReadsAs ('0' :: '.' :: (List.replicate zeros '0' ++ ds)) negative
      (digitsValue ds * 10 ^ (-zeros - ds.length : ℤ)) := by
  have behind : AllDigits (List.replicate zeros '0' ++ ds) :=
    allDigits_append.2 ⟨allDigits_replicate _, digits⟩
  have read (rest : List Char) (stops : Stops rest) := magnitude?_point negative allDigits_zero
    (by simp) (by simp) behind (by simp [given]) stops
  refine ⟨_, read, rfl, rfl, ?_⟩
  have same : ['0'] ++ (List.replicate zeros '0' ++ ds) = List.replicate (zeros + 1) '0' ++ ds := rfl
  have places : (-(List.replicate zeros '0' ++ ds).length : ℤ) = -zeros - ds.length := by
    rw [List.length_append, List.length_replicate]
    omega
  rw [Literal.magnitude, same, digitsValue_replicate_append, places]

/-- Zeros between the digits and the point. -/
theorem readsAs_zeros_point (digits : AllDigits ds) (given : ds ≠ []) (start : ds.head? ≠ some '0')
    (zeros : ℕ) :
    ReadsAs (ds ++ List.replicate zeros '0' ++ ['.', '0']) negative
      (digitsValue ds * 10 ^ (zeros : ℤ)) := by
  have whole : AllDigits (ds ++ List.replicate zeros '0') :=
    allDigits_append.2 ⟨digits, allDigits_replicate _⟩
  have read (rest : List Char) (stops : Stops rest) := magnitude?_point negative whole
    (by simp [given]) (fun zero => absurd (List.head?_append_of_ne_nil ds given ▸ zero) start)
    allDigits_zero (by simp) stops
  refine ⟨_, read, rfl, rfl, ?_⟩
  have same : ds ++ List.replicate zeros '0' ++ ['0'] = ds ++ List.replicate (zeros + 1) '0' := by
    rw [List.append_assoc, List.replicate_succ']
  have places : (zeros : ℤ) = ((zeros + 1 : ℕ) : ℤ) + -1 := by omega
  rw [Literal.magnitude, same, digitsValue_append_replicate, places, zpow_add₀ (by norm_num),
    zpow_natCast]
  push_cast
  rw [mul_assoc]
  rfl

/-- The point among the digits. -/
theorem readsAs_point_among (digits : AllDigits ds) (start : ds.head? ≠ some '0') {before : ℕ}
    (positive : 0 < before) (inside : before < ds.length) :
    ReadsAs (ds.take before ++ '.' :: ds.drop before) negative
      (digitsValue ds * 10 ^ (before - ds.length : ℤ)) := by
  have given : ds ≠ [] := List.ne_nil_of_length_pos (by omega)
  have whole : AllDigits (ds.take before) := fun c hc => digits c (List.mem_of_mem_take hc)
  have fraction : AllDigits (ds.drop before) := fun c hc => digits c (List.mem_of_mem_drop hc)
  have read (rest : List Char) (stops : Stops rest) := magnitude?_point negative whole
    (by simp [given, positive.ne'])
    (fun zero => absurd (by rwa [List.head?_take, if_neg positive.ne'] at zero) start)
    fraction (by simpa using inside) stops
  refine ⟨_, read, rfl, rfl, ?_⟩
  have places : (-(ds.drop before).length : ℤ) = before - ds.length := by
    rw [List.length_drop]
    omega
  rw [Literal.magnitude, List.take_append_drop, places]

theorem readsAs_positionalChars (digits : AllDigits ds) (given : ds ≠ [])
    (start : ds.head? ≠ some '0') (point : ℤ) :
    ReadsAs (positionalChars true ds point) negative
      (digitsValue ds * 10 ^ (point - ds.length)) := by
  unfold positionalChars
  by_cases small : point ≤ 0
  · have places : (-point.natAbs - ds.length : ℤ) = point - ds.length := by omega
    rw [if_pos small, ← places]
    exact readsAs_point_zeros negative digits given point.natAbs
  rw [if_neg small]
  by_cases long : ds.length ≤ point.natAbs
  · have zeros : point - ds.length = (point.natAbs - ds.length : ℕ) := by omega
    rw [if_pos long, if_pos rfl, zeros]
    exact readsAs_zeros_point negative digits given start _
  · have places : (point.natAbs - ds.length : ℤ) = point - ds.length := by omega
    rw [if_neg long, ← places]
    exact readsAs_point_among negative digits start (by omega) (by omega)

theorem readsAs_exponentChars (digits : AllDigits ds) (given : ds ≠ []) (leading : ℤ) :
    ReadsAs (exponentChars ds leading) negative
      (digitsValue ds * 10 ^ (leading + 1 - ds.length)) := by
  obtain ⟨d, fraction, rfl⟩ := List.exists_cons_of_ne_nil given
  have digit : isDigit d = true := digits d List.mem_cons_self
  by_cases short : fraction = []
  · obtain rfl := short
    refine ⟨_, fun rest => magnitude?_exponent negative digit leading, rfl, rfl, ?_⟩
    rw [Literal.magnitude, List.length_singleton, Nat.cast_one, add_sub_cancel_right]
  · have text : exponentChars (d :: fraction) leading
        = d :: '.' :: (fraction ++ 'e' :: (if leading < 0 then '-' else '+')
          :: digitChars leading.natAbs) := by
      unfold exponentChars
      cases fraction with
      | nil => exact absurd rfl short
      | cons d' fraction => simp
    have digits' : AllDigits fraction := fun c hc => digits c (List.mem_cons_of_mem _ hc)
    rw [text]
    refine ⟨_, fun rest => magnitude?_point_exponent negative digit digits' short leading,
      rfl, rfl, ?_⟩
    rw [Literal.magnitude, List.length_cons, Nat.cast_succ, add_sub_add_right_eq_sub]

theorem readsAs_decimalChars {d : Decimal} (positive : d.digits ≠ 0) :
    ReadsAs (Layout.json.decimalChars d) negative d.value := by
  have digits := allDigits_digitChars d.digits
  have given := digitChars_ne_nil d.digits
  have inPlace := readsAs_positionalChars negative digits given (head?_digitChars positive)
    ((digitChars d.digits).length + d.exponent)
  have scientific := readsAs_exponentChars negative digits given
    ((digitChars d.digits).length + d.exponent - 1)
  rw [digitsValue_digitChars] at inPlace scientific
  rw [show ((digitChars d.digits).length + d.exponent - (digitChars d.digits).length : ℤ)
    = d.exponent by omega] at inPlace
  rw [show ((digitChars d.digits).length + d.exponent - 1 + 1 - (digitChars d.digits).length : ℤ)
    = d.exponent by omega] at scientific
  have either (shown : Bool) : ReadsAs
      (if shown then positionalChars true (digitChars d.digits)
          ((digitChars d.digits).length + d.exponent)
        else exponentChars (digitChars d.digits) ((digitChars d.digits).length + d.exponent - 1))
      negative d.value := by
    cases shown with
    | true => exact inPlace
    | false => exact scientific
  exact either _

end Decimals

variable {x y : Float} {rest rest' : List Char}

/-- A literal of a number: its quantity rounds to the number. -/
structure StandsFor (l : Literal) (x : Float) : Prop where
  negative : l.negative = isNegative x
  whole : l.whole = false
  rounds : Rounds x l.magnitude

theorem literal?_of_magnitude? {negative : Bool} {cs : List Char} {r : Literal × List Char}
    (read : magnitude? negative cs = some r) :
    literal? ((if negative then ['-'] else []) ++ cs) = some r := by
  cases negative with
  | true => exact read
  | false =>
    show literal? cs = some r
    unfold literal?
    split
    · -- no magnitude starts with a sign
      cases read
    · exact read

/-- A finite number is read back as a literal that stands for it, whatever follows. -/
theorem literal?_chars (finite : x.isFinite = true) :
    ∃ l, (∀ rest, Stops rest → literal? (Layout.json.chars x ++ rest) = some (l, rest))
      ∧ StandsFor l x := by
  unfold Layout.chars
  rw [isNaN_of_isFinite finite, finite, if_neg Bool.false_ne_true]
  dsimp only
  rw [if_neg (by decide)]
  by_cases zero : magnitudeBits x = 0
  · have nothing : significand x = 0 := significand_eq_zero.2 zero
    have read (rest : List Char) (stops : Stops rest) :=
      literal?_of_magnitude? (magnitude?_point (isNegative x) allDigits_zero (by simp) (by simp)
        allDigits_zero (by simp) stops)
    simp only [if_pos zero, List.append_assoc]
    refine ⟨_, read, rfl, rfl, ?_⟩
    have size : Literal.magnitude ⟨isNegative x, digitsValue (['0'] ++ ['0']), -['0'].length,
        ['0'].length, false⟩ = 0 := by
      simp [Literal.magnitude, digitsValue]
    rw [size]
    exact rounds_zero nothing
  · have something : significand x ≠ 0 := fun h => zero (significand_eq_zero.1 h)
    have rounds := rounds_shortest .toEven something
    have positive : (shortest .toEven x).digits ≠ 0 := by
      intro none
      have := rounds.pos something
      simp [Decimal.value, none] at this
    obtain ⟨l, read, sign, whole, size⟩ := readsAs_decimalChars (isNegative x) positive
    simp only [if_neg zero, List.append_assoc]
    exact ⟨l, fun rest stops => literal?_of_magnitude? (read rest stops), sign, whole,
      size ▸ rounds⟩

/-- What is read as a literal whatever follows is so if nothing follows. -/
theorem literal?_alone {cs : List Char} {l : Literal}
    (read : ∀ rest, Stops rest → literal? (cs ++ rest) = some (l, rest)) :
    literal? cs = some (l, []) := by
  have alone := read [] (by simp [Stops])
  rwa [List.append_nil] at alone

theorem literal?_intChars (n : ℤ) (stops : Stops rest) :
    literal? (intChars n ++ rest) = some (⟨decide (n < 0), n.natAbs, 0, 0, true⟩, rest) := by
  have read := magnitude?_digits (decide (n < 0)) n.natAbs stops
  rw [← literal?_of_magnitude? read]
  unfold intChars
  by_cases negative : n < 0
  · simp [negative]
  · simp [negative]

/-- Numbers with the same text are the same, bit for bit. -/
theorem chars_append_inj (hx : x.isFinite = true) (hy : y.isFinite = true) (stops : Stops rest)
    (stops' : Stops rest') (same : Layout.json.chars x ++ rest = Layout.json.chars y ++ rest') :
    x = y ∧ rest = rest' := by
  obtain ⟨l, read, stands⟩ := literal?_chars hx
  obtain ⟨l', read', stands'⟩ := literal?_chars hy
  have read := read rest stops
  rw [same, read' rest' stops', Option.some.injEq, Prod.mk.injEq] at read
  obtain ⟨rfl, rest⟩ := read
  refine ⟨eq_of_magnitude_eq (stands.negative.symm.trans stands'.negative) ?_, rest.symm⟩
  exact magnitude_eq_of_rounds stands.rounds stands'.rounds

theorem intChars_append_inj {n m : ℤ} (stops : Stops rest) (stops' : Stops rest')
    (same : intChars n ++ rest = intChars m ++ rest') : n = m ∧ rest = rest' := by
  have read := literal?_intChars n stops
  rw [same, literal?_intChars m stops'] at read
  simp only [Option.some.injEq, Prod.mk.injEq, Literal.mk.injEq, decide_eq_decide] at read
  obtain ⟨⟨signs, sizes, -⟩, rests⟩ := read
  exact ⟨by omega, rests.symm⟩

/-- No integer has the text of a binary64 number. -/
theorem intChars_append_ne {n : ℤ} (hx : x.isFinite = true) (stops : Stops rest)
    (stops' : Stops rest') : intChars n ++ rest ≠ Layout.json.chars x ++ rest' := by
  intro same
  have read := literal?_intChars n stops
  obtain ⟨l, read', stands⟩ := literal?_chars hx
  rw [same, read' rest' stops', Option.some.injEq, Prod.mk.injEq] at read
  have := stands.whole
  rw [read.1] at this
  cases this

end Json.Token
end PartPlan
