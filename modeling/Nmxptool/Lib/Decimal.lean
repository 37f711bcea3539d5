import Mathlib.Algebra.Order.Ring.Int
import Mathlib.Data.List.TakeWhile
import Mathlib.Tactic.NormNum

/-! # Decimal numbers as text

`%0wd` as `printf` writes it, and `strtol` with base 10. `strtol_zeroPadded`: the one reads back
what the other writes. -/

namespace Nmxptool.Lib.Decimal

/-- `%0wd` of a number that is not negative. -/
def zeroPadded (w n : ℕ) : List Char := (Nat.toDigits 10 n).leftpad w '0'

/-- `isspace`. -/
def isSpace (c : Char) : Bool := c = ' ' || (9 ≤ c.toNat && c.toNat ≤ 13)

/-- What `strtol` gives: the number, where the text goes on, and whether it set `ERANGE`. -/
structure Strtol where
  value : ℤ
  rest : List Char
  range : Bool
  deriving DecidableEq

/-- The sign of a number, and the text after it. -/
def takeSign : List Char → ℤ × List Char
  | '-' :: s => (-1, s)
  | '+' :: s => (1, s)
  | s => (1, s)

/-- The number within the range of a `long`. -/
def clampLong (v : ℤ) : ℤ := max (-2 ^ 63) (min v (2 ^ 63 - 1))

/-- `strtol` with base 10. -/
def strtol (s : List Char) : Strtol :=
  let t := takeSign (s.dropWhile isSpace)
  let digits := t.2.takeWhile Char.isDigit
  let v := t.1 * (Nat.ofDigitChars 10 digits 0 : ℤ)
  if digits = [] then ⟨0, s, false⟩
  else ⟨clampLong v, t.2.dropWhile Char.isDigit, clampLong v ≠ v⟩

/-! ### Digits -/

theorem isDigit_of_mem_zeroPadded {w n : ℕ} {c : Char} (h : c ∈ zeroPadded w n) : c.isDigit := by
  unfold zeroPadded List.leftpad at h
  rcases List.mem_append.mp h with h | h
  · rw [List.eq_of_mem_replicate h]
    rfl
  · exact Nat.isDigit_of_mem_toDigits (by decide) (by decide) h

theorem length_zeroPadded {w n : ℕ} (hw : 0 < w) (h : n < 10 ^ w) :
    (zeroPadded w n).length = w := by
  unfold zeroPadded
  rw [List.length_leftpad]
  exact max_eq_left ((Nat.length_toDigits_le_iff (by decide) hw).mpr h)

theorem ofDigitChars_zeroPadded (w n : ℕ) : Nat.ofDigitChars 10 (zeroPadded w n) 0 = n := by
  unfold zeroPadded List.leftpad
  rw [Nat.ofDigitChars_append, Nat.ofDigitChars_replicate_zero, Nat.mul_zero,
    Nat.ofDigitChars_ten_toDigits]

theorem ofDigitChars_cons_zero (c : Char) (t : List Char) : Nat.ofDigitChars 10 (c :: t) 0 =
    10 ^ t.length * (c.toNat - 48) + Nat.ofDigitChars 10 t 0 := by
  rw [Nat.ofDigitChars_cons, Nat.ofDigitChars_eq_ofDigitChars_zero, Nat.mul_zero, Nat.zero_add]
  rfl

theorem ofDigitChars_lt {t : List Char} (h : ∀ c ∈ t, c.isDigit) :
    Nat.ofDigitChars 10 t 0 < 10 ^ t.length := by
  induction t with
  | nil => exact Nat.one_pos
  | cons c t ih =>
    have hc : c.toNat - 48 ≤ 9 := by
      have hdigit := h c (List.mem_cons_self ..)
      simp only [Char.isDigit, Bool.and_eq_true, decide_eq_true_eq] at hdigit
      have h57 : c.toNat ≤ 57 := hdigit.2
      omega
    have ht := ih fun d hd => h d (List.mem_cons_of_mem _ hd)
    have hmul := Nat.mul_le_mul_left (10 ^ t.length) hc
    rw [ofDigitChars_cons_zero, List.length_cons, pow_succ]
    omega

/-- The digits end where a text goes on with another character. -/
theorem takeWhile_digits {ds rest : List Char} (hds : ∀ c ∈ ds, c.isDigit)
    (hrest : ∀ c ∈ rest.head?, ¬ c.isDigit) :
    (ds ++ rest).takeWhile Char.isDigit = ds ∧ (ds ++ rest).dropWhile Char.isDigit = rest := by
  have h : rest.takeWhile Char.isDigit = [] ∧ rest.dropWhile Char.isDigit = rest := by
    cases rest with
    | nil => exact ⟨rfl, rfl⟩
    | cons c rest =>
      have hc := hrest c rfl
      exact ⟨List.takeWhile_cons_of_neg hc, List.dropWhile_cons_of_neg hc⟩
  rw [List.takeWhile_append_of_pos hds, List.dropWhile_append_of_pos hds, h.1, h.2]
  exact ⟨List.append_nil ds, rfl⟩

theorem isSpace_of_isDigit {c : Char} (h : c.isDigit) : isSpace c = false := by
  have h48 : 48 ≤ c.toNat := by
    simp only [Char.isDigit, Bool.and_eq_true, decide_eq_true_eq] at h
    exact h.1
  unfold isSpace
  rw [Bool.or_eq_false_iff, Bool.and_eq_false_iff]
  refine ⟨decide_eq_false fun hc => ?_, Or.inr (decide_eq_false (by omega))⟩
  rw [hc] at h48
  exact absurd h48 (by decide)

theorem takeSign_digit {c : Char} (hc : c.isDigit) (s : List Char) :
    takeSign (c :: s) = (1, c :: s) := by
  unfold takeSign
  split
  · next heq =>
    obtain ⟨rfl, -⟩ := List.cons.inj heq
    exact absurd hc (by decide)
  · next heq =>
    obtain ⟨rfl, -⟩ := List.cons.inj heq
    exact absurd hc (by decide)
  · rfl

/-- A text of digits, after blanks and perhaps a sign. -/
theorem strtol_signed {blanks sign ds : List Char} {σ : ℤ} (rest : List Char)
    (hblanks : ∀ c ∈ blanks, isSpace c)
    (hsign : sign = [] ∧ σ = 1 ∨ sign = ['-'] ∧ σ = -1 ∨ sign = ['+'] ∧ σ = 1)
    (hne : ds ≠ []) (hds : ∀ c ∈ ds, c.isDigit) (hrest : ∀ c ∈ rest.head?, ¬ c.isDigit) :
    strtol (blanks ++ (sign ++ (ds ++ rest))) =
      ⟨clampLong (σ * Nat.ofDigitChars 10 ds 0), rest,
        clampLong (σ * Nat.ofDigitChars 10 ds 0) ≠ σ * Nat.ofDigitChars 10 ds 0⟩ := by
  obtain ⟨c, ds', rfl⟩ := List.exists_cons_of_ne_nil hne
  have hc : c.isDigit := hds c (by simp)
  have hspace : (blanks ++ (sign ++ (c :: ds' ++ rest))).dropWhile isSpace =
      sign ++ (c :: ds' ++ rest) := by
    rw [List.dropWhile_append_of_pos hblanks]
    rcases hsign with ⟨rfl, -⟩ | ⟨rfl, -⟩ | ⟨rfl, -⟩
    · exact List.dropWhile_cons_of_neg (by rw [isSpace_of_isDigit hc]; decide)
    · exact List.dropWhile_cons_of_neg (by decide)
    · exact List.dropWhile_cons_of_neg (by decide)
  have htake : takeSign (sign ++ (c :: ds' ++ rest)) = (σ, c :: ds' ++ rest) := by
    rcases hsign with ⟨rfl, rfl⟩ | ⟨rfl, rfl⟩ | ⟨rfl, rfl⟩
    · exact takeSign_digit hc _
    · rfl
    · rfl
  obtain ⟨hdigits, hdrop⟩ := takeWhile_digits hds hrest
  unfold strtol
  dsimp only
  rw [hspace, htake]
  dsimp only
  rw [hdigits, hdrop, if_neg (by simp)]

/-- A text of digits, after blanks. -/
theorem strtol_digits (blanks : List Char) {ds : List Char} (rest : List Char)
    (hblanks : ∀ c ∈ blanks, isSpace c)
    (hne : ds ≠ []) (hds : ∀ c ∈ ds, c.isDigit) (hrest : ∀ c ∈ rest.head?, ¬ c.isDigit)
    (hsmall : Nat.ofDigitChars 10 ds 0 < 2 ^ 63) :
    strtol (blanks ++ (ds ++ rest)) = ⟨Nat.ofDigitChars 10 ds 0, rest, false⟩ := by
  have hclamp : clampLong (Nat.ofDigitChars 10 ds 0 : ℤ) = (Nat.ofDigitChars 10 ds 0 : ℤ) := by
    unfold clampLong
    omega
  have h := strtol_signed rest hblanks (Or.inl ⟨rfl, rfl⟩) hne hds hrest
  rw [List.nil_append, one_mul, hclamp] at h
  simpa using h

/-- **Reading back what was written.** -/
theorem strtol_zeroPadded (blanks : List Char) {rest : List Char} (w n : ℕ)
    (hblanks : ∀ c ∈ blanks, isSpace c) (hrest : ∀ c ∈ rest.head?, ¬ c.isDigit) (hn : n < 2 ^ 63) :
    strtol (blanks ++ (zeroPadded w n ++ rest)) = ⟨n, rest, false⟩ := by
  have hne : zeroPadded w n ≠ [] := by
    unfold zeroPadded List.leftpad
    exact fun h => Nat.toDigits_ne_nil (List.append_eq_nil_iff.mp h).2
  have h := strtol_digits blanks rest hblanks hne (fun c hc => isDigit_of_mem_zeroPadded hc) hrest
    (by rw [ofDigitChars_zeroPadded]; exact hn)
  rw [ofDigitChars_zeroPadded] at h
  exact h

/-! ### Numerals -/

/-- A number without a sign. -/
structure IsDecimal (t : List Char) : Prop where
  ne_nil : t ≠ []
  digit : ∀ c ∈ t, c.isDigit

/-- The value of some digits. -/
def decimal (t : List Char) : ℕ := Nat.ofDigitChars 10 t 0

theorem decimal_cons (c : Char) (t : List Char) :
    decimal (c :: t) = 10 ^ t.length * (c.toNat - 48) + decimal t :=
  ofDigitChars_cons_zero c t

theorem decimal_append (t t' : List Char) :
    decimal (t ++ t') = 10 ^ t'.length * decimal t + decimal t' := by
  unfold decimal
  rw [Nat.ofDigitChars_append, Nat.ofDigitChars_eq_ofDigitChars_zero]

theorem decimal_lt {t : List Char} (h : ∀ c ∈ t, c.isDigit) : decimal t < 10 ^ t.length :=
  ofDigitChars_lt h

/-- Digits of the same number are the same, where there are as many of them. -/
theorem decimal_inj {t t' : List Char} (h : ∀ c ∈ t, c.isDigit) (h' : ∀ c ∈ t', c.isDigit)
    (hlen : t.length = t'.length) (hvalue : decimal t = decimal t') : t = t' := by
  induction t generalizing t' with
  | nil => exact (List.eq_nil_of_length_eq_zero hlen.symm).symm
  | cons c t ih =>
    obtain _ | ⟨c', t'⟩ := t'
    · exact absurd hlen (Nat.succ_ne_zero _)
    rw [List.forall_mem_cons] at h h'
    have hlen' : t.length = t'.length := Nat.succ_inj.mp hlen
    have hpos : 0 < 10 ^ t'.length := by positivity
    have ht := decimal_lt h.2
    have ht' := decimal_lt h'.2
    rw [decimal_cons, decimal_cons, hlen'] at hvalue
    rw [hlen'] at ht
    have hhead : c.toNat - 48 = c'.toNat - 48 := by
      have hdiv := congrArg (· / 10 ^ t'.length) hvalue
      simpa only [Nat.mul_add_div hpos, Nat.div_eq_of_lt ht, Nat.div_eq_of_lt ht',
        Nat.add_zero] using hdiv
    have hc : c = c' := by
      have hle : 48 ≤ c.toNat ∧ 48 ≤ c'.toNat := by
        simp only [Char.isDigit, Bool.and_eq_true, decide_eq_true_eq] at h h'
        exact ⟨h.1.1, h'.1.1⟩
      exact Char.toNat_inj.mp (by omega)
    rw [hhead, Nat.add_left_cancel_iff] at hvalue
    rw [hc, ih h.2 h'.2 hlen' hvalue]

/-- The value is zero if all digits are. -/
theorem decimal_eq_zero {t : List Char} (h : ∀ c ∈ t, c.isDigit) :
    decimal t = 0 ↔ ∀ c ∈ t, c = '0' := by
  induction t with
  | nil => simp [decimal]
  | cons c t ih =>
    have hc := h c (List.mem_cons_self ..)
    have hzero : c.toNat - 48 = 0 ↔ c = '0' := by
      simp only [Char.isDigit, Bool.and_eq_true, decide_eq_true_eq] at hc
      have h48 : 48 ≤ c.toNat := hc.1
      refine ⟨fun h0 => ?_, fun h0 => by rw [h0]; rfl⟩
      rw [← Char.ofNat_toNat c, show c.toNat = 48 by omega]
    have hpow : 10 ^ t.length ≠ 0 := pow_ne_zero _ (by decide)
    rw [decimal_cons, List.forall_mem_cons, ← ih fun d hd => h d (List.mem_cons_of_mem _ hd),
      ← hzero, Nat.add_eq_zero_iff, mul_eq_zero]
    simp only [hpow, false_or]

theorem strtol_isDecimal {t : List Char} (h : IsDecimal t) :
    strtol t = ⟨clampLong (decimal t), [], clampLong (decimal t) ≠ (decimal t : ℤ)⟩ := by
  have hsigned := @strtol_signed [] [] t 1 [] (by simp) (Or.inl ⟨rfl, rfl⟩) h.ne_nil h.digit
    (by simp)
  rw [List.append_nil, List.nil_append, List.nil_append, one_mul] at hsigned
  exact hsigned

/-- What `strtol` takes for a number: blanks, a sign, and digits. -/
def IsNumeral (t : List Char) : Prop :=
  ∃ blanks sign digits, t = blanks ++ (sign ++ digits) ∧ (∀ c ∈ blanks, isSpace c) ∧
    (sign = [] ∨ sign = ['-'] ∨ sign = ['+']) ∧ IsDecimal digits

theorem IsDecimal.isNumeral {t : List Char} (h : IsDecimal t) : IsNumeral t :=
  ⟨[], [], t, rfl, by simp, Or.inl rfl, h⟩

theorem IsNumeral.ne_nil {t : List Char} (h : IsNumeral t) : t ≠ [] := by
  obtain ⟨blanks, sign, digits, rfl, -, -, hdigits⟩ := h
  exact List.append_ne_nil_of_right_ne_nil _ (List.append_ne_nil_of_right_ne_nil _ hdigits.ne_nil)

/-- The sign that is taken, and its value. -/
theorem takeSign_spec (s : List Char) : ∃ sign, s = sign ++ (takeSign s).2 ∧
    (sign = [] ∧ (takeSign s).1 = 1 ∨ sign = ['-'] ∧ (takeSign s).1 = -1 ∨
      sign = ['+'] ∧ (takeSign s).1 = 1) := by
  unfold takeSign
  split
  · exact ⟨['-'], rfl, Or.inr (Or.inl ⟨rfl, rfl⟩)⟩
  · exact ⟨['+'], rfl, Or.inr (Or.inr ⟨rfl, rfl⟩)⟩
  · exact ⟨[], rfl, Or.inl ⟨rfl, rfl⟩⟩

/-- What follows a number does not matter. -/
theorem strtol_append {t : List Char} (h : IsNumeral t) {rest : List Char}
    (hrest : ∀ c ∈ rest.head?, ¬ c.isDigit) :
    strtol (t ++ rest) = { strtol t with rest := rest } := by
  obtain ⟨blanks, sign, digits, rfl, hblanks, hsign, hdigits⟩ := h
  obtain ⟨σ, hσ⟩ : ∃ σ : ℤ, sign = [] ∧ σ = 1 ∨ sign = ['-'] ∧ σ = -1 ∨ sign = ['+'] ∧ σ = 1 := by
    rcases hsign with h | h | h
    · exact ⟨1, Or.inl ⟨h, rfl⟩⟩
    · exact ⟨-1, Or.inr (Or.inl ⟨h, rfl⟩)⟩
    · exact ⟨1, Or.inr (Or.inr ⟨h, rfl⟩)⟩
  have halone := strtol_signed [] hblanks hσ hdigits.ne_nil hdigits.digit (by simp)
  rw [List.append_nil] at halone
  rw [List.append_assoc, List.append_assoc,
    strtol_signed rest hblanks hσ hdigits.ne_nil hdigits.digit hrest, halone]

/-- The whole of a number is taken. -/
theorem rest_strtol {t : List Char} (h : IsNumeral t) : (strtol t).rest = [] := by
  have hself := @strtol_append _ h [] (by simp)
  rw [List.append_nil] at hself
  exact congrArg Strtol.rest hself

/-- **Whatever the text is**, nothing is taken, or a number that ends where the digits end. -/
theorem strtol_cases (s : List Char) : strtol s = ⟨0, s, false⟩ ∨
    ∃ t rest, s = t ++ rest ∧ IsNumeral t ∧ (∀ c ∈ rest.head?, ¬ c.isDigit) ∧
      strtol s = { strtol t with rest := rest } := by
  obtain ⟨sign, hs, hsign⟩ := takeSign_spec (s.dropWhile isSpace)
  by_cases hdigits : (takeSign (s.dropWhile isSpace)).2.takeWhile Char.isDigit = []
  · exact Or.inl (if_pos hdigits)
  right
  have hrest : ∀ c ∈ ((takeSign (s.dropWhile isSpace)).2.dropWhile Char.isDigit).head?,
      ¬ c.isDigit := by
    intro c hc
    have hnot := List.head?_dropWhile_not Char.isDigit (takeSign (s.dropWhile isSpace)).2
    rw [Option.mem_def.mp hc] at hnot
    simpa using hnot
  have hnum : IsNumeral (s.takeWhile isSpace ++
      (sign ++ (takeSign (s.dropWhile isSpace)).2.takeWhile Char.isDigit)) := by
    refine ⟨_, _, _, rfl, fun c hc => List.mem_takeWhile_imp hc, ?_, hdigits,
      fun c hc => List.mem_takeWhile_imp hc⟩
    rcases hsign with ⟨h, -⟩ | ⟨h, -⟩ | ⟨h, -⟩
    · exact Or.inl h
    · exact Or.inr (Or.inl h)
    · exact Or.inr (Or.inr h)
  have heq : s = s.takeWhile isSpace ++
      (sign ++ (takeSign (s.dropWhile isSpace)).2.takeWhile Char.isDigit) ++
        (takeSign (s.dropWhile isSpace)).2.dropWhile Char.isDigit := by
    rw [List.append_assoc, List.append_assoc, List.takeWhile_append_dropWhile, ← hs,
      List.takeWhile_append_dropWhile]
  refine ⟨_, _, heq, hnum, hrest, ?_⟩
  rw [← strtol_append hnum hrest, ← heq]

/-- A blank in front does not matter. -/
theorem isNumeral_cons {c : Char} {t : List Char} (hc : isSpace c) :
    IsNumeral (c :: t) ↔ IsNumeral t := by
  constructor
  · rintro ⟨blanks, sign, digits, heq, hblanks, hsign, hdigits⟩
    cases blanks with
    | nil =>
      have hne := hdigits.ne_nil
      obtain ⟨d, ds, rfl⟩ := List.exists_cons_of_ne_nil hne
      have hd : isSpace d = false := isSpace_of_isDigit (hdigits.digit d (by simp))
      rcases hsign with rfl | rfl | rfl
      all_goals
        rw [(List.cons.inj heq).1] at hc
      · rw [hd] at hc
        exact absurd hc (by decide)
      · exact absurd hc (by decide)
      · exact absurd hc (by decide)
    | cons b blanks =>
      exact ⟨blanks, sign, digits, (List.cons.inj heq).2,
        fun c h => hblanks c (List.mem_cons_of_mem _ h), hsign, hdigits⟩
  · rintro ⟨blanks, sign, digits, rfl, hblanks, hsign, hdigits⟩
    exact ⟨c :: blanks, sign, digits, rfl, List.forall_mem_cons.mpr ⟨hc, hblanks⟩, hsign, hdigits⟩

end Nmxptool.Lib.Decimal
