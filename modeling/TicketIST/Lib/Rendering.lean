import TicketIST.Lib.Numerals

/-!
# Reading back a rendered `double`

`<<` writes six significant digits of a `double`, so reading the text back with `std::stod` need not
give the number itself; `Double.rendered` is what it gives (`strtod_showDouble`).  A number that has
been rendered once is rendered to the same text again (`showDouble_rendered`), and the text has none
of the characters that separate fields (`mem_showDouble`).  `std::stod` may still refuse it: it takes
the rendering of a finite `double` unless that is smaller than every normal number
(`inRange_rendered_iff`).
-/

namespace TicketIST.Lib

/-! ### Normal forms of decimals -/

theorem strip_spec (fuel m : ℕ) (e : ℤ) :
    ∃ k : ℕ, m = (strip fuel m e).1 * 10 ^ k ∧ (strip fuel m e).2 = e + k := by
  induction fuel generalizing m e with
  | zero => exact ⟨0, by simp [strip]⟩
  | succ fuel ih =>
    unfold strip
    split
    · obtain ⟨k, hm, he⟩ := ih (m / 10) (e + 1)
      refine ⟨k + 1, ?_, by omega⟩
      rw [Nat.pow_succ, ← Nat.mul_assoc, ← hm]
      omega
    · exact ⟨0, by simp⟩

/-- Every number but zero has a last digit that is not zero. -/
theorem exists_mul_pow {m : ℕ} (hm : m ≠ 0) : ∃ a k : ℕ, m = a * 10 ^ k ∧ a % 10 ≠ 0 := by
  obtain ⟨k, hk, -⟩ := strip_spec (digitCount m) m 0
  exact ⟨_, k, hk, strip_mod 0 hm (lt_pow_digitCount m)⟩

theorem mul_pow_unique {a a' k k' : ℕ} (ha : a % 10 ≠ 0) (ha' : a' % 10 ≠ 0)
    (h : a * 10 ^ k = a' * 10 ^ k') : a = a' ∧ k = k' := by
  induction k generalizing k' with
  | zero =>
    cases k' with
    | zero => simpa using h
    | succ k' =>
      rw [Nat.pow_succ, ← Nat.mul_assoc] at h
      omega
  | succ k ih =>
    cases k' with
    | zero =>
      rw [Nat.pow_succ, ← Nat.mul_assoc] at h
      omega
    | succ k' =>
      rw [Nat.pow_succ, Nat.pow_succ, ← Nat.mul_assoc, ← Nat.mul_assoc] at h
      obtain ⟨h1, h2⟩ := ih (Nat.eq_of_mul_eq_mul_right (by omega) h)
      exact ⟨h1, by omega⟩

theorem Decimal.of_mul_pow {m : ℕ} (hm : m % 10 ≠ 0) (neg : Bool) (k : ℕ) (e : ℤ) :
    Decimal.of neg (m * 10 ^ k) e = ⟨neg, m, e + k, .inl hm⟩ := by
  have hm0 : m ≠ 0 := by
    rintro rfl
    exact hm rfl
  have hne : m * 10 ^ k ≠ 0 := (Nat.mul_pos (Nat.pos_of_ne_zero hm0) (by positivity)).ne'
  obtain ⟨k', hmul, hexp⟩ := strip_spec (digitCount (m * 10 ^ k)) (m * 10 ^ k) e
  obtain ⟨h1, h2⟩ := mul_pow_unique hm (strip_mod e hne (lt_pow_digitCount _)) hmul
  rw [Decimal.of, dif_neg hne]
  simp only [Decimal.mk.injEq, true_and]
  exact ⟨h1.symm, by omega⟩

/-- Zeros at the end of the mantissa count for the exponent. -/
theorem Decimal.of_shift (neg : Bool) (m k : ℕ) (e : ℤ) :
    Decimal.of neg (m * 10 ^ k) e = Decimal.of neg m (e + k) := by
  rcases eq_or_ne m 0 with rfl | hm
  · rw [Nat.zero_mul]
    rfl
  · obtain ⟨a, j, rfl, ha⟩ := exists_mul_pow hm
    rw [Nat.mul_assoc, ← Nat.pow_add, of_mul_pow ha, of_mul_pow ha]
    simp only [Decimal.mk.injEq, true_and]
    omega

theorem Decimal.of_self (d : Decimal) : Decimal.of d.neg d.mant d.exp = d := by
  obtain ⟨neg, m, e, hm | ⟨rfl, rfl⟩⟩ := d
  · simpa using of_mul_pow hm neg 0 e
  · rfl

/-! ### Digits -/

theorem toDigits_mul_pow {m : ℕ} (hm : m ≠ 0) (k : ℕ) :
    Nat.toDigits 10 (m * 10 ^ k) = Nat.toDigits 10 m ++ List.replicate k '0' := by
  induction k with
  | zero => simp
  | succ k ih =>
    have hpos : 0 < m * 10 ^ k := Nat.mul_pos (Nat.pos_of_ne_zero hm) (by positivity)
    rw [Nat.pow_succ, ← Nat.mul_assoc, Nat.toDigits_of_base_le (by omega) (by omega),
      Nat.mul_div_cancel _ (by omega), ih, Nat.mul_mod_left, List.append_assoc,
      List.replicate_succ' (n := k)]
    rfl

theorem digitCount_mul_pow {m : ℕ} (hm : m ≠ 0) (k : ℕ) :
    digitCount (m * 10 ^ k) = digitCount m + k := by
  rw [digitCount, toDigits_mul_pow hm, List.length_append, List.length_replicate, digitCount]

theorem digitCount_pos (m : ℕ) : 0 < digitCount m := Nat.length_toDigits_pos

theorem digitCount_le_iff {m k : ℕ} (hk : 0 < k) : digitCount m ≤ k ↔ m < 10 ^ k :=
  Nat.length_toDigits_le_iff (by omega) hk

theorem pow_le_of_lt_digitCount {m k : ℕ} (hk : 0 < k) (h : k < digitCount m) : 10 ^ k ≤ m := by
  by_contra hlt
  have := (digitCount_le_iff hk).2 (Nat.lt_of_not_le hlt)
  omega

theorem isDigit_replicate_zero {k : ℕ} : ∀ c ∈ List.replicate k '0', c.isDigit = true := by
  intro c hc
  rw [List.eq_of_mem_replicate hc]
  rfl

/-- The digits without the zeros at their end. -/
theorem significant {a : ℕ} (ha : a % 10 ≠ 0) (k : ℕ) :
    ((Nat.toDigits 10 (a * 10 ^ k)).reverse.dropWhile (· = '0')).reverse = Nat.toDigits 10 a := by
  have ha0 : a ≠ 0 := by
    rintro rfl
    exact ha rfl
  have hlast : ∃ ds, Nat.toDigits 10 a = ds ++ [Nat.digitChar (a % 10)] := by
    by_cases h10 : a < 10
    · exact ⟨[], by rw [Nat.toDigits_of_lt_base h10, Nat.mod_eq_of_lt h10]; rfl⟩
    · exact ⟨_, Nat.toDigits_of_base_le (by omega) (by omega)⟩
  obtain ⟨ds, hds⟩ := hlast
  have hne : Nat.digitChar (a % 10) ≠ '0' := by
    have hall : ∀ n < 10, n ≠ 0 → Nat.digitChar n ≠ '0' := by decide
    exact hall _ (Nat.mod_lt _ (by omega)) ha
  rw [toDigits_mul_pow ha0, List.reverse_append, List.reverse_replicate,
    List.dropWhile_append_of_pos fun c hc => decide_eq_true (List.eq_of_mem_replicate hc), hds,
    List.reverse_append, List.reverse_singleton, List.singleton_append,
    List.dropWhile_cons_of_neg (by simpa using hne)]
  simp

/-! ### Numerals -/

/-- The characters of a numeral. -/
def IsNumeral (s : Text) : Prop := ∀ c ∈ s, c.isDigit = true ∨ c ∈ ['.', 'e', '+', '-']

theorem IsNumeral.of_isDigit {s : Text} (h : ∀ c ∈ s, c.isDigit = true) : IsNumeral s :=
  fun c hc => .inl (h c hc)

theorem IsNumeral.append {s t : Text} (hs : IsNumeral s) (ht : IsNumeral t) :
    IsNumeral (s ++ t) := by
  intro c hc
  rcases List.mem_append.1 hc with hc | hc
  · exact hs c hc
  · exact ht c hc

theorem IsNumeral.cons {c : Char} {s : Text} (hc : c ∈ ['.', 'e', '+', '-']) (hs : IsNumeral s) :
    IsNumeral (c :: s) := by
  intro c' hc'
  rcases List.mem_cons.1 hc' with rfl | hc'
  · exact .inr hc
  · exact hs c' hc'

theorem isNumeral_fraction {s : Text} (h : ∀ c ∈ s, c.isDigit = true) : IsNumeral (fraction s) := by
  cases s with
  | nil => exact IsNumeral.of_isDigit h
  | cons d ds => exact .cons (by decide) (.of_isDigit h)

theorem IsNumeral.not_lettered {s : Text} (hs : IsNumeral s) : ∀ c ∈ s, ¬Lettered c := by
  have hsub : ['.', 'e', '+', '-'] ⊆ ['.', 'e', 'E', '+', '-'] := by decide
  intro c hc
  rcases hs c hc with hd | hc
  · exact not_lettered_of_isDigit hd
  · exact not_lettered_of_mem (hsub hc)

theorem sign_of_neg (neg : Bool) : Sign (if neg then ['-'] else []) neg := by
  cases neg with
  | true => exact .minus
  | false => exact .none

/-! ### The two forms -/

/-- The text is a numeral, and with a sign before it `strtod` reads it as `± m · 10 ^ e`. -/
structure Denotes (s : Text) (m : ℕ) (e : ℤ) : Prop where
  numeral : IsNumeral s
  strtod : ∀ neg, strtod ((if neg then ['-'] else []) ++ s) = some (.fin (.of neg m e))

theorem Denotes.of_parts {int frac tail : Text} {m : ℕ} {e : ℤ}
    (hint : ∀ c ∈ int, c.isDigit = true) (hne : int ≠ []) (hfrac : ∀ c ∈ frac, c.isDigit = true)
    (htail : EndsDigits tail) (htail' : IsNumeral tail)
    (h : ∀ neg, Decimal.of neg (Nat.ofDigitChars 10 (int ++ frac) 0)
      (takeExponent 'e' tail - frac.length) = .of neg m e) :
    Denotes (int ++ fraction frac ++ tail) m e where
  numeral := ((IsNumeral.of_isDigit hint).append (isNumeral_fraction hfrac)).append htail'
  strtod neg := by
    rw [strtod_mantissa (sign_of_neg neg) (.of_fraction hint hfrac) (by simp [hne]) htail
      htail'.not_lettered, h neg]

theorem exponent_scientific {x : ℤ} {es : Text} (hes : ∀ c ∈ es, c.isDigit = true) (hne : es ≠ [])
    (hval : Nat.ofDigitChars 10 es 0 = x.natAbs) :
    Exponent ('e' :: (if x < 0 then '-' else '+') :: es) x := by
  by_cases hx : x < 0
  · have h : IntNumeral (['-'] ++ es) _ := .mk .minus hne hes
    have hn : (x.natAbs : ℤ) = -x := by omega
    rw [if_pos rfl, hval, hn, neg_neg] at h
    rw [if_pos hx]
    exact .mk (.inl rfl) h
  · have h : IntNumeral (['+'] ++ es) _ := .mk .plus hne hes
    have hn : (x.natAbs : ℤ) = x := by omega
    rw [if_neg Bool.false_ne_true, hval, hn] at h
    rw [if_neg hx]
    exact .mk (.inl rfl) h

/-- The point among the digits. -/
theorem denotes_point {ds : Text} (hds : ∀ c ∈ ds, c.isDigit = true) {n : ℕ} (hn : 0 < n)
    (h : n < ds.length) :
    Denotes (ds.take n ++ fraction (ds.drop n)) (Nat.ofDigitChars 10 ds 0) (n - ds.length) := by
  rw [← List.append_nil (ds.take n ++ fraction (ds.drop n))]
  refine Denotes.of_parts (fun c hc => hds c (List.mem_of_mem_take hc)) ?_
    (fun c hc => hds c (List.mem_of_mem_drop hc)) .nil (fun _ hc => absurd hc List.not_mem_nil) ?_
  · apply List.ne_nil_of_length_pos
    rw [List.length_take]
    omega
  · intro neg
    rw [List.take_append_drop]
    congr 1
    rw [takeExponent, List.length_drop]
    omega

section

variable {ds : Text} (hds : ∀ c ∈ ds, c.isDigit = true) (hne : ds ≠ [])

include hds hne

/-- Zeros between the point and the digits. -/
theorem denotes_zeros_before (n : ℕ) :
    Denotes ("0.".toList ++ List.replicate n '0' ++ ds) (Nat.ofDigitChars 10 ds 0)
      (-n - ds.length) := by
  have hzeros : ∀ c ∈ List.replicate n '0' ++ ds, c.isDigit = true := by
    intro c hc
    rcases List.mem_append.1 hc with hc | hc
    · exact isDigit_replicate_zero c hc
    · exact hds c hc
  have hform : "0.".toList ++ List.replicate n '0' ++ ds =
      ['0'] ++ fraction (List.replicate n '0' ++ ds) ++ [] := by
    obtain ⟨d, ds', hd⟩ : ∃ d ds', List.replicate n '0' ++ ds = d :: ds' :=
      List.exists_cons_of_ne_nil (by simp [hne])
    rw [List.append_assoc, hd, List.append_nil]
    rfl
  rw [hform]
  refine Denotes.of_parts (isDigit_replicate_zero (k := 1)) (by simp) hzeros .nil
    (fun _ hc => absurd hc List.not_mem_nil) ?_
  intro neg
  rw [Nat.ofDigitChars_append, Nat.ofDigitChars_append, Nat.ofDigitChars_replicate_zero]
  congr 1
  rw [takeExponent, List.length_append, List.length_replicate]
  omega

/-- Zeros after the digits, and no point. -/
theorem denotes_zeros_after (n : ℕ) :
    Denotes (ds ++ List.replicate n '0') (Nat.ofDigitChars 10 ds 0) n := by
  have hint : ∀ c ∈ ds ++ List.replicate n '0', c.isDigit = true := by
    intro c hc
    rcases List.mem_append.1 hc with hc | hc
    · exact hds c hc
    · exact isDigit_replicate_zero c hc
  have hform : ds ++ List.replicate n '0' =
      (ds ++ List.replicate n '0') ++ fraction [] ++ [] := by
    rw [List.append_nil, fraction, List.append_nil]
  rw [hform]
  refine Denotes.of_parts hint (by simp [hne]) (by simp) .nil
    (fun _ hc => absurd hc List.not_mem_nil) ?_
  intro neg
  rw [List.append_nil, Nat.ofDigitChars_append, Nat.ofDigitChars_replicate_zero, Nat.mul_comm,
    Decimal.of_shift]
  congr 1
  rw [takeExponent, List.length_nil]
  omega

theorem showFixed_denotes (x : ℤ) :
    Denotes (showFixed ds x) (Nat.ofDigitChars 10 ds 0) (x + 1 - ds.length) := by
  unfold showFixed
  split
  · rename_i hx
    have hexp : x + 1 - ds.length = -((-x - 1).toNat : ℤ) - ds.length := by omega
    rw [hexp]
    exact denotes_zeros_before hds hne _
  · rename_i hx
    set n := (x + 1).toNat with hn
    dsimp only
    by_cases hle : ds.length ≤ n
    · have hexp : x + 1 - ds.length = ((n - ds.length : ℕ) : ℤ) := by omega
      rw [List.take_of_length_le (by simp; omega), List.drop_of_length_le hle, fraction,
        List.append_nil, hexp]
      exact denotes_zeros_after hds hne _
    · have hexp : x + 1 - ds.length = (n : ℤ) - ds.length := by omega
      rw [List.take_append_of_le_length (by omega), hexp]
      exact denotes_point hds (by omega) (not_le.1 hle)

theorem showScientific_denotes (x : ℤ) :
    Denotes (showScientific ds x) (Nat.ofDigitChars 10 ds 0) (x + 1 - ds.length) := by
  obtain ⟨d, ds', rfl⟩ := List.exists_cons_of_ne_nil hne
  set es := List.replicate (2 - (Nat.toDigits 10 x.natAbs).length) '0' ++ Nat.toDigits 10 x.natAbs
    with hes
  have hdig : ∀ c ∈ es, c.isDigit = true := by
    intro c hc
    rcases List.mem_append.1 hc with hc | hc
    · exact isDigit_replicate_zero c hc
    · exact isDigit_of_mem_toDigits hc
  have hne' : es ≠ [] := by simp [hes]
  have hval : Nat.ofDigitChars 10 es 0 = x.natAbs := by
    rw [hes, Nat.ofDigitChars_append, Nat.ofDigitChars_replicate_zero, Nat.mul_zero,
      Nat.ofDigitChars_ten_toDigits]
  have hform : showScientific (d :: ds') x =
      [d] ++ fraction ds' ++ 'e' :: (if x < 0 then '-' else '+') :: es := by
    simp [showScientific, hes]
  have hsign : (if x < 0 then '-' else '+') ∈ ['.', 'e', '+', '-'] := by
    split <;> decide
  rw [hform]
  refine Denotes.of_parts (by simpa using hds d List.mem_cons_self) (by simp)
    (fun c hc => hds c (List.mem_cons_of_mem _ hc)) (.cons rfl (by decide) _)
    (.cons (by decide) (.cons hsign (.of_isDigit hdig))) ?_
  intro neg
  rw [(exponent_scientific hdig hne' hval).take]
  congr 1
  rw [List.length_cons]
  omega

end

/-! ### Six significant digits -/

/-- What is left of a decimal that is written with six significant digits. -/
def Decimal.rendered (d : Decimal) : Decimal :=
  let (q, x) := sixDigits d.mant d.exp
  .of d.neg q (x + 1 - digitCount q)

/-- The number that `<<` writes. -/
def Double.rendered : Double → Double
  | fin d => fin d.rendered
  | inf neg => inf neg
  | nan neg => nan neg

theorem sixDigits_of_digitCount_le {m : ℕ} (h : digitCount m ≤ 6) (e : ℤ) :
    sixDigits m e = (m, digitCount m - 1 + e) := by
  rw [sixDigits, if_pos h]

/-- The first six digits of a longer number. -/
theorem leading_digits {m : ℕ} (h : 6 < digitCount m) :
    10 ^ 5 ≤ m / 10 ^ (digitCount m - 6) ∧ m / 10 ^ (digitCount m - 6) < 10 ^ 6 := by
  constructor
  · have hlow := pow_le_of_lt_digitCount (m := m) (k := digitCount m - 1) (by omega) (by omega)
    refine (Nat.le_div_iff_mul_le (by positivity)).2 ?_
    rw [← Nat.pow_add, show 5 + (digitCount m - 6) = digitCount m - 1 by omega]
    exact hlow
  · refine Nat.div_lt_of_lt_mul ?_
    rw [← Nat.pow_add, show digitCount m - 6 + 6 = digitCount m by omega]
    exact lt_pow_digitCount m

theorem digitCount_eq_six {q : ℕ} (h : 10 ^ 5 ≤ q) (h' : q < 10 ^ 6) : digitCount q = 6 := by
  have h1 := (digitCount_le_iff (k := 6) (by omega)).2 h'
  have h2 : ¬digitCount q ≤ 5 := fun hle => absurd ((digitCount_le_iff (by omega)).1 hle) (by omega)
  omega

theorem sixDigits_bounds {m : ℕ} (hm : m ≠ 0) (e : ℤ) :
    (sixDigits m e).1 ≠ 0 ∧ (sixDigits m e).1 < 10 ^ 6 := by
  by_cases h : digitCount m ≤ 6
  · rw [sixDigits_of_digitCount_le h]
    exact ⟨hm, (digitCount_le_iff (by omega)).1 h⟩
  · obtain ⟨hq1, hq2⟩ := leading_digits (not_le.1 h)
    rw [sixDigits, if_neg h]
    dsimp only
    split <;> split <;> dsimp only <;> omega

/-- `m · 10 ^ e` without the zeros at the end of its first six digits. -/
theorem exists_sixDigits {m : ℕ} (hm : m ≠ 0) (e : ℤ) :
    ∃ a k x, sixDigits m e = (a * 10 ^ k, x) ∧ a % 10 ≠ 0 ∧ digitCount a ≤ 6 := by
  obtain ⟨hne, hlt⟩ := sixDigits_bounds hm e
  obtain ⟨a, k, hq, ha⟩ := exists_mul_pow hne
  refine ⟨a, k, (sixDigits m e).2, Prod.ext hq rfl, ha, (digitCount_le_iff (by omega)).2 ?_⟩
  have hle : a ≤ a * 10 ^ k := Nat.le_mul_of_pos_right _ (by positivity)
  omega

section

variable {d : Decimal} {a k : ℕ} {x : ℤ}

theorem showDouble_fin (hm : d.mant ≠ 0) (h : sixDigits d.mant d.exp = (a * 10 ^ k, x))
    (ha : a % 10 ≠ 0) :
    showDouble (.fin d) = (if d.neg then ['-'] else []) ++
      if -4 ≤ x ∧ x < 6 then showFixed (Nat.toDigits 10 a) x
      else showScientific (Nat.toDigits 10 a) x := by
  rw [showDouble, if_neg hm, h]
  dsimp only
  rw [significant ha]

theorem Decimal.rendered_eq (h : sixDigits d.mant d.exp = (a * 10 ^ k, x)) (ha : a % 10 ≠ 0) :
    d.rendered = ⟨d.neg, a, x + 1 - digitCount a, .inl ha⟩ := by
  have ha0 : a ≠ 0 := by
    rintro rfl
    exact ha rfl
  rw [rendered, h]
  dsimp only
  rw [of_mul_pow ha, digitCount_mul_pow ha0]
  simp only [Decimal.mk.injEq, true_and]
  omega

theorem Decimal.rendered_zero (hm : d.mant = 0) : d.rendered = d := by
  obtain ⟨neg, m, e, h | ⟨rfl, rfl⟩⟩ := d
  · exact absurd (congrArg (· % 10) hm) h
  · have h0 : sixDigits 0 0 = (0, 0) := by decide
    simp only [rendered, h0]
    rfl

theorem Decimal.showDouble_rendered (d : Decimal) :
    showDouble (.fin d.rendered) = showDouble (.fin d) := by
  by_cases hm : d.mant = 0
  · rw [rendered_zero hm]
  · obtain ⟨a, k, x, h, ha, ha6⟩ := exists_sixDigits hm d.exp
    have ha0 : a ≠ 0 := by
      rintro rfl
      exact ha rfl
    have hx : sixDigits a (x + 1 - digitCount a) = (a * 10 ^ 0, x) := by
      rw [sixDigits_of_digitCount_le ha6, Nat.pow_zero, Nat.mul_one]
      congr 1
      omega
    rw [rendered_eq h ha, showDouble_fin hm h ha, showDouble_fin (d := ⟨d.neg, a, _, .inl ha⟩) ha0 hx ha]

/-- The text of a finite number is a sign and a numeral that denotes what was rendered. -/
theorem Decimal.showDouble_denotes (d : Decimal) :
    ∃ s m e, showDouble (.fin d) = (if d.neg then ['-'] else []) ++ s ∧ Denotes s m e ∧
      Decimal.of d.neg m e = d.rendered := by
  by_cases hm : d.mant = 0
  · refine ⟨['0'], 0, 0, ?_, ?_, ?_⟩
    · rw [showDouble, if_pos hm]
    · have hint : ∀ c ∈ ['0'], c.isDigit = true := by simp
      have hfrac : ∀ c ∈ ([] : Text), c.isDigit = true := by simp
      exact Denotes.of_parts hint (by simp) hfrac .nil (fun _ hc => absurd hc List.not_mem_nil)
        fun neg => rfl
    · rw [rendered_zero hm]
      obtain ⟨neg, m, e, h | ⟨rfl, rfl⟩⟩ := d
      · exact absurd (congrArg (· % 10) hm) h
      · rfl
  · obtain ⟨a, k, x, h, ha, -⟩ := exists_sixDigits hm d.exp
    have hden : Denotes (if -4 ≤ x ∧ x < 6 then showFixed (Nat.toDigits 10 a) x
        else showScientific (Nat.toDigits 10 a) x) a (x + 1 - digitCount a) := by
      have hval : Nat.ofDigitChars 10 (Nat.toDigits 10 a) 0 = a := Nat.ofDigitChars_ten_toDigits
      have hdigits : ∀ c ∈ Nat.toDigits 10 a, c.isDigit = true := fun _ => isDigit_of_mem_toDigits
      split
      · have := showFixed_denotes hdigits Nat.toDigits_ne_nil x
        rwa [hval] at this
      · have := showScientific_denotes hdigits Nat.toDigits_ne_nil x
        rwa [hval] at this
    refine ⟨_, _, _, showDouble_fin hm h ha, hden, ?_⟩
    rw [rendered_eq h ha]
    exact of_self ⟨d.neg, a, _, .inl ha⟩

end

theorem Double.showDouble_rendered (d : Double) : showDouble d.rendered = showDouble d := by
  cases d with
  | fin d => exact d.showDouble_rendered
  | inf neg => rfl
  | nan neg => rfl

/-- **`strtod` reads the text of a number as what was rendered of it.** -/
theorem strtod_showDouble (d : Double) : strtod (showDouble d) = some d.rendered := by
  cases d with
  | fin d =>
    obtain ⟨s, m, e, hs, hden, hd⟩ := d.showDouble_denotes
    rw [hs, hden.strtod, hd]
    rfl
  | inf neg => cases neg <;> rfl
  | nan neg => cases neg <;> rfl

theorem mantissa_showFixed {ds : Text} (hds : ∀ c ∈ ds, c.isDigit = true) (hne : ds ≠ []) (x : ℤ) :
    ∃ int frac, Mantissa (showFixed ds x) int frac ∧ int ++ frac ≠ [] := by
  have hzeros : ∀ n, ∀ c ∈ List.replicate n '0', c.isDigit = true := fun _ => isDigit_replicate_zero
  unfold showFixed
  split
  · have hpoint : Mantissa (['0'] ++ '.' :: (List.replicate (-x - 1).toNat '0' ++ ds)) _ _ :=
      .point (hzeros 1) fun c hc => (List.mem_append.1 hc).elim (hzeros _ c) (hds c)
    rw [List.append_assoc]
    exact ⟨_, _, hpoint, by simp⟩
  · dsimp only
    set n := (x + 1).toNat with hn
    refine ⟨(ds ++ List.replicate (n - ds.length) '0').take n, ds.drop n,
      .of_fraction (fun c hc => ?_) fun c hc => hds c (List.mem_of_mem_drop hc), ?_⟩
    · exact (List.mem_append.1 (List.mem_of_mem_take hc)).elim (hds c) (hzeros _ c)
    · have hpos := List.length_pos_of_ne_nil hne
      apply List.ne_nil_of_length_pos
      rw [List.length_append, List.length_take, List.length_append]
      omega

theorem mantissa_showScientific {ds : Text} (hds : ∀ c ∈ ds, c.isDigit = true) (hne : ds ≠ [])
    (x : ℤ) : ∃ mant int frac tail e, showScientific ds x = mant ++ tail ∧ Mantissa mant int frac ∧
      int ++ frac ≠ [] ∧ Exponent tail e := by
  set es := List.replicate (2 - (Nat.toDigits 10 x.natAbs).length) '0' ++ Nat.toDigits 10 x.natAbs
    with hes
  have hdig : ∀ c ∈ es, c.isDigit = true := fun c hc =>
    (List.mem_append.1 hc).elim (isDigit_replicate_zero c) isDigit_of_mem_toDigits
  have hexp : ∃ e, Exponent ('e' :: (if x < 0 then '-' else '+') :: es) e := by
    split
    · exact ⟨_, .mk (.inl rfl) (.mk .minus (by simp) hdig)⟩
    · exact ⟨_, .mk (.inl rfl) (.mk .plus (by simp) hdig)⟩
  obtain ⟨e, he⟩ := hexp
  refine ⟨ds.take 1 ++ fraction (ds.drop 1), _, _, _, e, by simp [showScientific, hes],
    .of_fraction (fun c hc => hds c (List.mem_of_mem_take hc)) fun c hc =>
      hds c (List.mem_of_mem_drop hc), ?_, he⟩
  rwa [List.take_append_drop]

/-- The text of a finite number is a numeral, of what was rendered. -/
theorem showDouble_numeral (d : Decimal) : DecNumeral (showDouble (.fin d)) d.rendered := by
  have hshape : ∃ d', DecNumeral (showDouble (.fin d)) d' := by
    by_cases hm : d.mant = 0
    · rw [showDouble, if_pos hm, ← List.append_nil ['0']]
      exact ⟨_, .mk (sign_of_neg _) (.whole (by simp)) (by simp) .none⟩
    · obtain ⟨a, k, x, h, ha, -⟩ := exists_sixDigits hm d.exp
      have hds : ∀ c ∈ Nat.toDigits 10 a, c.isDigit = true := fun _ => isDigit_of_mem_toDigits
      have hform : ∃ mant int frac tail e,
          (if -4 ≤ x ∧ x < 6 then showFixed (Nat.toDigits 10 a) x
            else showScientific (Nat.toDigits 10 a) x) = mant ++ tail ∧
          Mantissa mant int frac ∧ int ++ frac ≠ [] ∧ Exponent tail e := by
        split
        · obtain ⟨int, frac, hmant, hne⟩ := mantissa_showFixed hds Nat.toDigits_ne_nil x
          exact ⟨_, int, frac, [], 0, (List.append_nil _).symm, hmant, hne, .none⟩
        · exact mantissa_showScientific hds Nat.toDigits_ne_nil x
      obtain ⟨mant, int, frac, tail, e, hform, hmant, hne, htail⟩ := hform
      rw [showDouble_fin hm h ha, hform]
      exact ⟨_, .mk (sign_of_neg _) hmant hne htail⟩
  obtain ⟨d', hd'⟩ := hshape
  have hread := hd'.strtod.symm.trans (strtod_showDouble (.fin d))
  cases hread
  exact hd'

/-- `std::stod` reads the text of a finite number, or finds it out of range. -/
theorem stod_showDouble_fin (d : Decimal) :
    stod (showDouble (.fin d)) =
      if inRange d.rendered then .ok (.fin d.rendered) else .error (.outOfRange "stod") := by
  simp only [stod, strtod_showDouble, Double.rendered]

/-- What is written like a number is one. -/
theorem exists_fin_of_showDouble {d : Double} {a : Decimal} (h : showDouble d = showDouble (.fin a)) :
    ∃ b, d = .fin b := by
  have hr : d.rendered = .fin a.rendered :=
    Option.some.inj (by rw [← strtod_showDouble, h, strtod_showDouble]; rfl)
  cases d with
  | fin b => exact ⟨b, rfl⟩
  | inf neg => cases hr
  | nan neg => cases hr

/-- The characters of a number's text. -/
theorem mem_showDouble {d : Double} {c : Char} (h : c ∈ showDouble d) :
    c.isDigit = true ∨ c ∈ ['.', 'e', '+', '-', 'i', 'n', 'f', 'a'] := by
  cases d with
  | fin d =>
    obtain ⟨s, m, e, hs, hden, -⟩ := d.showDouble_denotes
    rw [hs] at h
    rcases List.mem_append.1 h with h | h
    · cases hneg : d.neg with
      | true =>
        rw [hneg, if_pos rfl] at h
        rw [List.mem_singleton.1 h]
        exact .inr (by decide)
      | false =>
        rw [hneg, if_neg Bool.false_ne_true] at h
        exact absurd h List.not_mem_nil
    · rcases hden.numeral c h with hc | hc
      · exact .inl hc
      · exact .inr (List.mem_append_left ['i', 'n', 'f', 'a'] hc)
  | inf neg =>
    have hall : (showDouble (.inf neg)).all (· ∈ ['.', 'e', '+', '-', 'i', 'n', 'f', 'a']) := by
      cases neg <;> decide
    exact .inr (of_decide_eq_true (List.all_eq_true.1 hall c h))
  | nan neg =>
    have hall : (showDouble (.nan neg)).all (· ∈ ['.', 'e', '+', '-', 'i', 'n', 'f', 'a']) := by
      cases neg <;> decide
    exact .inr (of_decide_eq_true (List.all_eq_true.1 hall c h))

/-- No separator stands in a number's text. -/
theorem not_mem_showDouble {d : Double} {c : Char} (h : c.isDigit = false)
    (h' : c ∉ ['.', 'e', '+', '-', 'i', 'n', 'f', 'a']) : c ∉ showDouble d := by
  intro hc
  rcases mem_showDouble hc with hd | hd
  · rw [h] at hd
    cases hd
  · exact h' hd

/-! ### Values -/

/-- The size of a decimal. -/
def Decimal.abs (d : Decimal) : ℚ := d.mant * 10 ^ d.exp

/-- The number a decimal stands for. -/
def Decimal.value (d : Decimal) : ℚ := (if d.neg then -1 else 1) * d.abs

/-- A number that does not round to an infinity: every finite `double` is one. -/
def Decimal.Finite (d : Decimal) : Prop := d.abs < 2 ^ 1024 - 2 ^ 970

/-- A number that is at least the smallest normal `double`, `2 ^ -1022`, after rounding to 53 bits: what
is half a digit below is rounded up. -/
def Decimal.Normal (d : Decimal) : Prop := 1 / 2 ^ 1022 - 1 / 2 ^ 1076 ≤ d.abs

/-- A number between zero and the smallest normal `double`. -/
def Decimal.Tiny (d : Decimal) : Prop := d.mant ≠ 0 ∧ d.abs < 1 / 2 ^ 1022

theorem Decimal.abs_of (neg : Bool) (m : ℕ) (e : ℤ) : (Decimal.of neg m e).abs = m * 10 ^ e := by
  rcases eq_or_ne m 0 with rfl | hm
  · simp [of, abs]
  · obtain ⟨a, k, rfl, ha⟩ := exists_mul_pow hm
    rw [of_mul_pow ha, abs, zpow_add₀ (by norm_num), zpow_natCast]
    push_cast
    ring

theorem Decimal.value_eq_scaled {d : Decimal} {e : ℤ} (h : e ≤ d.exp) :
    d.value = d.scaled e * 10 ^ e := by
  obtain ⟨k, hk⟩ : ∃ k : ℕ, d.exp - e = k := ⟨(d.exp - e).toNat, by omega⟩
  have hexp : d.exp = k + e := by omega
  rw [value, abs, scaled, hk, Int.toNat_natCast, hexp, zpow_add₀ (by norm_num), zpow_natCast]
  split
  · push_cast
    ring
  · push_cast
    ring

/-- The comparison of decimals is that of their values. -/
theorem Decimal.lt_iff (a b : Decimal) : a.lt b = true ↔ a.value < b.value := by
  rw [value_eq_scaled (min_le_left a.exp b.exp), value_eq_scaled (min_le_right a.exp b.exp),
    mul_lt_mul_iff_left₀ (by positivity), lt, decide_eq_true_eq]
  exact_mod_cast Iff.rfl

/-- `x ≤ y`, both being numbers. -/
def Double.AtMost (x y : Double) : Prop :=
  ∃ a b : Decimal, x = fin a ∧ y = fin b ∧ a.value ≤ b.value

theorem Double.AtMost.trans {x y z : Double} (h : x.AtMost y) (h' : y.AtMost z) : x.AtMost z := by
  obtain ⟨a, b, rfl, rfl, hab⟩ := h
  obtain ⟨b', c, hb, rfl, hbc⟩ := h'
  cases hb
  exact ⟨a, c, rfl, rfl, hab.trans hbc⟩

theorem Double.atMost_fin {a b : Decimal} : (fin a).AtMost (fin b) ↔ b.lt a = false := by
  rw [← Bool.not_eq_true, Decimal.lt_iff, not_lt]
  constructor
  · rintro ⟨a', b', ha, hb, h⟩
    cases ha
    cases hb
    exact h
  · intro h
    exact ⟨a, b, rfl, rfl, h⟩

theorem Double.AtMost.refl (a : Decimal) : (fin a).AtMost (fin a) := ⟨a, a, rfl, rfl, le_refl _⟩

theorem zpow_le_of_digitCount {m : ℕ} (hm : m ≠ 0) (e : ℤ) :
    (10 : ℚ) ^ ((digitCount m : ℤ) - 1 + e) ≤ m * 10 ^ e := by
  rw [zpow_add₀ (by norm_num)]
  refine mul_le_mul_of_nonneg_right ?_ (by positivity)
  obtain ⟨n, hn⟩ : ∃ n, digitCount m = n + 1 := ⟨digitCount m - 1, by have := digitCount_pos m; omega⟩
  have hle : 10 ^ n ≤ m := by
    rcases Nat.eq_zero_or_pos n with rfl | hpos
    · omega
    · exact pow_le_of_lt_digitCount hpos (by omega)
  rw [hn, Nat.cast_succ, add_sub_cancel_right, zpow_natCast]
  exact_mod_cast hle

theorem lt_zpow_digitCount (m : ℕ) (e : ℤ) : (m : ℚ) * 10 ^ e < 10 ^ ((digitCount m : ℤ) + e) := by
  rw [zpow_add₀ (by norm_num), zpow_natCast]
  refine mul_lt_mul_of_pos_right ?_ (by positivity)
  exact_mod_cast lt_pow_digitCount m

theorem abs_lt_of_mul {m : ℕ} {e : ℤ} {b : ℕ} (he : 0 ≤ e) :
    (m : ℚ) * 10 ^ e < b ↔ m * 10 ^ e.toNat < b := by
  lift e to ℕ using he
  rw [zpow_natCast, Int.toNat_natCast]
  exact_mod_cast Iff.rfl

/-- The bounds of `double`, which are powers of two, against powers of ten. -/
structure DoubleBounds : Prop where
  overflow_lt : 2 ^ 1024 < 10 ^ 309 + 2 ^ 970
  lt_overflow : 10 ^ 308 + 2 ^ 970 < 2 ^ 1024
  overflow_le_sixDigits : 2 * (2 ^ 1024 - 2 ^ 970) ≤ 359539 * 10 ^ 303
  sixDigits_lt_overflow : 179769 * 10 ^ 303 < 2 ^ 1024 - 2 ^ 970
  normal : 10 ^ 307 ≤ 2 ^ 1022
  normal_le_sixDigits : 10 ^ 313 ≤ 222508 * 2 ^ 1022
  sixDigits_lt_normal : 222507 * 2 ^ 1076 < (2 ^ 54 - 1) * 10 ^ 313
  digits_le_normal : 10 ^ 6 * 2 ^ 1076 ≤ (2 ^ 54 - 1) * 10 ^ 314
  smallest_le_normal : 1 * 2 ^ 1076 ≤ (2 ^ 54 - 1) * 2 ^ 1074
  smallest : 2 ^ 1074 < 10 ^ 400

/-- All are computed here, so that no proof that needs one has to. -/
theorem doubleBounds : DoubleBounds := by constructor <;> decide +kernel

/-- A few digits are never an exact multiple of the smallest `double`, unless they are normal. -/
theorem not_subnormal_of_lt {m n : ℕ} (hm : m ≠ 0) (hm6 : m < 10 ^ 6)
    (hlt : m * 2 ^ 1022 < 10 ^ n) : ¬10 ^ n ∣ m * 2 ^ 1074 := by
  intro hdvd
  have h5 : 5 ^ n ∣ m := by
    have h10 : 5 ^ n ∣ m * 2 ^ 1074 := (pow_dvd_pow_of_dvd (by norm_num) n).trans hdvd
    have hco : ∀ k, Nat.Coprime (5 ^ n) (2 ^ k) := fun k => Nat.Coprime.pow n k (by norm_num)
    exact (hco 1074).dvd_of_dvd_mul_right h10
  have hle : 5 ^ n ≤ m := Nat.le_of_dvd (Nat.pos_of_ne_zero hm) h5
  have hn : n < 9 := by
    by_contra hn
    have : 5 ^ 9 ≤ 5 ^ n := Nat.pow_le_pow_right (by omega) (by omega)
    have h59 : 10 ^ 6 < 5 ^ 9 := by norm_num
    omega
  have h10 : 10 ^ n ≤ 10 ^ 8 := Nat.pow_le_pow_right (by omega) (by omega)
  have h2 : 10 ^ 8 ≤ 2 ^ 1022 :=
    (Nat.pow_le_pow_right (by omega) (by omega)).trans doubleBounds.normal
  have h3 : 2 ^ 1022 ≤ m * 2 ^ 1022 := Nat.le_mul_of_pos_left _ (Nat.pos_of_ne_zero hm)
  exact absurd (h3.trans_lt hlt) (Nat.not_lt.2 (h10.trans h2))

/-- A few digits that are less than `2 ^ -1022` are less than half a digit below it, too. -/
theorem not_normal_of_lt {m n : ℕ} (h6 : m < 10 ^ 6) (hlt : m * 2 ^ 1022 < 10 ^ n) :
    m * 2 ^ 1076 < (2 ^ 54 - 1) * 10 ^ n := by
  rcases le_or_gt n 313 with hn | hn
  · -- the digits at the place of `10 ^ -313`
    have hpow : 10 ^ n * 10 ^ (313 - n) = 10 ^ 313 := by
      rw [← Nat.pow_add]
      congr 1
      omega
    have hpos : 0 < 10 ^ (313 - n) := by positivity
    have hscaled : m * 10 ^ (313 - n) ≤ 222507 := by
      by_contra hgt
      have h1 : 222508 * 2 ^ 1022 ≤ m * 10 ^ (313 - n) * 2 ^ 1022 :=
        Nat.mul_le_mul_right _ (by omega)
      have h2 : m * 2 ^ 1022 * 10 ^ (313 - n) < 10 ^ n * 10 ^ (313 - n) :=
        Nat.mul_lt_mul_of_pos_right hlt hpos
      rw [hpow, Nat.mul_right_comm] at h2
      exact absurd (h1.trans_lt h2) (Nat.not_lt.2 doubleBounds.normal_le_sixDigits)
    have h5 : m * 2 ^ 1076 * 10 ^ (313 - n) < (2 ^ 54 - 1) * 10 ^ n * 10 ^ (313 - n) := by
      rw [Nat.mul_assoc _ (10 ^ n), hpow, Nat.mul_right_comm]
      exact (Nat.mul_le_mul_right _ hscaled).trans_lt doubleBounds.sixDigits_lt_normal
    exact Nat.lt_of_mul_lt_mul_right h5
  · have h1 : m * 2 ^ 1076 < 10 ^ 6 * 2 ^ 1076 := Nat.mul_lt_mul_of_pos_right h6 (by positivity)
    have hdvd : 10 ^ 314 ∣ 10 ^ n := pow_dvd_pow 10 hn
    have h3 := Nat.le_of_dvd (by positivity) hdvd
    exact h1.trans_le (doubleBounds.digits_le_normal.trans (Nat.mul_le_mul_left _ h3))

section Range

theorem range_cast : (2 : ℚ) ^ 1024 - 2 ^ 970 = ((2 ^ 1024 - 2 ^ 970 : ℕ) : ℚ) := by
  have hle : 2 ^ 970 ≤ 2 ^ 1024 := pow_le_pow_right₀ (by norm_num) (by norm_num)
  rw [Nat.cast_sub hle, Nat.cast_pow, Nat.cast_pow, Nat.cast_ofNat]

/-- The bounds of the range, against powers of ten. -/
theorem range_lt_pow : (2 : ℚ) ^ 1024 - 2 ^ 970 < 10 ^ (309 : ℤ) := by
  have hq : (2 : ℚ) ^ 1024 < 10 ^ 309 + 2 ^ 970 := by exact_mod_cast doubleBounds.overflow_lt
  exact sub_lt_iff_lt_add.2 hq

theorem zpow_lt_range : (10 : ℚ) ^ (308 : ℤ) < 2 ^ 1024 - 2 ^ 970 := by
  have hq : (10 : ℚ) ^ 308 + 2 ^ 970 < 2 ^ 1024 := by exact_mod_cast doubleBounds.lt_overflow
  exact lt_sub_iff_add_lt.2 hq

theorem zpow_lt_smallest : (10 : ℚ) ^ (-400 : ℤ) < 1 / 2 ^ 1074 := by
  have hq : (2 : ℚ) ^ 1074 < 10 ^ 400 := by exact_mod_cast doubleBounds.smallest
  rw [show (-400 : ℤ) = -(400 : ℕ) from rfl, zpow_neg, zpow_natCast, ← one_div]
  exact one_div_lt_one_div_of_lt (by positivity) hq

theorem tiny_le_zpow : 1 / 2 ^ 1022 ≤ (10 : ℚ) ^ (-307 : ℤ) := by
  have hq : (10 : ℚ) ^ 307 ≤ 2 ^ 1022 := by exact_mod_cast doubleBounds.normal
  rw [show (-307 : ℤ) = -(307 : ℕ) from rfl, zpow_neg, zpow_natCast, ← one_div]
  exact one_div_le_one_div_of_le (by positivity) hq

/-- Powers of ten keep their order. -/
theorem zpow_ten_mono {a b : ℤ} (h : a ≤ b) : (10 : ℚ) ^ a ≤ 10 ^ b :=
  zpow_le_zpow_right₀ (by norm_num) h

variable {r : Decimal}

theorem Decimal.Finite.exp_lt (hfin : r.Finite) (hm : r.mant ≠ 0) :
    (digitCount r.mant : ℤ) - 1 + r.exp < 309 := by
  by_contra hge
  have hlow := zpow_le_of_digitCount hm r.exp
  have hle := (zpow_ten_mono (not_lt.1 hge)).trans hlow
  exact absurd ((hfin.trans range_lt_pow).trans_le hle) (lt_irrefl _)

theorem Decimal.abs_of_exp_neg {n : ℕ} (hn : r.exp = -n) : r.abs = r.mant / 10 ^ n := by
  rw [abs, hn, zpow_neg, zpow_natCast, div_eq_mul_inv]

theorem div_pow_eq_iff {m k a b : ℕ} : (m : ℚ) / 10 ^ a = k / 2 ^ b ↔ m * 2 ^ b = k * 10 ^ a := by
  rw [div_eq_div_iff (by positivity) (by positivity)]
  exact_mod_cast Iff.rfl

theorem one_div_pow_le_iff {m a b : ℕ} : (1 : ℚ) / 2 ^ b ≤ m / 10 ^ a ↔ 10 ^ a ≤ m * 2 ^ b := by
  rw [div_le_div_iff₀ (by positivity) (by positivity), one_mul]
  exact_mod_cast Iff.rfl

theorem normal_bound : (1 : ℚ) / 2 ^ 1022 - 1 / 2 ^ 1076 = ((2 ^ 54 - 1 : ℕ) : ℚ) / 2 ^ 1076 := by
  have hpow : (2 : ℚ) ^ 1076 = 2 ^ 54 * 2 ^ 1022 := by rw [← pow_add]
  rw [hpow]
  field_simp
  norm_num

theorem Decimal.normal_of_le (h : 1 / 2 ^ 1022 ≤ r.abs) : r.Normal :=
  (sub_le_self _ (by positivity)).trans h

theorem Decimal.normal_iff_of_exp_neg {n : ℕ} (hn : r.exp = -n) :
    r.Normal ↔ (2 ^ 54 - 1) * 10 ^ n ≤ r.mant * 2 ^ 1076 := by
  rw [Normal, normal_bound, Decimal.abs_of_exp_neg hn, div_le_div_iff₀ (by positivity) (by positivity)]
  exact_mod_cast Iff.rfl

/-- Below the smallest `double` there is no other. -/
theorem not_taken_of_lt (hpos : 0 < r.abs) (hlt : r.abs < 1 / 2 ^ 1074) :
    ¬(r.Normal ∨ ∃ k : ℕ, r.abs = k / 2 ^ 1074) := by
  rintro (h | ⟨k, hk⟩)
  · have hle : (1 : ℚ) / 2 ^ 1074 ≤ 1 / 2 ^ 1022 - 1 / 2 ^ 1076 := by
      rw [normal_bound, div_le_div_iff₀ (by positivity) (by positivity)]
      exact_mod_cast doubleBounds.smallest_le_normal
    exact absurd (hlt.trans_le (hle.trans h)) (lt_irrefl _)
  · rw [hk] at hpos hlt
    rw [div_lt_div_iff_of_pos_right (by positivity)] at hlt
    have hk : k = 0 := by
      have hk1 : k < 1 := by exact_mod_cast hlt
      omega
    rw [hk] at hpos
    simp at hpos

/-- Whether `strtod` finds no range error: the number does not round to an infinity, and it is zero,
rounds to a normal `double`, or is a multiple of the smallest one. -/
theorem inRange_iff_abs : inRange r = true ↔
    r.mant = 0 ∨ r.Finite ∧ (r.Normal ∨ ∃ k : ℕ, r.abs = k / 2 ^ 1074) := by
  by_cases hm : r.mant = 0
  · simp [inRange, hm]
  have hlow := zpow_le_of_digitCount hm r.exp
  have hup := lt_zpow_digitCount r.mant r.exp
  have habs : r.abs = r.mant * 10 ^ r.exp := rfl
  rw [← habs] at hlow hup
  have hpos : 0 < r.abs := lt_of_lt_of_le (by positivity) hlow
  rw [or_iff_right hm]
  unfold inRange
  dsimp only
  rw [if_neg hm]
  by_cases hbig : 309 ≤ (digitCount r.mant : ℤ) - 1 + r.exp
  · rw [if_pos hbig]
    exact ⟨fun h => absurd h Bool.false_ne_true, fun h => absurd (h.1.exp_lt hm) (not_lt.2 hbig)⟩
  rw [if_neg hbig]
  by_cases hsmall : (digitCount r.mant : ℤ) - 1 + r.exp < -400
  · -- below the smallest `double`
    rw [if_pos hsmall]
    have hlt : r.abs < 1 / 2 ^ 1074 :=
      (hup.trans_le (zpow_ten_mono (by omega))).trans zpow_lt_smallest
    exact ⟨fun h => absurd h Bool.false_ne_true, fun h => absurd h.2 (not_taken_of_lt hpos hlt)⟩
  rw [if_neg hsmall]
  by_cases hmid : -307 ≤ (digitCount r.mant : ℤ) - 1 + r.exp ∧ (digitCount r.mant : ℤ) - 1 + r.exp < 308
  · rw [if_pos hmid]
    have hfin : r.Finite :=
      (hup.trans_le (zpow_ten_mono (by omega))).trans zpow_lt_range
    have hnormal : r.Normal :=
      Decimal.normal_of_le (tiny_le_zpow.trans ((zpow_ten_mono hmid.1).trans hlow))
    exact ⟨fun _ => ⟨hfin, .inl hnormal⟩, fun _ => rfl⟩
  rw [if_neg hmid]
  by_cases hexp : 0 ≤ r.exp
  · -- an integer in the last decade
    have hdc := digitCount_pos r.mant
    have hfin : r.Finite ↔ r.mant * 10 ^ r.exp.toNat < 2 ^ 1024 - 2 ^ 970 := by
      rw [← abs_lt_of_mul hexp, ← range_cast]
      rfl
    have hge : -307 ≤ (digitCount r.mant : ℤ) - 1 + r.exp := by omega
    rw [if_pos hexp, decide_eq_true_eq, ← hfin]
    have hnormal : r.Normal :=
      Decimal.normal_of_le (tiny_le_zpow.trans ((zpow_ten_mono hge).trans hlow))
    exact ⟨fun h => ⟨h, .inl hnormal⟩, And.left⟩
  · -- at the border between normal numbers and others
    obtain ⟨n, hn⟩ : ∃ n : ℕ, r.exp = -n := ⟨(-r.exp).toNat, by omega⟩
    have hp : (-r.exp).toNat = n := by omega
    have hfin : r.Finite ↔ r.mant < (2 ^ 1024 - 2 ^ 970) * 10 ^ n := by
      rw [Decimal.Finite, Decimal.abs_of_exp_neg hn, range_cast, div_lt_iff₀ (by positivity)]
      exact_mod_cast Iff.rfl
    have hexact : (∃ k : ℕ, r.abs = k / 2 ^ 1074) ↔ r.mant * 2 ^ 1074 % 10 ^ n = 0 := by
      rw [← Nat.dvd_iff_mod_eq_zero, dvd_def, Decimal.abs_of_exp_neg hn]
      refine exists_congr fun k => ?_
      rw [div_pow_eq_iff, mul_comm (10 ^ n)]
    rw [if_neg hexp, hp, Bool.and_eq_true, Bool.or_eq_true, decide_eq_true_eq, decide_eq_true_eq,
      beq_iff_eq, hfin, hexact, Decimal.normal_iff_of_exp_neg hn]

/-- On a number of at most six digits, `inRange` fails only below the normal numbers. -/
theorem inRange_iff (hm : r.mant ≠ 0) (h6 : r.mant < 10 ^ 6) (hfin : r.Finite) :
    inRange r = true ↔ 1 / 2 ^ 1022 ≤ r.abs := by
  rw [inRange_iff_abs, or_iff_right hm, and_iff_right hfin]
  refine ⟨fun h => ?_, fun h => .inl (Decimal.normal_of_le h)⟩
  by_contra hlt
  rcases le_or_gt 0 r.exp with hexp | hexp
  · -- an integer is normal
    have hone : (1 : ℚ) ≤ r.abs :=
      one_le_mul_of_one_le_of_one_le (by exact_mod_cast Nat.pos_of_ne_zero hm)
        (one_le_zpow₀ (by norm_num) hexp)
    have htiny : (1 : ℚ) / 2 ^ 1022 ≤ 1 := by
      rw [div_le_one (by positivity)]
      exact one_le_pow₀ (by norm_num)
    exact hlt (htiny.trans hone)
  · obtain ⟨n, hn⟩ : ∃ n : ℕ, r.exp = -n := ⟨(-r.exp).toNat, by omega⟩
    rw [Decimal.abs_of_exp_neg hn, one_div_pow_le_iff, not_le] at hlt
    rcases h with hnormal | ⟨k, hk⟩
    · exact Nat.not_le.2 (not_normal_of_lt h6 hlt) ((Decimal.normal_iff_of_exp_neg hn).1 hnormal)
    · rw [Decimal.abs_of_exp_neg hn, div_pow_eq_iff] at hk
      exact not_subnormal_of_lt hm h6 hlt ⟨k, by rw [hk, mul_comm]⟩

end Range

/-- A number of more than six digits is rounded up only from a half on. -/
theorem exists_rounded {d : Decimal} (h : 6 < digitCount d.mant) :
    ∃ q : ℕ, d.rendered.abs = q * 10 ^ ((digitCount d.mant : ℤ) - 6 + d.exp) ∧
      (q = d.mant / 10 ^ (digitCount d.mant - 6) ∨
        q = d.mant / 10 ^ (digitCount d.mant - 6) + 1 ∧
          10 ^ (digitCount d.mant - 6) ≤ 2 * (d.mant % 10 ^ (digitCount d.mant - 6))) := by
  obtain ⟨hq1, hq2⟩ := leading_digits h
  set p := 10 ^ (digitCount d.mant - 6) with hp
  refine ⟨if p < 2 * (d.mant % p) ∨ (2 * (d.mant % p) = p ∧ d.mant / p % 2 = 1) then d.mant / p + 1
    else d.mant / p, ?_, ?_⟩
  · simp only [Decimal.rendered, sixDigits, if_neg (by omega : ¬digitCount d.mant ≤ 6), ← hp]
    set q := if p < 2 * (d.mant % p) ∨ (2 * (d.mant % p) = p ∧ d.mant / p % 2 = 1) then
      d.mant / p + 1 else d.mant / p with hq
    have hq5 : 10 ^ 5 ≤ q := by
      rw [hq]
      split <;> omega
    have hq6 : q ≤ 10 ^ 6 := by
      rw [hq]
      split <;> omega
    by_cases hcarry : q = 10 ^ 6
    · have hone : digitCount 1 = 1 := by decide
      have hpow : (10 : ℚ) ^ ((digitCount d.mant : ℤ) + d.exp) =
          ((10 ^ 6 : ℕ) : ℚ) * 10 ^ ((digitCount d.mant : ℤ) - 6 + d.exp) := by
        rw [Nat.cast_pow, ← zpow_natCast, Nat.cast_ofNat, ← zpow_add₀ (by norm_num)]
        congr 1
        push_cast
        omega
      rw [if_pos hcarry, Decimal.abs_of, hcarry, hone, ← hpow, Nat.cast_one, one_mul]
      congr 1
      omega
    · rw [if_neg hcarry, Decimal.abs_of, digitCount_eq_six hq5 (by omega)]
      congr 2
      omega
  · split
    · rename_i hr
      exact .inr ⟨rfl, by omega⟩
    · exact .inl rfl

/-- Six digits at the place of the leading digits of `d`. -/
theorem digits_scale {d : Decimal} (h : 6 < digitCount d.mant) (n : ℕ) :
    (n : ℚ) * 10 ^ ((digitCount d.mant : ℤ) - 6 + d.exp) =
      ((n * 10 ^ (digitCount d.mant - 6) : ℕ) : ℚ) * 10 ^ d.exp := by
  have hpow : (10 : ℚ) ^ ((digitCount d.mant : ℤ) - 6 + d.exp) =
      ((10 ^ (digitCount d.mant - 6) : ℕ) : ℚ) * 10 ^ d.exp := by
    rw [Nat.cast_pow, ← zpow_natCast, Nat.cast_ofNat, ← zpow_add₀ (by norm_num)]
    congr 1
    omega
  rw [hpow, Nat.cast_mul]
  ring

theorem mul_zpow_lt_range {q : ℕ} {e : ℤ} (hq : q ≤ 10 ^ 6) (he : e ≤ 302) :
    (q : ℚ) * 10 ^ e < 2 ^ 1024 - 2 ^ 970 := by
  refine lt_of_le_of_lt ?_ zpow_lt_range
  calc (q : ℚ) * 10 ^ e ≤ 10 ^ (6 : ℤ) * 10 ^ (302 : ℤ) :=
        mul_le_mul (by exact_mod_cast hq) (zpow_ten_mono he) (by positivity) (by positivity)
    _ = 10 ^ (308 : ℤ) := by rw [← zpow_add₀ (by norm_num)]; rfl

/-- A number below the last decade is finite. -/
theorem Decimal.finite_of {neg : Bool} {m : ℕ} {e : ℤ} (h : (digitCount m : ℤ) + e ≤ 308) :
    (Decimal.of neg m e).Finite := by
  rw [Finite, abs_of]
  exact ((lt_zpow_digitCount m e).trans_le (zpow_ten_mono h)).trans zpow_lt_range

/-- In the last decade six digits stay in the range if half a digit less is in it. -/
theorem last_decade {q : ℕ} (h : ((2 * q - 1 : ℕ) : ℚ) * 10 ^ (303 : ℤ) < 2 * (2 ^ 1024 - 2 ^ 970)) :
    (q : ℚ) * 10 ^ (303 : ℤ) < 2 ^ 1024 - 2 ^ 970 := by
  have h303 : (10 : ℚ) ^ (303 : ℤ) = ((10 ^ 303 : ℕ) : ℚ) := by
    rw [show (303 : ℤ) = (303 : ℕ) from rfl, zpow_natCast, Nat.cast_pow, Nat.cast_ofNat]
  rw [range_cast, h303] at h ⊢
  have hnat : (2 * q - 1) * 10 ^ 303 < 2 * (2 ^ 1024 - 2 ^ 970) := by exact_mod_cast h
  have hq : q ≤ 179769 := by
    by_contra hgt
    have h1 : 359539 * 10 ^ 303 ≤ (2 * q - 1) * 10 ^ 303 := Nat.mul_le_mul_right _ (by omega)
    exact absurd (hnat.trans_le (doubleBounds.overflow_le_sixDigits.trans h1)) (Nat.lt_irrefl _)
  have h2 : q * 10 ^ 303 < 2 ^ 1024 - 2 ^ 970 :=
    (Nat.mul_le_mul_right _ hq).trans_lt doubleBounds.sixDigits_lt_overflow
  exact_mod_cast h2

theorem Decimal.Finite.rendered {d : Decimal} (h : d.Finite) : d.rendered.Finite := by
  by_cases h6 : digitCount d.mant ≤ 6
  · have habs : d.rendered.abs = d.abs := by
      simp only [Decimal.rendered, sixDigits_of_digitCount_le h6, Decimal.abs_of]
      rw [Decimal.abs]
      congr 2
      omega
    rw [Finite, habs]
    exact h
  · have hne : d.mant ≠ 0 := by
      intro h0
      rw [h0] at h6
      exact h6 (by decide)
    have hx := h.exp_lt hne
    obtain ⟨q, habs, hq⟩ := exists_rounded (not_le.1 h6)
    have hdiv := Nat.div_add_mod d.mant (10 ^ (digitCount d.mant - 6))
    have hq6 := (leading_digits (not_le.1 h6)).2
    rw [Finite, habs]
    rcases hq with hq | ⟨hq, hhalf⟩
    · -- rounded down
      refine lt_of_le_of_lt ?_ h
      rw [digits_scale (not_le.1 h6), hq, Decimal.abs]
      refine mul_le_mul_of_nonneg_right ?_ (by positivity)
      exact_mod_cast Nat.div_mul_le_self _ _
    · -- rounded up
      by_cases he : (digitCount d.mant : ℤ) - 6 + d.exp ≤ 302
      · exact mul_zpow_lt_range (by omega) he
      · have he3 : (digitCount d.mant : ℤ) - 6 + d.exp = 303 := by omega
        have htwo : ((2 * q - 1 : ℕ) : ℚ) * 10 ^ ((digitCount d.mant : ℤ) - 6 + d.exp) ≤
            2 * d.abs := by
          rw [digits_scale (not_le.1 h6), Decimal.abs, ← mul_assoc]
          refine mul_le_mul_of_nonneg_right ?_ (by positivity)
          have hnat : (2 * q - 1) * 10 ^ (digitCount d.mant - 6) ≤ 2 * d.mant := by
            generalize 10 ^ (digitCount d.mant - 6) = p at *
            have hq2 : 2 * q - 1 = 2 * (d.mant / p) + 1 := by omega
            rw [hq2, Nat.add_mul, Nat.one_mul, Nat.mul_assoc, Nat.mul_comm _ p]
            omega
          exact_mod_cast hnat
        rw [he3] at htwo ⊢
        exact last_decade (htwo.trans_lt (mul_lt_mul_of_pos_left h (by norm_num)))

theorem inRange_rendered_iff {d : Decimal} (h : d.Finite) :
    inRange d.rendered = true ↔ ¬d.rendered.Tiny := by
  by_cases hm : d.mant = 0
  · rw [Decimal.rendered_zero hm, inRange]
    simp [hm, Decimal.Tiny]
  · obtain ⟨a, k, x, hs, ha, ha6⟩ := exists_sixDigits hm d.exp
    have hr := Decimal.rendered_eq hs ha
    have ha0 : d.rendered.mant ≠ 0 := by
      rw [hr]
      rintro rfl
      exact ha rfl
    have ha6' : d.rendered.mant < 10 ^ 6 := by
      rw [hr]
      exact (digitCount_le_iff (by omega)).1 ha6
    rw [inRange_iff ha0 ha6' h.rendered, Decimal.Tiny, not_and, not_lt]
    exact ⟨fun h _ => h, fun h => h ha0⟩

/-- The value is one that a `double` can have. -/
def Double.Finite (x : Double) : Prop := ∀ d, x = .fin d → d.Finite

/-- The value is written as a number that is too small for a normal `double`. -/
def Double.Tiny (x : Double) : Prop := ∃ d, x = .fin d ∧ d.rendered.Tiny

/-- **`std::stod` reads the text of a `double`** as what was rendered of it, if that is not too small. -/
theorem stod_showDouble {x : Double} (h : ¬x.Tiny) (hx : x.Finite) :
    stod (showDouble x) = .ok x.rendered := by
  cases x with
  | fin d =>
    have hr : inRange d.rendered = true :=
      (inRange_rendered_iff (hx d rfl)).2 fun htiny => h ⟨d, rfl, htiny⟩
    rw [stod_showDouble_fin, if_pos hr]
    rfl
  | inf neg => cases neg <;> rfl
  | nan neg => cases neg <;> rfl

theorem stod_showDouble_of_tiny {x : Double} (h : x.Tiny) (hx : x.Finite) :
    stod (showDouble x) = .error (.outOfRange "stod") := by
  obtain ⟨d, rfl, htiny⟩ := h
  have hr : ¬inRange d.rendered = true := fun hr => (inRange_rendered_iff (hx d rfl)).1 hr htiny
  rw [stod_showDouble_fin, if_neg hr]

end TicketIST.Lib
