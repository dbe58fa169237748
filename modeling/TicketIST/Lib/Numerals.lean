import TicketIST.Lib.Decimal

/-!
# Decimal numerals

The texts that stand for decimal numbers, as a grammar (`DecNumeral`): a sign, digits around a point,
and an exponent.  `strtod` skips blanks, knows hexadecimal numbers and names of special values, and
stops where the number ends; a numeral it reads whole, and as the number it stands for
(`DecNumeral.strtod`).  So what `std::stod` makes of one depends on its range only
(`DecNumeral.stod`).
-/

namespace TicketIST.Lib

/-! ### Digits around a point -/

/-- What may follow the digits of a numeral: nothing, or an exponent. -/
def EndsDigits (s : Text) : Prop := ∀ c ∈ s.head?, c.isDigit = false ∧ c ≠ '.'

theorem EndsDigits.nil : EndsDigits [] := by
  intro c hc
  cases hc

theorem EndsDigits.cons {c : Char} (h : c.isDigit = false) (h' : c ≠ '.') (s : Text) :
    EndsDigits (c :: s) := by
  intro c' hc
  cases hc
  exact ⟨h, h'⟩

theorem dropWhile_isDigit_append {ds s : Text} (hds : ∀ c ∈ ds, c.isDigit = true)
    (hs : ∀ c ∈ s.head?, c.isDigit = false) : (ds ++ s).dropWhile Char.isDigit = s := by
  rw [List.dropWhile_append_of_pos hds]
  cases s with
  | nil => rfl
  | cons c s => exact List.dropWhile_cons_of_neg (by simp [hs c rfl])

/-- Digits with a point among them or without one: the text, and the digits on both sides. -/
inductive Mantissa : Text → Text → Text → Prop
  | whole {int : Text} (hint : ∀ c ∈ int, c.isDigit = true) : Mantissa int int []
  | point {int frac : Text} (hint : ∀ c ∈ int, c.isDigit = true)
    (hfrac : ∀ c ∈ frac, c.isDigit = true) : Mantissa (int ++ '.' :: frac) int frac

section

variable {mant int frac : Text}

theorem Mantissa.of_fraction (hint : ∀ c ∈ int, c.isDigit = true)
    (hfrac : ∀ c ∈ frac, c.isDigit = true) : Mantissa (int ++ fraction frac) int frac := by
  cases frac with
  | nil =>
    rw [fraction, List.append_nil]
    exact .whole hint
  | cons d ds => exact .point hint hfrac

theorem Mantissa.mem (h : Mantissa mant int frac) {c : Char} (hc : c ∈ mant) :
    c.isDigit = true ∨ c = '.' := by
  cases h with
  | whole hint => exact .inl (hint c hc)
  | point hint hfrac =>
    rcases List.mem_append.1 hc with hc | hc
    · exact .inl (hint c hc)
    · rcases List.mem_cons.1 hc with rfl | hc
      · exact .inr rfl
      · exact .inl (hfrac c hc)

theorem Mantissa.ne_nil (h : Mantissa mant int frac) (hne : int ++ frac ≠ []) : mant ≠ [] := by
  cases h with
  | whole hint => rwa [List.append_nil] at hne
  | point hint hfrac => simp

theorem Mantissa.take (h : Mantissa mant int frac) {tail : Text} (htail : EndsDigits tail) :
    takeMantissa Char.isDigit (mant ++ tail) = (int, frac, tail) := by
  have hend : ∀ c ∈ tail.head?, c.isDigit = false := fun c hc => (htail c hc).1
  cases h with
  | whole hint =>
    simp only [takeMantissa, takeWhile_isDigit_append hint hend, dropWhile_isDigit_append hint hend]
    split
    · exact absurd rfl (htail '.' rfl).2
    · rfl
  | point hint hfrac =>
    have hdot : ∀ c ∈ ('.' :: (frac ++ tail)).head?, c.isDigit = false := by
      intro c hc
      cases hc
      rfl
    rw [List.append_assoc, List.cons_append]
    simp only [takeMantissa, takeWhile_isDigit_append hint hdot, dropWhile_isDigit_append hint hdot,
      takeWhile_isDigit_append hfrac hend, dropWhile_isDigit_append hfrac hend]

end

/-! ### Special names -/

theorem toLower_of_isDigit {c : Char} (h : c.isDigit = true) : c.toLower = c := by
  rw [Char.isDigit, Bool.and_eq_true, decide_eq_true_eq, decide_eq_true_eq] at h
  have hup : ¬ 'A'.val ≤ '9'.val := by decide
  exact dif_neg fun hc => hup (UInt32.le_trans hc.1 h.2)

/-- A text without one of its letters does not begin with a word. -/
theorem not_beginsWith {s : Text} {w : String} {c : Char} (hw : c ∈ w.toList)
    (hs : ∀ x ∈ s, x.toLower ≠ c) : beginsWith w s = false := by
  refine decide_eq_false ?_
  intro heq
  rw [← heq] at hw
  obtain ⟨x, hx, hxc⟩ := List.mem_map.1 hw
  exact hs x (List.mem_of_mem_take hx) hxc

/-- The letters that tell special values and hexadecimal numbers from decimal ones. -/
def Lettered (c : Char) : Prop := c.toLower ∈ ['i', 'n', 'x']

theorem not_lettered_of_isDigit {c : Char} (h : c.isDigit = true) : ¬Lettered c := by
  rw [Lettered, toLower_of_isDigit h]
  intro hmem
  simp only [List.mem_cons, List.not_mem_nil, or_false] at hmem
  rcases hmem with rfl | rfl | rfl <;> exact absurd h (by decide)

/-- The other characters of a numeral. -/
theorem not_lettered_of_mem {c : Char} (h : c ∈ ['.', 'e', 'E', '+', '-']) : ¬Lettered c := by
  simp only [List.mem_cons, List.not_mem_nil, or_false] at h
  rw [Lettered]
  rcases h with rfl | rfl | rfl | rfl | rfl <;> decide

/-- `strtod` on decimal digits: what follows them counts for the exponent. -/
theorem strtod_mantissa {sgn mant int frac tail : Text} {neg : Bool} (hsgn : Sign sgn neg)
    (hm : Mantissa mant int frac) (hne : int ++ frac ≠ []) (htail : EndsDigits tail)
    (hlet : ∀ c ∈ tail, ¬Lettered c) :
    strtod (sgn ++ (mant ++ tail)) = some (.fin (.of neg (Nat.ofDigitChars 10 (int ++ frac) 0)
      (takeExponent 'e' tail - frac.length))) := by
  have hletters : ∀ c ∈ mant ++ tail, ¬Lettered c := by
    intro c hc
    rcases List.mem_append.1 hc with hc | hc
    · rcases hm.mem hc with hd | rfl
      · exact not_lettered_of_isDigit hd
      · exact not_lettered_of_mem List.mem_cons_self
    · exact hlet c hc
  have hname : ∀ {w : String} {c : Char}, c ∈ w.toList → c ∈ ['i', 'n', 'x'] →
      beginsWith w (mant ++ tail) = false := by
    intro w c hw hc
    refine not_beginsWith hw fun x hx hxc => hletters x hx ?_
    rwa [Lettered, hxc]
  have hhead : ∀ c ∈ (mant ++ tail).head?, c.isDigit = true ∨ c = '.' := by
    obtain ⟨x, mant', rfl⟩ := List.exists_cons_of_ne_nil (hm.ne_nil hne)
    intro c hc
    cases hc
    exact hm.mem List.mem_cons_self
  have hhex : hexFloat neg (mant ++ tail) = none := by
    rw [hexFloat, hname (c := 'x') (by decide) (by decide)]
    rfl
  have hdec : decFloat neg (mant ++ tail) = some (.of neg (Nat.ofDigitChars 10 (int ++ frac) 0)
      (takeExponent 'e' tail - frac.length)) := by
    rw [decFloat, hm.take htail]
    split
    · rename_i heq
      cases heq
      exact absurd rfl hne
    · rename_i heq
      cases heq
      rfl
  unfold strtod
  rw [hsgn.read hhead]
  simp only [hname (w := "inf") (c := 'i') (by decide) (by decide),
    hname (w := "nan") (c := 'n') (by decide) (by decide), hhex, hdec]
  rfl

/-! ### Numerals -/

/-- An exponent, or none. -/
inductive Exponent : Text → ℤ → Prop
  | none : Exponent [] 0
  | mk {c : Char} {s : Text} {x : ℤ} (hc : c = 'e' ∨ c = 'E') (hs : IntNumeral s x) :
    Exponent (c :: s) x

/-- A text that stands for a decimal number. -/
inductive DecNumeral : Text → Decimal → Prop
  | mk {sgn mant int frac tail : Text} {neg : Bool} {x : ℤ} (hsgn : Sign sgn neg)
    (hm : Mantissa mant int frac) (hne : int ++ frac ≠ []) (htail : Exponent tail x) :
    DecNumeral (sgn ++ (mant ++ tail))
      (.of neg (Nat.ofDigitChars 10 (int ++ frac) 0) (x - frac.length))

theorem IntNumeral.mem {s : Text} {n : ℤ} (h : IntNumeral s n) {c : Char} (hc : c ∈ s) :
    c.isDigit = true ∨ c = '+' ∨ c = '-' := by
  cases h with
  | mk hsgn hne hds =>
    rcases List.mem_append.1 hc with hc | hc
    · cases hsgn with
      | none => exact absurd hc List.not_mem_nil
      | plus => exact .inr (.inl (List.mem_singleton.1 hc))
      | minus => exact .inr (.inr (List.mem_singleton.1 hc))
    · exact .inl (hds c hc)

theorem IntNumeral.takeSign {s : Text} {n : ℤ} (h : IntNumeral s n) :
    ∃ neg ds, takeSign s = (neg, ds) ∧
      n = if neg then -(Nat.ofDigitChars 10 (ds.takeWhile Char.isDigit) 0 : ℤ)
        else Nat.ofDigitChars 10 (ds.takeWhile Char.isDigit) 0 := by
  cases h with
  | @mk sgn ds neg hsgn hne hds =>
    have hsign : Lib.takeSign (sgn ++ ds) = (neg, ds) :=
      hsgn.take fun c hc => not_sign_of_isDigit (hds c (List.mem_of_mem_head? hc))
    exact ⟨neg, ds, hsign, by rw [List.takeWhile_eq_self_iff.2 hds]⟩

section

variable {tail : Text} {x : ℤ}

theorem Exponent.take (h : Exponent tail x) : takeExponent 'e' tail = x := by
  cases h with
  | none => rfl
  | @mk c s x hc hs =>
    have hlow : c.toLower = 'e' := by
      rcases hc with rfl | rfl <;> rfl
    obtain ⟨neg, ds, hsign, rfl⟩ := hs.takeSign
    rw [takeExponent, if_pos hlow, hsign]

theorem Exponent.endsDigits (h : Exponent tail x) : EndsDigits tail := by
  cases h with
  | none => exact .nil
  | mk hc hs => rcases hc with rfl | rfl <;> exact .cons rfl (by decide) _

theorem Exponent.not_lettered (h : Exponent tail x) : ∀ c ∈ tail, ¬Lettered c := by
  cases h with
  | none => exact fun _ hc => absurd hc List.not_mem_nil
  | mk hc hs =>
    intro c hmem
    rcases List.mem_cons.1 hmem with rfl | hmem
    · refine not_lettered_of_mem ?_
      rcases hc with rfl | rfl <;> decide
    · rcases hs.mem hmem with hd | hd
      · exact not_lettered_of_isDigit hd
      · refine not_lettered_of_mem ?_
        rcases hd with rfl | rfl <;> decide

end

/-- **`strtod` reads a numeral whole.** -/
theorem DecNumeral.strtod {s : Text} {d : Decimal} (h : DecNumeral s d) :
    strtod s = some (.fin d) := by
  cases h with
  | mk hsgn hm hne htail =>
    rw [strtod_mantissa hsgn hm hne htail.endsDigits htail.not_lettered, htail.take]

theorem DecNumeral.stod {s : Text} {d : Decimal} (h : DecNumeral s d) :
    stod s = if inRange d then .ok (.fin d) else .error (.outOfRange "stod") := by
  simp only [Lib.stod, h.strtod]

end TicketIST.Lib
