import Mathlib

/-!
# Strings, streams and number conversions of the C++ library

A `std::string` is the list of its characters.  This file has what programs that take text apart by
hand rely on: `std::getline` on a string stream, with the state bits that decide whether a read
counts as a failure; `find` and `substr` at a separator; integers written by `<<`; and `std::stoi`
and `std::stol`, which read the longest numeric prefix and report a failure by one of two exceptions.
-/

namespace TicketIST.Lib

/-- A `std::string`. -/
abbrev Text := List Char

instance : LawfulBEq Text := List.instLawfulBEq

inductive Exn
  | invalidArgument (what : String)
  | outOfRange (what : String)
  deriving DecidableEq

/-! ### Integers as text -/

/-- `ss << n` for an integer `n`. -/
def showInt : ℤ → Text
  | .ofNat n => Nat.toDigits 10 n
  | .negSucc n => '-' :: Nat.toDigits 10 (n + 1)

theorem mem_showInt {n : ℤ} {c : Char} (h : c ∈ showInt n) : c.isDigit = true ∨ c = '-' := by
  cases n with
  | ofNat n => exact .inl (Nat.isDigit_of_mem_toDigits (by omega) (by omega) h)
  | negSucc n =>
    rcases List.mem_cons.1 h with h | h
    · exact .inr h
    · exact .inl (Nat.isDigit_of_mem_toDigits (by omega) (by omega) h)

theorem toDigits_inj {m n : ℕ} (h : Nat.toDigits 10 m = Nat.toDigits 10 n) : m = n := by
  rw [← Nat.ofDigitChars_toDigits (b := 10) (n := m) (by omega) (by omega), h,
    Nat.ofDigitChars_toDigits (by omega) (by omega)]

theorem minus_not_mem_toDigits (n : ℕ) : '-' ∉ Nat.toDigits 10 n := fun h => by
  have := Nat.isDigit_of_mem_toDigits (by omega) (by omega) h
  revert this
  decide

theorem toDigits_ne_minus (m : ℕ) (s : Text) : Nat.toDigits 10 m ≠ '-' :: s := fun h =>
  minus_not_mem_toDigits m (h ▸ List.mem_cons_self)

theorem showInt_inj {m n : ℤ} (h : showInt m = showInt n) : m = n := by
  cases m with
  | ofNat m =>
    cases n with
    | ofNat n => exact congrArg Int.ofNat (toDigits_inj h)
    | negSucc n => exact absurd h (toDigits_ne_minus m _)
  | negSucc m =>
    cases n with
    | ofNat n => exact absurd h.symm (toDigits_ne_minus n _)
    | negSucc n => rw [Nat.succ.inj (toDigits_inj (List.cons.inj h).2)]

/-- `ss << std::setw(n) << text`: blanks in front, up to `n` characters. -/
def setw (n : ℕ) (text : Text) : Text := List.replicate (n - text.length) ' ' ++ text

/-! ### Separators -/

/-- What comes before the first `c` and what comes after it: `find` and two `substr`. -/
def cut (c : Char) (s : Text) : Option (Text × Text) :=
  match s.dropWhile (· ≠ c) with
  | [] => none
  | _ :: rest => some (s.takeWhile (· ≠ c), rest)

theorem takeWhile_append_sep {c : Char} {a : Text} (h : c ∉ a) (b : Text) :
    (a ++ c :: b).takeWhile (· ≠ c) = a := by
  rw [List.takeWhile_append_of_pos fun x hx => decide_eq_true (ne_of_mem_of_not_mem hx h)]
  simp

/-- Two texts that agree up to a separator neither contains before it agree on both sides. -/
theorem append_sep_inj {c : Char} {a a' b b' : Text} (ha : c ∉ a) (ha' : c ∉ a')
    (h : a ++ c :: b = a' ++ c :: b') : a = a' ∧ b = b' := by
  have h1 : a = a' := by rw [← takeWhile_append_sep ha b, h, takeWhile_append_sep ha' b']
  subst h1
  exact ⟨rfl, (List.cons.inj (List.append_cancel_left h)).2⟩

theorem cut_append {c : Char} {a : Text} (h : c ∉ a) (b : Text) :
    cut c (a ++ c :: b) = some (a, b) := by
  have hdrop : (a ++ c :: b).dropWhile (· ≠ c) = c :: b := by
    rw [List.dropWhile_append_of_pos fun x hx => decide_eq_true (ne_of_mem_of_not_mem hx h)]
    simp
  have htake := takeWhile_append_sep h b
  unfold cut
  rw [hdrop, htake]

theorem exists_cut {c : Char} {s : Text} (h : c ∈ s) : ∃ x, cut c s = some x := by
  obtain ⟨a, b, rfl, ha⟩ := List.eq_append_cons_of_mem h
  exact ⟨_, cut_append ha b⟩

theorem cut_eq_none {c : Char} {s : Text} (h : c ∉ s) : cut c s = none := by
  have hdrop : s.dropWhile (· ≠ c) = [] :=
    List.dropWhile_eq_nil_iff.2 fun x hx => decide_eq_true (ne_of_mem_of_not_mem hx h)
  unfold cut
  rw [hdrop]

/-- What `cut` finds is the text, taken apart at its first separator. -/
theorem eq_of_cut {c : Char} {s a b : Text} (h : cut c s = some (a, b)) :
    s = a ++ c :: b ∧ c ∉ a := by
  by_cases hc : c ∈ s
  · obtain ⟨a', b', rfl, ha'⟩ := List.eq_append_cons_of_mem hc
    rw [cut_append ha'] at h
    cases h
    exact ⟨rfl, ha'⟩
  · rw [cut_eq_none hc] at h
    cases h

/-! ### Functions known on a few texts -/

/-- The function that a table lists; elsewhere it puts `#` before its argument. -/
def extend (table : List (Text × Text)) (s : Text) : Text := (table.lookup s).getD ('#' :: s)

theorem lookup_mem {table : List (Text × Text)} {s d : Text} (h : table.lookup s = some d) :
    (s, d) ∈ table := by
  induction table with
  | nil => cases h
  | cons x table ih =>
    rw [List.lookup_cons] at h
    by_cases hx : s = x.1
    · subst hx
      simp only [beq_self_eq_true] at h
      cases h
      exact List.mem_cons_self
    · rw [beq_eq_false_iff_ne.2 hx] at h
      exact List.mem_cons_of_mem _ (ih h)

theorem extend_injective {table : List (Text × Text)} (hd : (table.map Prod.snd).Nodup)
    (hh : ∀ d ∈ table.map Prod.snd, d.head? ≠ some '#') : Function.Injective (extend table) := by
  have hne : ∀ {s d s'}, table.lookup s = some d → d ≠ '#' :: s' := fun h hds =>
    hh _ (List.mem_map.2 ⟨_, lookup_mem h, rfl⟩) (by rw [hds]; rfl)
  intro s s' h
  unfold extend at h
  cases hs : table.lookup s with
  | none =>
    cases hs' : table.lookup s' with
    | none => rw [hs, hs'] at h; exact (List.cons.inj h).2
    | some d' => rw [hs, hs'] at h; exact absurd h.symm (hne hs')
  | some d =>
    cases hs' : table.lookup s' with
    | none => rw [hs, hs'] at h; exact absurd h (hne hs)
    | some d' =>
      rw [hs, hs'] at h
      exact congrArg Prod.fst (List.inj_on_of_nodup_map hd (lookup_mem hs) (lookup_mem hs') h)

theorem extend_ne_nil {table : List (Text × Text)} (h : [] ∉ table.map Prod.snd) (s : Text) :
    extend table s ≠ [] := by
  unfold extend
  cases hs : table.lookup s with
  | none => simp
  | some d => rintro rfl; exact h (List.mem_map.2 ⟨_, lookup_mem hs, rfl⟩)

theorem le_length_extend {table : List (Text × Text)} {n : ℕ}
    (h : ∀ d ∈ table.map Prod.snd, n ≤ d.length) {s : Text} (hs : n ≤ s.length + 1) :
    n ≤ (extend table s).length := by
  unfold extend
  cases hl : table.lookup s with
  | none => simpa using hs
  | some d => exact h d (List.mem_map.2 ⟨_, lookup_mem hl, rfl⟩)

/-- The inverse of the function that a table lists. -/
def retract (table : List (Text × Text)) (d : Text) : Option Text :=
  (table.find? (·.2 = d)).elim (if d.head? = some '#' then some d.tail else none) fun x => some x.1

theorem retract_extend {table : List (Text × Text)} (hd : (table.map Prod.snd).Nodup)
    (hh : ∀ d ∈ table.map Prod.snd, d.head? ≠ some '#') (s : Text) :
    retract table (extend table s) = some s := by
  unfold retract
  cases hf : table.find? (·.2 = extend table s) with
  | none =>
    have hs : table.lookup s = none := by
      by_contra hs
      obtain ⟨d, hs⟩ := Option.ne_none_iff_exists'.1 hs
      have hmem := List.find?_eq_none.1 hf _ (lookup_mem hs)
      simp [extend, hs] at hmem
    simp [extend, hs]
  | some x =>
    have hx : x.2 = extend table s := by simpa using List.find?_some hf
    have hmem := List.mem_of_find?_eq_some hf
    have hs : table.lookup s = some x.2 := by
      rw [hx]
      unfold extend
      cases hs : table.lookup s with
      | none =>
        refine absurd ?_ (hh _ (List.mem_map_of_mem hmem))
        rw [hx]
        simp [extend, hs]
      | some d => rfl
    have hxs : x = (s, x.2) := List.inj_on_of_nodup_map hd hmem (lookup_mem hs) rfl
    exact congrArg (fun x => some x.1) hxs

/-! ### Streams -/

/-- A `std::istringstream`: the text still to be read and the state bits. -/
structure IStream where
  rest : Text
  eof : Bool := false
  fail : Bool := false

/-- `std::getline(ss, str, delim)`.  A stream that is not good fails and leaves `str` as it was.
Otherwise `str` is what stands before the next `delim`, which is dropped; reaching the end of the
text sets `eof`, and `fail` as well if nothing was there to be read. -/
def getline (ss : IStream) (str : Text) (delim : Char) : Text × IStream :=
  if ss.eof || ss.fail then (str, { ss with fail := true })
  else match cut delim ss.rest with
    | some (field, rest) => (field, { rest })
    | none => (ss.rest, { rest := [], eof := true, fail := ss.rest.isEmpty })

/-- `std::getline` as a condition: the line it read, or nothing if the stream is failed after it. -/
def getline? (ss : IStream) (delim : Char) : Option (Text × IStream) :=
  let (str, ss) := getline ss [] delim
  if ss.fail then none else some (str, ss)

theorem getline_append {c : Char} {a : Text} (h : c ∉ a) (b str : Text) :
    getline { rest := a ++ c :: b } str c = (a, { rest := b }) := by
  simp [getline, cut_append h]

theorem getline?_append {c : Char} {a : Text} (h : c ∉ a) (b : Text) :
    getline? { rest := a ++ c :: b } c = some (a, { rest := b }) := by
  simp [getline?, getline_append h]

/-- The last field of a text, which no separator ends. -/
theorem getline?_last {c : Char} {a : Text} (h : c ∉ a) (hne : a ≠ []) :
    getline? { rest := a } c = some (a, { rest := [], eof := true }) := by
  simp [getline?, getline, cut_eq_none h, hne]

/-- The fields that a stream still has for `getline`: none if it is not good, and one at least if it
is. -/
def IStream.fields (ss : IStream) (delim : Char) : List Text :=
  if ss.eof || ss.fail then [] else ss.rest.splitOn delim

/-- A read takes the next field; where none is left, it leaves the string as it was. -/
theorem getline_fields (ss : IStream) (str : Text) (delim : Char) :
    (getline ss str delim).1 = (ss.fields delim).headD str ∧
      (getline ss str delim).2.fields delim = (ss.fields delim).tail := by
  unfold getline IStream.fields
  by_cases hbad : (ss.eof || ss.fail) = true
  · simp [hbad]
  · rw [if_neg hbad, if_neg hbad]
    by_cases hc : delim ∈ ss.rest
    · obtain ⟨a, b, hab, ha⟩ := List.eq_append_cons_of_mem hc
      rw [hab, cut_append ha, List.splitOn_append_cons_self_of_not_mem ha]
      exact ⟨rfl, rfl⟩
    · rw [cut_eq_none hc, List.splitOn_eq_singleton hc]
      exact ⟨rfl, rfl⟩

/-! ### Numbers -/

/-- `isspace` in the "C" locale. -/
def isSpace (c : Char) : Bool := c ∈ [' ', '\t', '\n', '\x0b', '\x0c', '\r']

/-- An optional sign; `true` for a minus. -/
def takeSign : Text → Bool × Text
  | '-' :: s => (true, s)
  | '+' :: s => (false, s)
  | s => (false, s)

/-- `strtol` in base 10, without its range: blanks, a sign, and the digits that follow. -/
def strtol (s : Text) : Option ℤ :=
  let (neg, s) := takeSign (s.dropWhile isSpace)
  match s.takeWhile Char.isDigit with
  | [] => none
  | ds => some (if neg then -(Nat.ofDigitChars 10 ds 0 : ℤ) else Nat.ofDigitChars 10 ds 0)

/-- `std::stoi` and `std::stol`: `strtol` within `bits` bits. -/
def stoInt (name : String) (bits : ℕ) (s : Text) : Except Exn ℤ :=
  match strtol s with
  | none => .error (.invalidArgument name)
  | some n => if -2 ^ (bits - 1) ≤ n ∧ n < 2 ^ (bits - 1) then .ok n else .error (.outOfRange name)

def stoi : Text → Except Exn ℤ := stoInt "stoi" 32

/-- `std::stol`, for a `long` of 64 bits. -/
def stol : Text → Except Exn ℤ := stoInt "stol" 64

/-- A number beyond the range of `std::stoi`. -/
def TooLarge (s : Text) : Prop := ∃ n, strtol s = some n ∧ ¬(-2 ^ 31 ≤ n ∧ n < 2 ^ 31)

/-- `std::stoi` has a result, or finds no number, or one that is too large. -/
theorem stoi_cases (s : Text) :
    ((∃ n, stoi s = .ok n) ∧ strtol s ≠ none ∧ ¬TooLarge s) ∨
      (stoi s = .error (.invalidArgument "stoi") ∧ strtol s = none) ∨
      (stoi s = .error (.outOfRange "stoi") ∧ TooLarge s) := by
  cases hs : strtol s with
  | none =>
    refine .inr (.inl ⟨?_, rfl⟩)
    simp only [stoi, stoInt, hs]
  | some n =>
    by_cases hn : -2 ^ 31 ≤ n ∧ n < 2 ^ 31
    · refine .inl ⟨⟨n, by simp only [stoi, stoInt, hs, if_pos hn]⟩, nofun, ?_⟩
      rintro ⟨n', hn', hnot⟩
      cases hs.symm.trans hn'
      exact hnot hn
    · exact .inr (.inr ⟨by simp only [stoi, stoInt, hs, if_neg hn], n, hs, hn⟩)

theorem of_stoi_ok {s : Text} (h : ∃ n, stoi s = .ok n) : strtol s ≠ none ∧ ¬TooLarge s := by
  obtain ⟨n, hn⟩ := h
  rcases stoi_cases s with ⟨-, h⟩ | ⟨he, -⟩ | ⟨he, -⟩
  · exact h
  · cases hn.symm.trans he
  · cases hn.symm.trans he

/-! ### Reading back -/

/-- A digit is neither a blank nor a sign. -/
theorem isSpace_of_isDigit {c : Char} (h : c.isDigit = true) : isSpace c = false := by
  cases hs : isSpace c with
  | false => rfl
  | true =>
    simp only [isSpace, List.mem_cons, List.not_mem_nil, or_false, decide_eq_true_eq] at hs
    rcases hs with rfl | rfl | rfl | rfl | rfl | rfl <;> exact absurd h (by decide)

/-- Where a text of digits ends, `strtol` stops. -/
theorem takeWhile_isDigit_append {ds s : Text} (hds : ∀ c ∈ ds, c.isDigit = true)
    (hs : ∀ c ∈ s.head?, c.isDigit = false) : (ds ++ s).takeWhile Char.isDigit = ds := by
  rw [List.takeWhile_append_of_pos hds]
  cases s with
  | nil => simp
  | cons c s => simp [hs c rfl]

theorem takeWhile_isDigit_stop (s : Text) {t : Text} (ht : ∀ c ∈ t.head?, c.isDigit = false) :
    (s ++ t).takeWhile Char.isDigit = s.takeWhile Char.isDigit := by
  induction s with
  | nil => exact takeWhile_isDigit_append (fun _ h => absurd h List.not_mem_nil) ht
  | cons c s ih => rw [List.cons_append, List.takeWhile_cons, List.takeWhile_cons, ih]

theorem takeSign_append {s : Text} (h : s ≠ []) (t : Text) :
    takeSign (s ++ t) = ((takeSign s).1, (takeSign s).2 ++ t) := by
  obtain ⟨c, s, rfl⟩ := List.exists_cons_of_ne_nil h
  rw [List.cons_append]
  unfold takeSign
  split <;> simp_all

/-- What follows a number does not change it, unless its digits go on. -/
theorem strtol_append {s t : Text} {n : ℤ} (h : strtol s = some n)
    (ht : ∀ c ∈ t.head?, c.isDigit = false) : strtol (s ++ t) = some n := by
  have hne : s.dropWhile isSpace ≠ [] := by
    intro hnil
    rw [strtol, hnil] at h
    cases h
  have hdrop : (s ++ t).dropWhile isSpace = s.dropWhile isSpace ++ t := by
    rw [List.dropWhile_append, if_neg (by simpa using hne)]
  rw [strtol, hdrop, takeSign_append hne]
  simp only [takeWhile_isDigit_stop _ ht]
  exact h

theorem isDigit_of_mem_toDigits {n : ℕ} {c : Char} (h : c ∈ Nat.toDigits 10 n) : c.isDigit = true :=
  Nat.isDigit_of_mem_toDigits (by omega) (by omega) h

/-- What may stand before the digits of a number; `true` for a minus. -/
inductive Sign : Text → Bool → Prop
  | none : Sign [] false
  | plus : Sign ['+'] false
  | minus : Sign ['-'] true

/-- The sign ends where something else begins. -/
theorem Sign.take {sgn s : Text} {neg : Bool} (h : Sign sgn neg)
    (hs : ∀ c ∈ s.head?, c ≠ '-' ∧ c ≠ '+') : takeSign (sgn ++ s) = (neg, s) := by
  cases h with
  | none =>
    rw [List.nil_append]
    unfold takeSign
    split
    · exact absurd rfl (hs '-' rfl).1
    · exact absurd rfl (hs '+' rfl).2
    · rfl
  | plus => rfl
  | minus => rfl

theorem Sign.skip {sgn s : Text} {neg : Bool} (h : Sign sgn neg)
    (hs : ∀ c ∈ s.head?, isSpace c = false) : (sgn ++ s).dropWhile isSpace = sgn ++ s := by
  cases h with
  | none =>
    cases s with
    | nil => rfl
    | cons c s => exact List.dropWhile_cons_of_neg (by simp [hs c rfl])
  | plus => exact List.dropWhile_cons_of_neg (by decide)
  | minus => exact List.dropWhile_cons_of_neg (by decide)

theorem not_sign_of_isDigit {c : Char} (h : c.isDigit = true) : c ≠ '-' ∧ c ≠ '+' :=
  ⟨by rintro rfl; exact absurd h (by decide), by rintro rfl; exact absurd h (by decide)⟩

/-- What is found of a number that begins with a digit or a point, behind its sign. -/
theorem Sign.read {sgn s : Text} {neg : Bool} (h : Sign sgn neg)
    (hs : ∀ c ∈ s.head?, c.isDigit = true ∨ c = '.') :
    takeSign ((sgn ++ s).dropWhile isSpace) = (neg, s) := by
  have hskip : (sgn ++ s).dropWhile isSpace = sgn ++ s := by
    refine h.skip fun c hc => ?_
    rcases hs c hc with hd | rfl
    · exact isSpace_of_isDigit hd
    · rfl
  rw [hskip]
  refine h.take fun c hc => ?_
  rcases hs c hc with hd | rfl
  · exact not_sign_of_isDigit hd
  · decide

/-- A text that stands for an integer: a sign and digits. -/
inductive IntNumeral : Text → ℤ → Prop
  | mk {sgn ds : Text} {neg : Bool} (hsgn : Sign sgn neg) (hne : ds ≠ [])
    (hds : ∀ c ∈ ds, c.isDigit = true) : IntNumeral (sgn ++ ds)
      (if neg then -(Nat.ofDigitChars 10 ds 0 : ℤ) else Nat.ofDigitChars 10 ds 0)

/-- `strtol` reads a numeral, and stops where its digits end. -/
theorem strtol_numeral {s t : Text} {n : ℤ} (h : IntNumeral s n)
    (ht : ∀ c ∈ t.head?, c.isDigit = false) : strtol (s ++ t) = some n := by
  obtain @⟨sgn, ds, neg, hsgn, hne, hds⟩ := h
  obtain ⟨c, ds', rfl⟩ := List.exists_cons_of_ne_nil hne
  have hc := hds c List.mem_cons_self
  have hsign : takeSign ((sgn ++ (c :: ds' ++ t)).dropWhile isSpace) = (neg, c :: ds' ++ t) := by
    refine hsgn.read fun x hx => ?_
    cases hx
    exact .inl hc
  rw [strtol, List.append_assoc, hsign]
  simp only [takeWhile_isDigit_append hds ht]

theorem intNumeral_showInt (n : ℤ) : IntNumeral (showInt n) n := by
  have hval : ∀ m : ℕ, Nat.ofDigitChars 10 (Nat.toDigits 10 m) 0 = m := fun m =>
    Nat.ofDigitChars_toDigits (by omega) (by omega)
  cases n with
  | ofNat n =>
    have h := IntNumeral.mk .none Nat.toDigits_ne_nil fun c => isDigit_of_mem_toDigits (n := n)
    rwa [hval] at h
  | negSucc n =>
    have h := IntNumeral.mk .minus Nat.toDigits_ne_nil fun c => isDigit_of_mem_toDigits (n := n + 1)
    rwa [hval] at h

/-- The conversions read the numerals of their range. -/
theorem stoInt_numeral {name : String} {bits : ℕ} {n : ℤ} {s t : Text} (h : IntNumeral s n)
    (hn : -2 ^ (bits - 1) ≤ n ∧ n < 2 ^ (bits - 1)) (ht : ∀ c ∈ t.head?, c.isDigit = false) :
    stoInt name bits (s ++ t) = .ok n := by
  simp only [stoInt, strtol_numeral h ht, if_pos hn]

/-- They read back what `<<` wrote. -/
theorem stoInt_showInt {name : String} {bits : ℕ} {n : ℤ} {s : Text}
    (hn : -2 ^ (bits - 1) ≤ n ∧ n < 2 ^ (bits - 1)) (hs : ∀ c ∈ s.head?, c.isDigit = false) :
    stoInt name bits (showInt n ++ s) = .ok n := stoInt_numeral (intNumeral_showInt n) hn hs

theorem stoi_numeral {s : Text} {n : ℤ} (h : IntNumeral s n) (hn : -2 ^ 31 ≤ n ∧ n < 2 ^ 31) :
    stoi s = .ok n := by
  have hread : stoInt "stoi" 32 (s ++ []) = .ok n := stoInt_numeral h hn (by simp)
  rwa [List.append_nil] at hread

theorem stoi_showInt {n : ℤ} (hn : -2 ^ 31 ≤ n ∧ n < 2 ^ 31) : stoi (showInt n) = .ok n :=
  stoi_numeral (intNumeral_showInt n) hn

theorem stol_showInt {n : ℤ} (hn : -2 ^ 63 ≤ n ∧ n < 2 ^ 63) : stol (showInt n) = .ok n := by
  have h : stoInt "stol" 64 (showInt n ++ []) = .ok n := stoInt_showInt hn (by simp)
  rwa [List.append_nil] at h

end TicketIST.Lib
