import TicketIST.Lib.Strings

/-!
# Floating-point numbers as exact decimals

A finite `double` is modelled by the exact decimal that was written or computed, so no rounding to
binary takes place; infinities and NaNs are values of their own.  What a C++ program can observe of
such a number is here: the comparisons, the text `<<` writes for it (six significant digits, in fixed
or scientific form), and `std::stod`, which reads decimal and hexadecimal numbers and the names of
the special values.
-/

namespace TicketIST.Lib

/-! ### Decimals -/

/-- The decimal `± mant · 10 ^ exp`, written without zeros at the end of `mant`; zero keeps its sign,
as in C++. -/
structure Decimal where
  neg : Bool
  mant : ℕ
  exp : ℤ
  norm : mant % 10 ≠ 0 ∨ mant = 0 ∧ exp = 0
  deriving DecidableEq

def digitCount (n : ℕ) : ℕ := (Nat.toDigits 10 n).length

theorem lt_pow_digitCount (n : ℕ) : n < 10 ^ digitCount n :=
  (Nat.length_toDigits_le_iff (by omega) Nat.length_toDigits_pos).1 (Nat.le_refl _)

/-- Move zeros from the end of a mantissa into its exponent, `fuel` of them at most. -/
def strip : ℕ → ℕ → ℤ → ℕ × ℤ
  | 0, m, e => (m, e)
  | fuel + 1, m, e => if m % 10 = 0 then strip fuel (m / 10) (e + 1) else (m, e)

theorem strip_mod {fuel m : ℕ} (e : ℤ) (h0 : m ≠ 0) (h : m < 10 ^ fuel) :
    (strip fuel m e).1 % 10 ≠ 0 := by
  induction fuel generalizing m e with
  | zero => omega
  | succ fuel ih =>
    unfold strip
    split
    · exact ih _ (by omega) (by rw [Nat.pow_succ] at h; omega)
    · assumption

def Decimal.of (neg : Bool) (m : ℕ) (e : ℤ) : Decimal :=
  if h : m = 0 then ⟨neg, 0, 0, .inr ⟨rfl, rfl⟩⟩
  else ⟨neg, (strip (digitCount m) m e).1, (strip (digitCount m) m e).2,
    .inl (strip_mod e h (lt_pow_digitCount m))⟩

/-- The integer `d · 10 ^ (-e)`, for `e` at most the exponent of `d`. -/
def Decimal.scaled (d : Decimal) (e : ℤ) : ℤ :=
  (if d.neg then -1 else 1) * (d.mant * 10 ^ (d.exp - e).toNat : ℕ)

def Decimal.lt (a b : Decimal) : Bool :=
  let e := min a.exp b.exp
  a.scaled e < b.scaled e

/-! ### `double` -/

/-- A `double`: a finite number, an infinity or a NaN. -/
inductive Double
  | fin (d : Decimal)
  | inf (neg : Bool)
  | nan (neg : Bool)
  deriving DecidableEq

namespace Double

def lt : Double → Double → Bool
  | fin a, fin b => a.lt b
  | inf neg, inf neg' => neg && !neg'
  | inf neg, fin _ => neg
  | fin _, inf neg => !neg
  | nan _, _ => false
  | _, nan _ => false

def zero : Double := fin (.of false 0 0)

def ofNat (n : ℕ) : Double := fin (.of false n 0)

end Double

/-! ### `<<` -/

/-- The first six significant digits of `m · 10 ^ e`, rounded half to even, as a number, and the
decimal exponent of the first of them. -/
def sixDigits (m : ℕ) (e : ℤ) : ℕ × ℤ :=
  let n := digitCount m
  if n ≤ 6 then (m, n - 1 + e)
  else
    let p := 10 ^ (n - 6)
    let q := m / p
    let r := m % p
    let q := if p < 2 * r ∨ (2 * r = p ∧ q % 2 = 1) then q + 1 else q
    -- rounding up may carry into a seventh digit
    if q = 10 ^ 6 then (1, n + e) else (q, n - 1 + e)

def fraction : Text → Text
  | [] => []
  | ds => '.' :: ds

/-- Fixed form, for the decimal exponent `x` of the first digit. -/
def showFixed (ds : Text) (x : ℤ) : Text :=
  if x < 0 then "0.".toList ++ List.replicate (-x - 1).toNat '0' ++ ds
  else
    let n := (x + 1).toNat
    (ds ++ List.replicate (n - ds.length) '0').take n ++ fraction (ds.drop n)

/-- Scientific form; the exponent has at least two digits. -/
def showScientific (ds : Text) (x : ℤ) : Text :=
  let es := Nat.toDigits 10 x.natAbs
  ds.take 1 ++ fraction (ds.drop 1) ++ ['e', if x < 0 then '-' else '+'] ++
    List.replicate (2 - es.length) '0' ++ es

/-- `ss << d` for a `double` `d`, with the stream's default precision of six digits. -/
def showDouble : Double → Text
  | .nan neg => (if neg then "-nan" else "nan").toList
  | .inf neg => (if neg then "-inf" else "inf").toList
  | .fin d =>
    (if d.neg then ['-'] else []) ++
      if d.mant = 0 then ['0']
      else
        let (q, x) := sixDigits d.mant d.exp
        let ds := ((Nat.toDigits 10 q).reverse.dropWhile (· = '0')).reverse
        if -4 ≤ x ∧ x < 6 then showFixed ds x else showScientific ds x

/-- `m · 10 ^ e` in hundredths, rounded half to even. -/
def hundredths (m : ℕ) (e : ℤ) : ℕ :=
  if -2 ≤ e then m * 10 ^ (e + 2).toNat
  else
    let p := 10 ^ (-2 - e).toNat
    let q := m / p
    let r := m % p
    if p < 2 * r ∨ (2 * r = p ∧ q % 2 = 1) then q + 1 else q

/-- `ss << std::fixed << std::setprecision(2) << d` for a `double` `d`. -/
def showFixed2 : Double → Text
  | .nan neg => (if neg then "-nan" else "nan").toList
  | .inf neg => (if neg then "-inf" else "inf").toList
  | .fin d =>
    let c := hundredths d.mant d.exp
    let cents := Nat.toDigits 10 (c % 100)
    (if d.neg then ['-'] else []) ++ Nat.toDigits 10 (c / 100) ++
      '.' :: (List.replicate (2 - cents.length) '0' ++ cents)

/-! ### `std::stod` -/

/-- Whether `s` begins with the lower-case word `w`, in any case. -/
def beginsWith (w : String) (s : Text) : Bool := (s.take w.length).map Char.toLower = w.toList

/-- The digits of a number before and after the point, and what follows them. -/
def takeMantissa (isDig : Char → Bool) (s : Text) : Text × Text × Text :=
  let int := s.takeWhile isDig
  match s.dropWhile isDig with
  | '.' :: s => (int, s.takeWhile isDig, s.dropWhile isDig)
  | s => (int, [], s)

/-- The exponent that a letter `c` introduces; zero if it is missing or has no digits. -/
def takeExponent (c : Char) : Text → ℤ
  | x :: s =>
    if x.toLower = c then
      let (neg, s) := takeSign s
      let e : ℤ := Nat.ofDigitChars 10 (s.takeWhile Char.isDigit) 0
      if neg then -e else e
    else 0
  | [] => 0

def hexVal (c : Char) : ℕ :=
  if c.isDigit then c.toNat - '0'.toNat else c.toLower.toNat - 'a'.toNat + 10

def isHex (c : Char) : Bool := c.isDigit || ('a' ≤ c.toLower && c.toLower ≤ 'f')

/-- A hexadecimal floating-point number: `0x`, digits, and a binary exponent. -/
def hexFloat (neg : Bool) (s : Text) : Option Decimal :=
  if beginsWith "0x" s then
    match takeMantissa isHex (s.drop 2) with
    | ([], [], _) => none
    | (int, frac, s) =>
      let m := (int ++ frac).foldl (fun n c => 16 * n + hexVal c) 0
      let k := takeExponent 'p' s - 4 * frac.length
      some (if 0 ≤ k then .of neg (m * 2 ^ k.toNat) 0 else .of neg (m * 5 ^ (-k).toNat) k)
  else none

def decFloat (neg : Bool) (s : Text) : Option Decimal :=
  match takeMantissa Char.isDigit s with
  | ([], [], _) => none
  | (int, frac, s) =>
    some (.of neg (Nat.ofDigitChars 10 (int ++ frac) 0) (takeExponent 'e' s - frac.length))

/-- `strtod` without its range. -/
def strtod (s : Text) : Option Double :=
  let (neg, s) := takeSign (s.dropWhile isSpace)
  if beginsWith "inf" s then some (.inf neg)
  else if beginsWith "nan" s then some (.nan neg)
  else ((hexFloat neg s).orElse fun _ => decFloat neg s).map .fin

/-- Whether `strtod` takes the number without a range error: it does not round to an infinity, and
it is not so small that digits are lost to a subnormal number.  What counts for this is the number
after rounding to 53 bits, so the last numbers below `2 ^ -1022` are not too small. -/
def inRange (d : Decimal) : Bool :=
  let x : ℤ := digitCount d.mant - 1 + d.exp
  if d.mant = 0 then true
  else if 309 ≤ x then false
  else if x < -400 then false
  else if -307 ≤ x ∧ x < 308 then true
  else if 0 ≤ d.exp then d.mant * 10 ^ d.exp.toNat < 2 ^ 1024 - 2 ^ 970
  else
    let p := 10 ^ (-d.exp).toNat
    decide (d.mant < (2 ^ 1024 - 2 ^ 970) * p) &&
      (decide ((2 ^ 54 - 1) * p ≤ d.mant * 2 ^ 1076) || (d.mant * 2 ^ 1074) % p == 0)

def stod (s : Text) : Except Exn Double :=
  match strtod s with
  | none => .error (.invalidArgument "stod")
  | some (.fin d) => if inRange d then .ok (.fin d) else .error (.outOfRange "stod")
  | some d => .ok d

/-- A number beyond the range of `std::stod`. -/
def OutOfRange (s : Text) : Prop := ∃ d, strtod s = some (.fin d) ∧ inRange d = false

theorem stod_outOfRange_iff {s : Text} :
    (∃ what, stod s = .error (.outOfRange what)) ↔ OutOfRange s := by
  unfold stod OutOfRange
  rcases strtod s with _ | (d | neg | neg)
  · simp
  · cases hd : inRange d <;> simp [hd]
  · simp
  · simp

example : (stod " -12345675e-3xyz".toList).map showDouble = .ok "-12345.7".toList := by decide
example : (stod "0x1.8p-1".toList).map showDouble = .ok "0.75".toList := by decide
example : OutOfRange "2.2250738585072011e-308".toList := ⟨_, rfl, by decide +kernel⟩
example : (stod "2.2250738585072013e-308".toList).map showDouble = .ok "2.22507e-308".toList := by
  decide +kernel

end TicketIST.Lib
