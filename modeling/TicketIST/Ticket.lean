import TicketIST.Lib.Decimal

/-!
# Tickets

A `TicketInfo` is a seat on offer; a `Ticket` is what its buyer gets.  Both travel as text: the
ticket as eight fields separated by `|`, which the server hashes and later parses again when the
owner puts the ticket back on sale.  What the parser makes of a text depends on its fields only
(`deserialize_eq_ofFields`).
-/

namespace TicketIST

open TicketIST.Lib

structure TicketInfo where
  ticketID : ℤ
  eventID : ℤ
  /-- last person who sold the ticket -/
  sellerID : ℤ
  price : Double
  seat : Text
  deriving DecidableEq

structure Ticket where
  ticketID : ℤ
  eventID : ℤ
  sellerID : ℤ
  /-- current owner of the ticket -/
  buyerID : ℤ
  price : Double
  seat : Text
  validationCode : Text
  purchaseDate : Text
  deriving DecidableEq

/-- The fields of a `std::tm` that a purchase date shows. -/
structure Tm where
  tmYear : ℤ
  tmMon : ℤ
  tmMday : ℤ
  tmHour : ℤ
  tmMin : ℤ
  tmSec : ℤ

instance neZero_chars : NeZero 62 := ⟨by decide⟩

/-- What a purchase takes from its surroundings: the clock and the generator's draws. -/
structure Env where
  now : Tm
  dist : ℕ → Fin 62

def TicketInfo.toString (ti : TicketInfo) : Text :=
  setw 10 (showInt ti.ticketID) ++ " | ".toList ++ setw 10 (showInt ti.eventID) ++ " | ".toList ++
    setw 10 (showInt ti.sellerID) ++ " | ".toList ++ setw 10 (showFixed2 ti.price) ++
    "€ | ".toList ++ setw 5 ti.seat

namespace Ticket

def chars : Text :=
  ['A', 'B', 'C', 'D', 'E', 'F', 'G', 'H', 'I', 'J', 'K', 'L', 'M', 'N', 'O', 'P',
   'Q', 'R', 'S', 'T', 'U', 'V', 'W', 'X', 'Y', 'Z', 'a', 'b', 'c', 'd', 'e', 'f',
   'g', 'h', 'i', 'j', 'k', 'l', 'm', 'n', 'o', 'p', 'q', 'r', 's', 't', 'u', 'v',
   'w', 'x', 'y', 'z', '0', '1', '2', '3', '4', '5', '6', '7', '8', '9']

/-- `length` characters, the `i`-th of them picked by the draw `dist i`. -/
def generateValidationCode (length : ℕ) (dist : ℕ → Fin 62) : Text :=
  (List.range length).map fun i => chars.getD (dist i) 'A'

/-- The date the constructor formats from the local time. -/
def formatDate (t : Tm) : Text :=
  showInt (1900 + t.tmYear) ++ '-' :: showInt (1 + t.tmMon) ++ '-' :: showInt t.tmMday ++
    ' ' :: showInt t.tmHour ++ ':' :: showInt t.tmMin ++ ':' :: showInt t.tmSec

/-- The constructor that takes the current time as the purchase date. -/
def issue (now : Tm) (ticketID eventID sellerID buyerID : ℤ) (price : Double)
    (seat validationCode : Text) : Ticket :=
  { ticketID, eventID, sellerID, buyerID, price, seat, validationCode,
    purchaseDate := formatDate now }

def serialize (t : Ticket) : Text :=
  showInt t.ticketID ++ '|' :: (showInt t.eventID ++ '|' :: (showInt t.sellerID ++ '|' ::
    (showInt t.buyerID ++ '|' :: (t.purchaseDate ++ '|' :: (showDouble t.price ++ '|' ::
      (t.seat ++ '|' :: t.validationCode))))))

/-- `Ticket::deserialize`, its result and the ticket it fills in.  No read is tested: a read that
fails leaves `part` as the read before left it, or the field empty. -/
def deserialize (data : Text) : Except Exn (Bool × Ticket) := do
  let stream : IStream := { rest := data }
  let (part, stream) := getline stream [] '|'
  let ticketID ← stoi part
  let (part, stream) := getline stream part '|'
  let eventID ← stoi part
  let (part, stream) := getline stream part '|'
  let sellerID ← stoi part
  let (part, stream) := getline stream part '|'
  let buyerID ← stoi part
  let (purchaseDate, stream) := getline stream [] '|'
  let (part, stream) := getline stream part '|'
  let price ← stod part
  let (seat, stream) := getline stream [] '|'
  let (validationCode, _) := getline stream [] '|'
  return (true, { ticketID, eventID, sellerID, buyerID, price, seat, validationCode, purchaseDate })

theorem bar_not_mem_showInt (n : ℤ) : '|' ∉ showInt n := fun h => by
  rcases mem_showInt h with h | h <;> revert h <;> decide

/-- The serialised form determines the ticket's number. -/
theorem ticketID_of_serialize {t t' : Ticket} (h : t.serialize = t'.serialize) :
    t.ticketID = t'.ticketID :=
  showInt_inj (append_sep_inj (bar_not_mem_showInt _) (bar_not_mem_showInt _) h).1

/-- The serialised form determines the buyer. -/
theorem buyerID_of_serialize {t t' : Ticket} (h : t.serialize = t'.serialize) :
    t.buyerID = t'.buyerID := by
  have hint := bar_not_mem_showInt
  obtain ⟨-, h⟩ := append_sep_inj (hint _) (hint _) h
  obtain ⟨-, h⟩ := append_sep_inj (hint _) (hint _) h
  obtain ⟨-, h⟩ := append_sep_inj (hint _) (hint _) h
  exact showInt_inj (append_sep_inj (hint _) (hint _) h).1

example : (deserialize "7|1|0|5|2024-12-30 1:2:3|40|86L|abc".toList).map (·.2.serialize) =
    .ok "7|1|0|5|2024-12-30 1:2:3|40|86L|abc".toList := by decide

/-! ### Reading the fields -/

/-- What `part` is when the `i`-th number is read: the `i`-th field, or what it was before if the text
has no such field. -/
def part (fields : List Text) : ℕ → Text
  | 0 => fields.headD []
  | i + 1 => (fields.drop (i + 1)).headD (part fields i)

/-- What it is when the price is read. -/
def pricePart (fields : List Text) : Text := (fields.drop 5).headD (part fields 3)

/-- What `deserialize` makes of the fields of a text; strings that are missing are empty. -/
def ofFields (fields : List Text) : Except Exn (Bool × Ticket) := do
  let ticketID ← stoi (part fields 0)
  let eventID ← stoi (part fields 1)
  let sellerID ← stoi (part fields 2)
  let buyerID ← stoi (part fields 3)
  let purchaseDate := (fields.drop 4).headD []
  let price ← stod (pricePart fields)
  let seat := (fields.drop 6).headD []
  let validationCode := (fields.drop 7).headD []
  return (true, { ticketID, eventID, sellerID, buyerID, price, seat, validationCode, purchaseDate })

/-- The reads of the parser go through the fields of its text one by one. -/
theorem deserialize_eq_ofFields (data : Text) : deserialize data = ofFields (data.splitOn '|') := by
  have hread := fun ss str => getline_fields ss str '|'
  have hinit : IStream.fields { rest := data } '|' = data.splitOn '|' := rfl
  have hreads : deserialize data = (do
      let r₁ := getline { rest := data } [] '|'
      let ticketID ← stoi r₁.1
      let r₂ := getline r₁.2 r₁.1 '|'
      let eventID ← stoi r₂.1
      let r₃ := getline r₂.2 r₂.1 '|'
      let sellerID ← stoi r₃.1
      let r₄ := getline r₃.2 r₃.1 '|'
      let buyerID ← stoi r₄.1
      let r₅ := getline r₄.2 [] '|'
      let r₆ := getline r₅.2 r₄.1 '|'
      let price ← stod r₆.1
      let r₇ := getline r₆.2 [] '|'
      let r₈ := getline r₇.2 [] '|'
      return (true, ⟨ticketID, eventID, sellerID, buyerID, price, r₇.1, r₈.1, r₅.1⟩)) := rfl
  simp only [hreads, (hread _ _).1, (hread _ _).2, hinit, ofFields, part, pricePart,
    ← List.drop_one, List.drop_drop]

/-- The parser has no result but `true`. -/
theorem deserialize_ne_false {data : Text} {t : Ticket} : deserialize data ≠ .ok (false, t) := by
  rw [deserialize_eq_ofFields]
  intro h
  simp only [ofFields, bind, Except.bind, pure, Except.pure] at h
  repeat' split at h
  all_goals cases h

section Fields

variable {fields : List Text}

/-- Once the integers are read, only the price can stop the parser. -/
theorem ofFields_of_ints (hok : ∀ j < 4, ∃ n, stoi (part fields j) = .ok n) :
    ∃ f : Double → Ticket, ofFields fields =
      (stod (pricePart fields)).map fun price => (true, f price) := by
  obtain ⟨n₁, h₁⟩ := hok 0 (by omega)
  obtain ⟨n₂, h₂⟩ := hok 1 (by omega)
  obtain ⟨n₃, h₃⟩ := hok 2 (by omega)
  obtain ⟨n₄, h₄⟩ := hok 3 (by omega)
  refine ⟨fun p => ⟨n₁, n₂, n₃, n₄, p, (fields.drop 6).headD [], (fields.drop 7).headD [],
    (fields.drop 4).headD []⟩, ?_⟩
  simp only [ofFields, h₁, h₂, h₃, h₄, bind, Except.bind]
  cases stod (pricePart fields) <;> rfl

/-- The first integer that is not read stops it. -/
theorem ofFields_error {i : ℕ} (hi : i < 4) (hok : ∀ j < i, ∃ n, stoi (part fields j) = .ok n)
    {x : Exn} (hx : stoi (part fields i) = .error x) : ofFields fields = .error x := by
  unfold ofFields
  match i, hi with
  | 0, _ => rw [hx]; rfl
  | 1, _ =>
    obtain ⟨n₁, h₁⟩ := hok 0 (by omega)
    rw [h₁, hx]
    rfl
  | 2, _ =>
    obtain ⟨n₁, h₁⟩ := hok 0 (by omega)
    obtain ⟨n₂, h₂⟩ := hok 1 (by omega)
    rw [h₁, h₂, hx]
    rfl
  | 3, _ =>
    obtain ⟨n₁, h₁⟩ := hok 0 (by omega)
    obtain ⟨n₂, h₂⟩ := hok 1 (by omega)
    obtain ⟨n₃, h₃⟩ := hok 2 (by omega)
    rw [h₁, h₂, h₃, hx]
    rfl

end Fields

/-! ### Numbers out of range -/

/-- Every number out of range stands behind a field that is no number at all. -/
structure NoOverflow (fields : List Text) : Prop where
  ints : ∀ i < 4, TooLarge (part fields i) → ∃ j < i, strtol (part fields j) = none
  price : OutOfRange (pricePart fields) → ∃ j < 4, strtol (part fields j) = none

/-- The parser throws `std::out_of_range` if that is how the first field that is not read fails. -/
theorem outOfRange_free_iff (data : Text) :
    (∀ what, deserialize data ≠ .error (.outOfRange what)) ↔ NoOverflow (data.splitOn '|') := by
  rw [deserialize_eq_ofFields]
  set fields := data.splitOn '|'
  by_cases hok : ∀ j < 4, ∃ n, stoi (part fields j) = .ok n
  · -- all integers are read
    obtain ⟨f, hf⟩ := ofFields_of_ints hok
    rw [hf]
    constructor
    · intro hfree
      refine ⟨fun i hi hbig => absurd hbig (of_stoi_ok (hok i hi)).2, fun hout => ?_⟩
      obtain ⟨what, hw⟩ := stod_outOfRange_iff.2 hout
      exact absurd (by rw [hw]; rfl) (hfree what)
    · intro hN what hw
      have hout : OutOfRange (pricePart fields) := by
        refine stod_outOfRange_iff.1 ⟨what, ?_⟩
        cases hs : stod (pricePart fields) with
        | ok price => rw [hs] at hw; cases hw
        | error x => rw [hs] at hw; cases hw; rfl
      obtain ⟨j, hj, hnone⟩ := hN.price hout
      exact (of_stoi_ok (hok j hj)).1 hnone
  · -- the first that is not read
    have hex : ∃ i, i < 4 ∧ ¬∃ n, stoi (part fields i) = .ok n := by
      push Not at hok ⊢
      exact hok
    classical
    obtain ⟨hi, hfail⟩ := Nat.find_spec hex
    set i := Nat.find hex
    have hbefore : ∀ j < i, ∃ n, stoi (part fields j) = .ok n := by
      intro j hj
      by_contra hnot
      exact Nat.find_min hex hj ⟨hj.trans hi, hnot⟩
    rcases stoi_cases (part fields i) with ⟨hread, -⟩ | ⟨hx, hnone⟩ | ⟨hx, hbig⟩
    · exact absurd hread hfail
    · rw [ofFields_error hi hbefore hx]
      refine iff_of_true (fun what hw => by cases hw) ⟨fun i' _ hbig => ⟨i, ?_, hnone⟩, fun _ => ⟨i, hi, hnone⟩⟩
      by_contra hle
      rcases Nat.lt_or_eq_of_le (not_lt.1 hle) with hlt | rfl
      · exact (of_stoi_ok (hbefore i' hlt)).2 hbig
      · obtain ⟨n, hn, -⟩ := hbig
        cases hnone.symm.trans hn
    · rw [ofFields_error hi hbefore hx]
      refine iff_of_false (fun hfree => hfree _ rfl) fun hN => ?_
      obtain ⟨j, hj, hnone⟩ := hN.ints i hi hbig
      exact (of_stoi_ok (hbefore j hj)).1 hnone

end Ticket

end TicketIST
