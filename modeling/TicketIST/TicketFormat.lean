import TicketIST.Lib.Numerals
import TicketIST.Resale

/-!
# The text of a ticket

A ticket is written with the six significant digits that `<<` gives its price, so reading it back
gives the same ticket only for prices of that many digits (`deserialize_serialize_iff`).  The parser
tests none of its reads and takes numbers from the front of a field, and its result is never `false`
(`deserialize_ne_false`): it answers whether a text is that of a ticket only for the texts that are
(`recognises_iff`).
-/

namespace TicketIST

open TicketIST.Lib

/-! ### Prices of six digits -/

theorem digits_of_rendered_eq {d : Decimal} (h : d.rendered = d) : digitCount d.mant ≤ 6 := by
  by_cases hm : d.mant = 0
  · rw [hm]
    decide
  · obtain ⟨a, k, x, hs, ha, ha6⟩ := exists_sixDigits hm d.exp
    rw [← h, Decimal.rendered_eq hs ha]
    exact ha6

/-- What rendering leaves as it was. -/
theorem rendered_eq_self_iff {d : Decimal} : d.rendered = d ↔ digitCount d.mant ≤ 6 := by
  refine ⟨digits_of_rendered_eq, fun h => ?_⟩
  have hexp : (digitCount d.mant : ℤ) - 1 + d.exp + 1 - digitCount d.mant = d.exp := by omega
  rw [Decimal.rendered, sixDigits_of_digitCount_le h]
  dsimp only
  rw [hexp]
  exact d.of_self

namespace Ticket

/-- **A ticket is read back from its text** if and only if its price has at most six significant
digits and is not below the normal numbers. -/
theorem deserialize_serialize_iff {t : Ticket} {d : Decimal} (h : t.Plain) (hf : t.Fits)
    (hd : t.price = .fin d) :
    deserialize t.serialize = .ok (true, t) ↔ digitCount d.mant ≤ 6 ∧ ¬d.Tiny := by
  rw [deserialize_serialize h hf, ← rendered_eq_self_iff]
  by_cases htiny : t.price.Tiny
  · -- the text of such a price is not taken at all
    rw [stod_showDouble_of_tiny htiny hf.price]
    refine ⟨fun hok => (by cases hok), fun ⟨heq, hnot⟩ => ?_⟩
    obtain ⟨d', hd', ht⟩ := htiny
    cases hd.symm.trans hd'
    rw [heq] at ht
    exact absurd ht hnot
  · rw [stod_showDouble htiny hf.price, hd]
    constructor
    · intro hok
      have hprice := congrArg (fun r => r.toOption.map fun x => x.2.price) hok
      have heq : d.rendered = d := by
        simpa [Except.map, Except.toOption, hd, Double.rendered] using hprice
      exact ⟨heq, fun ht => htiny ⟨d, hd, by rwa [heq]⟩⟩
    · rintro ⟨heq, -⟩
      rw [Double.rendered, heq, ← hd]
      rfl

/-- The ticket that user 5 bought for 40 is read back as it was. -/
theorem deserialize_serialize_forty : ticketOfUser5.price = .fin (.of false 40 0) ∧
    deserialize ticketOfUser5.serialize = .ok (true, ticketOfUser5) := by
  have hplain : ticketOfUser5.Plain := ⟨by decide, by decide, by decide⟩
  have hfin : (Decimal.of false 40 0).Finite := Decimal.finite_of (by decide)
  have hnormal : ¬(Decimal.of false 40 0).rendered.Tiny := (inRange_rendered_iff hfin).1 (by decide)
  exact ⟨rfl, (deserialize_serialize_iff hplain fits_ticketOfUser5 rfl).2 ⟨by decide, hnormal⟩⟩

/-- A ticket whose price has seven digits. -/
def sevenDigits : Ticket := { ticketOfUser5 with price := .fin (.of false 4000004 (-5)) }

/-- A price of 40.00004 is read back as 40, and so not every ticket is read back from its text. -/
theorem price_loses_digits : deserialize sevenDigits.serialize = .ok (true, ticketOfUser5) ∧
    ¬∀ t : Ticket, t.Plain → t.Fits → (∃ d : Decimal, t.price = .fin d ∧ d.neg = false) →
      deserialize t.serialize = .ok (true, t) := by
  have hread : deserialize sevenDigits.serialize = .ok (true, ticketOfUser5) := by decide +kernel
  refine ⟨hread, fun hall => ?_⟩
  have hplain : sevenDigits.Plain := ⟨by decide, by decide, by decide⟩
  have hfits : sevenDigits.Fits := by
    refine ⟨by decide, by decide, by decide, by decide, ?_⟩
    intro d hd
    cases hd
    exact Decimal.finite_of (by decide)
  have hsame := hread.symm.trans (hall sevenDigits hplain hfits ⟨_, rfl, by decide⟩)
  exact absurd hsame (by decide)

/-! ### The format -/

/-- A text that stands for an `int`. -/
def IsInt (part : Text) : Prop := ∃ n, IntNumeral part n ∧ -2 ^ 31 ≤ n ∧ n < 2 ^ 31

/-- The format of ticket texts: eight fields, of which the first four are of type `int` and the sixth
is a decimal number. -/
inductive Format (data : Text) (d : Decimal) : Prop
  | mk {ticketID eventID sellerID buyerID purchaseDate price seat validationCode : Text}
    (hfields : data.splitOn '|' =
      [ticketID, eventID, sellerID, buyerID, purchaseDate, price, seat, validationCode])
    (hints : ∀ part ∈ [ticketID, eventID, sellerID, buyerID], IsInt part)
    (hprice : DecNumeral price d) : Format data d

/-- What is written for a ticket has the format. -/
theorem format_serialize {t : Ticket} {d : Decimal} (h : t.Plain) (hf : t.Fits)
    (hd : t.price = .fin d) : Format t.serialize d.rendered := by
  have hint : ∀ n : ℤ, '|' ∉ showInt n := bar_not_mem_showInt
  have hfields : t.serialize.splitOn '|' = [showInt t.ticketID, showInt t.eventID,
      showInt t.sellerID, showInt t.buyerID, t.purchaseDate, showDouble (.fin d), t.seat,
      t.validationCode] := by
    rw [serialize, hd, List.splitOn_append_cons_self_of_not_mem (hint _),
      List.splitOn_append_cons_self_of_not_mem (hint _),
      List.splitOn_append_cons_self_of_not_mem (hint _),
      List.splitOn_append_cons_self_of_not_mem (hint _),
      List.splitOn_append_cons_self_of_not_mem h.purchaseDate,
      List.splitOn_append_cons_self_of_not_mem (bar_not_mem_showDouble _),
      List.splitOn_append_cons_self_of_not_mem h.seat, List.splitOn_eq_singleton h.validationCode]
  refine .mk hfields (fun part hpart => ?_) (showDouble_numeral d)
  simp only [List.mem_cons, List.not_mem_nil, or_false] at hpart
  rcases hpart with rfl | rfl | rfl | rfl
  · exact ⟨_, intNumeral_showInt _, hf.ticketID⟩
  · exact ⟨_, intNumeral_showInt _, hf.eventID⟩
  · exact ⟨_, intNumeral_showInt _, hf.sellerID⟩
  · exact ⟨_, intNumeral_showInt _, hf.buyerID⟩

/-- The parser answers whether the text is that of a ticket. -/
def Recognises (data : Text) : Prop :=
  ((∃ t, deserialize data = .ok (true, t)) ↔ ∃ d, Format data d) ∧
    ((¬∃ d, Format data d) → ∃ t, deserialize data = .ok (false, t))

theorem IsInt.exists_stoi {part : Text} (h : IsInt part) : ∃ n, stoi part = .ok n := by
  obtain ⟨n, hn, hrange⟩ := h
  exact ⟨n, stoi_numeral hn hrange⟩

/-- On a text of the format, only the price can stop the parser. -/
theorem Format.outcome {data : Text} {d : Decimal} (h : Format data d) :
    if inRange d then ∃ t, deserialize data = .ok (true, t)
    else deserialize data = .error (.outOfRange "stod") := by
  obtain @⟨ticketID, eventID, sellerID, buyerID, purchaseDate, price, seat, validationCode, hfields,
    hints, hprice⟩ := h
  have hok : ∀ j < 4, ∃ n, stoi (part (data.splitOn '|') j) = .ok n := by
    intro j hj
    rw [hfields]
    refine (hints _ ?_).exists_stoi
    interval_cases j <;> simp [part]
  obtain ⟨f, hf⟩ := ofFields_of_ints hok
  have hpart : pricePart (data.splitOn '|') = price := by
    rw [hfields]
    rfl
  rw [hpart] at hf
  rw [deserialize_eq_ofFields, hf, hprice.stod]
  split
  · exact ⟨_, rfl⟩
  · rfl

/-- **The parser answers whether a text is that of a ticket** if and only if it is one, with a price
that `std::stod` takes: for every other text it answers that it is a ticket, or throws. -/
theorem recognises_iff (data : Text) :
    Recognises data ↔ ∃ d, Format data d ∧ inRange d = true := by
  constructor
  · rintro ⟨haccepts, hrefuses⟩
    have hformat : ∃ d, Format data d := by
      by_contra hnot
      obtain ⟨t, ht⟩ := hrefuses hnot
      exact deserialize_ne_false ht
    obtain ⟨t, ht⟩ := haccepts.2 hformat
    obtain ⟨d, hd⟩ := hformat
    refine ⟨d, hd, ?_⟩
    by_contra hrange
    have hthrows := hd.outcome
    rw [if_neg hrange, ht] at hthrows
    cases hthrows
  · rintro ⟨d, hd, hrange⟩
    have hok := hd.outcome
    rw [if_pos hrange] at hok
    exact ⟨⟨fun _ => ⟨d, hd⟩, fun _ => hok⟩, fun hnot => absurd ⟨d, hd⟩ hnot⟩

/-- A single number is taken for a ticket, and a text without numbers is not refused but ends in an
exception. -/
theorem misjudged :
    (deserialize "7".toList).map Prod.fst = .ok true ∧ ¬Recognises "7".toList ∧
      deserialize "seat 86L".toList = .error (.invalidArgument "stoi") ∧
      ¬Recognises "seat 86L".toList := by
  have hfields : ∀ {data : Text} {d : Decimal}, Format data d → (data.splitOn '|').length = 8 := by
    rintro data d ⟨hfields, -, -⟩
    rw [hfields]
    rfl
  have hseven : ¬∃ d, Format "7".toList d := fun ⟨d, hd⟩ => absurd (hfields hd) (by decide)
  have hseat : ¬∃ d, Format "seat 86L".toList d := fun ⟨d, hd⟩ => absurd (hfields hd) (by decide)
  refine ⟨by decide +kernel, fun h => ?_, by decide +kernel, fun h => ?_⟩
  · obtain ⟨t, ht⟩ := h.2 hseven
    exact deserialize_ne_false ht
  · obtain ⟨t, ht⟩ := h.2 hseat
    exact deserialize_ne_false ht

end Ticket

end TicketIST
