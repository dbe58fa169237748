import TicketIST.Lib.Rendering
import TicketIST.Outcomes

/-!
# What a seller can submit

A ticket comes back to the service as text that its owner could have edited, and the service hashes
what it parsed from it.  The hash settles every field but the price, of which only the rendering is
hashed (`resale_is_issued`).  So a resale is bounded by a price that the seller chose among all those
with the rendering of the issued one: it stays below what was paid if that choice does not read
higher, and if the new price is a number at all (`prices_never_rise`).
-/

namespace TicketIST

open TicketIST.Lib

/-! ### Ticket texts -/

/-- The separator of ticket texts is in no field. -/
structure Ticket.Plain (t : Ticket) : Prop where
  purchaseDate : '|' ∉ t.purchaseDate
  seat : '|' ∉ t.seat
  validationCode : '|' ∉ t.validationCode

theorem not_mem_getline {c : Char} {ss : IStream} {str : Text} (h : c ∉ str) :
    c ∉ (getline ss str c).1 := by
  unfold getline
  split
  · exact h
  · cases hc : cut c ss.rest with
    | none =>
      dsimp only
      intro hmem
      obtain ⟨a, b, hab, ha⟩ := List.eq_append_cons_of_mem hmem
      rw [hab, cut_append ha] at hc
      cases hc
    | some fr => exact (eq_of_cut hc).2

/-- The parser finds no separator in a field, whatever it is given. -/
theorem Ticket.plain_of_deserialize {data : Text} {ok : Bool} {t : Ticket}
    (h : Ticket.deserialize data = .ok (ok, t)) : t.Plain := by
  simp only [deserialize, bind, Except.bind, pure, Except.pure] at h
  repeat' split at h
  all_goals cases h
  exact ⟨not_mem_getline List.not_mem_nil, not_mem_getline List.not_mem_nil,
    not_mem_getline List.not_mem_nil⟩

theorem bar_not_mem_showDouble (d : Double) : '|' ∉ showDouble d :=
  not_mem_showDouble (by decide) (by decide)

theorem Ticket.bar_not_mem_formatDate (now : Tm) : '|' ∉ formatDate now := by
  simp [formatDate, bar_not_mem_showInt]

theorem Ticket.bar_not_mem_chars {length : ℕ} (dist : ℕ → Fin 62) :
    '|' ∉ generateValidationCode length dist := by
  have hall : ∀ n : Fin 62, chars.getD n 'A' ≠ '|' := by decide
  intro h
  obtain ⟨i, -, hi⟩ := List.mem_map.1 h
  exact hall _ hi

theorem getline_last {c : Char} {a : Text} (h : c ∉ a) (str : Text) :
    (getline { rest := a } str c).1 = a := by
  simp [getline, cut_eq_none h]

/-- The numbers of a ticket are of type `int`, and its price of type `double`. -/
structure Ticket.Fits (t : Ticket) : Prop where
  ticketID : -2 ^ 31 ≤ t.ticketID ∧ t.ticketID < 2 ^ 31
  eventID : -2 ^ 31 ≤ t.eventID ∧ t.eventID < 2 ^ 31
  sellerID : -2 ^ 31 ≤ t.sellerID ∧ t.sellerID < 2 ^ 31
  buyerID : -2 ^ 31 ≤ t.buyerID ∧ t.buyerID < 2 ^ 31
  price : t.price.Finite

theorem fits_ticketOfUser5 : ticketOfUser5.Fits := by
  refine ⟨by decide, by decide, by decide, by decide, ?_⟩
  intro d hd
  cases hd
  exact Decimal.finite_of (by decide)

/-- The parser, on a ticket that was written: all is as it was but the price, which is read back from
its text. -/
theorem Ticket.deserialize_serialize {t : Ticket} (h : t.Plain) (hf : t.Fits) :
    Ticket.deserialize t.serialize =
      (stod (showDouble t.price)).map fun price => (true, { t with price }) := by
  simp only [deserialize, serialize, getline_append (bar_not_mem_showInt _),
    getline_append h.purchaseDate, getline_append (bar_not_mem_showDouble _),
    getline_append h.seat, stoi_showInt hf.ticketID, stoi_showInt hf.eventID,
    stoi_showInt hf.sellerID, stoi_showInt hf.buyerID, getline_last h.validationCode,
    bind, Except.bind, pure, Except.pure]
  cases stod (showDouble t.price) <;> rfl

/-- What the serialised form says about a ticket: everything but what rounding took from its price. -/
structure Ticket.Agrees (t t' : Ticket) : Prop where
  ticketID : t.ticketID = t'.ticketID
  eventID : t.eventID = t'.eventID
  sellerID : t.sellerID = t'.sellerID
  buyerID : t.buyerID = t'.buyerID
  purchaseDate : t.purchaseDate = t'.purchaseDate
  price : showDouble t.price = showDouble t'.price
  seat : t.seat = t'.seat
  validationCode : t.validationCode = t'.validationCode

/-- The fields up to the price can be told from each other whatever the seat is. -/
theorem Ticket.front_of_serialize {t t' : Ticket} (ht : '|' ∉ t.purchaseDate)
    (ht' : '|' ∉ t'.purchaseDate) (h : t.serialize = t'.serialize) :
    (t.ticketID = t'.ticketID ∧ t.eventID = t'.eventID ∧ t.sellerID = t'.sellerID ∧
      t.buyerID = t'.buyerID) ∧ t.purchaseDate = t'.purchaseDate ∧
      showDouble t.price = showDouble t'.price ∧
      t.seat ++ '|' :: t.validationCode = t'.seat ++ '|' :: t'.validationCode := by
  have hint : ∀ n : ℤ, '|' ∉ showInt n := bar_not_mem_showInt
  obtain ⟨h1, h⟩ := append_sep_inj (hint _) (hint _) h
  obtain ⟨h2, h⟩ := append_sep_inj (hint _) (hint _) h
  obtain ⟨h3, h⟩ := append_sep_inj (hint _) (hint _) h
  obtain ⟨h4, h⟩ := append_sep_inj (hint _) (hint _) h
  obtain ⟨h5, h⟩ := append_sep_inj ht ht' h
  obtain ⟨h6, h⟩ := append_sep_inj (bar_not_mem_showDouble _) (bar_not_mem_showDouble _) h
  exact ⟨⟨showInt_inj h1, showInt_inj h2, showInt_inj h3, showInt_inj h4⟩, h5, h6, h⟩

theorem Ticket.Plain.agrees {t t' : Ticket} (ht : t.Plain) (ht' : t'.Plain)
    (h : t.serialize = t'.serialize) : t.Agrees t' := by
  obtain ⟨⟨h1, h2, h3, h4⟩, h5, h6, h⟩ := front_of_serialize ht.purchaseDate ht'.purchaseDate h
  obtain ⟨h7, h8⟩ := append_sep_inj ht.seat ht'.seat h
  exact ⟨h1, h2, h3, h4, h5, h6, h7, h8⟩

/-! ### Seats and tickets along a run -/

section

variable {sha : Text → Text} {info : Table TicketInfo ℤ TicketInfo.ticketID} {h : History}
  {db : TicketDB} {allowed : History → TicketDB → Call → Prop}

/-- Seats without a separator stay so through every resale, and so do the tickets issued for them. -/
theorem plain_of_serial (hsha : Function.Injective sha) (hseat : ∀ ti ∈ info.rows, '|' ∉ ti.seat)
    (run : Serial (serve sha) allowed ⟨info, .empty, .empty⟩ h db) : ∀ t ∈ purchases h, t.Plain := by
  refine (offers_inv (A := fun ti => '|' ∉ ti.seat) hsha run hseat ?_ ?_).2
  · intro ti u env hti
    exact ⟨Ticket.bar_not_mem_formatDate _, hti, Ticket.bar_not_mem_chars _⟩
  · intro h db data newPrice t t₀ _ hd _ _ _ _
    exact (Ticket.plain_of_deserialize hd).seat

/-- The ticket that a resale shows is the one issued last for its seat. -/
theorem agrees_of_reaches (hsha : Function.Injective sha) (hseat : ∀ ti ∈ info.rows, '|' ∉ ti.seat)
    (run : Serial (serve sha) allowed ⟨info, .empty, .empty⟩ h db) {data : Text} {newPrice : Double}
    {t : Ticket} (hd : Ticket.deserialize data = .ok (true, t))
    (hr : Sell.Reaches sha (fun _ => false) db t newPrice) :
    ∃ t₀, latest h t.ticketID = some t₀ ∧ t.Agrees t₀ := by
  obtain ⟨t₀, ht₀, -, hser⟩ := (Keeps.of_serial hsha run).of_reaches hsha hr
  have hplain := plain_of_serial hsha hseat run t₀ (mem_of_latest ht₀).1
  exact ⟨t₀, ht₀, (Ticket.plain_of_deserialize hd).agrees hplain hser⟩

/-! ### Tampered tickets -/

/-- **Tampered tickets are refused at resale**: a ticket text that is accepted is, but for the digits
of its price that are not rendered, the ticket that was issued last for its seat. -/
theorem resale_is_issued (hsha : Function.Injective sha) (hseat : ∀ ti ∈ info.rows, '|' ∉ ti.seat)
    (run : Serial (serve sha) (fun _ _ _ => True) ⟨info, .empty, .empty⟩ h db) {data : Text}
    {newPrice : Double} (hsold : (serve sha (.sellTicket data newPrice) db).1 = .ok (.sold true)) :
    ∃ t t₀, Ticket.deserialize data = .ok (true, t) ∧ latest h t₀.ticketID = some t₀ ∧
      t.Agrees t₀ ∧ db.ticketInfo.insert (listing t₀ newPrice) =
        some (serve sha (.sellTicket data newPrice) db).2.ticketInfo := by
  have hdone : Done sha (fun _ => false) db (.sellTicket data newPrice) _ _ := done_of_serve _
  rw [hsold] at hdone
  obtain ⟨data', newPrice', t, hcall, hd, hr, hi, -⟩ := hdone.sold
  cases hcall
  obtain ⟨t₀, ht₀, hag⟩ := agrees_of_reaches hsha hseat run hd hr
  have hlisting : listing t newPrice = listing t₀ newPrice := by
    rw [listing, listing, hag.ticketID, hag.eventID, hag.buyerID, hag.seat]
  exact ⟨t, t₀, hd, hag.ticketID ▸ ht₀, hag, hlisting ▸ hi⟩

/-- User 5 puts seat 7 on sale with a text that writes the price in another way. -/
theorem resale_is_issued_rewritten :
    (∀ ti ∈ twoSeats.rows, '|' ∉ ti.seat) ∧
    ∃ t t₀, Ticket.deserialize "+7| 1|0|5|2024-12-30 18:5:9|4e1 EUR|86L|AAAAAAAAAA|x".toList =
        .ok (true, t) ∧ latest (after purchase).1 t₀.ticketID = some t₀ ∧ t.Agrees t₀ ∧
      (after purchase).2.ticketInfo.insert (listing t₀ (.ofNat 30)) =
        some (serve sha256 (.sellTicket
          "+7| 1|0|5|2024-12-30 18:5:9|4e1 EUR|86L|AAAAAAAAAA|x".toList (.ofNat 30))
          (after purchase).2).2.ticketInfo :=
  have run : Serial (serve sha256) (fun _ _ _ => True) ⟨twoSeats, .empty, .empty⟩
      (after purchase).1 (after purchase).2 := serial_after (by decide)
  ⟨by decide, resale_is_issued sha256_injective (by decide) run (by decide +kernel)⟩

/-! ### Prices -/

/-- If the call is a resale that passes the checks, the price asked for is a number, and the ticket
shown does not read more than was paid for it last. -/
def FairPrice (sha : Text → Text) (h : History) (db : TicketDB) (c : Call) : Prop :=
  ∀ data newPrice t t₀, c = .sellTicket data newPrice → Ticket.deserialize data = .ok (true, t) →
    Sell.Reaches sha (fun _ => false) db t newPrice → latest h t.ticketID = some t₀ →
      (∀ neg, newPrice ≠ .nan neg) ∧ t₀.price.lt t.price = false

/-- A resale at a fair price asks for no more than was paid. -/
theorem price_of_reaches {t t₀ : Ticket} {newPrice : Double} {paid : Decimal}
    (hr : Sell.Reaches sha (fun _ => false) db t newPrice) (hpaid : t₀.price = .fin paid)
    (hser : showDouble t.price = showDouble t₀.price) (hnan : ∀ neg, newPrice ≠ .nan neg)
    (hfair : t₀.price.lt t.price = false) :
    Double.zero.AtMost newPrice ∧ newPrice.AtMost t₀.price := by
  obtain ⟨shown, hshown⟩ := exists_fin_of_showDouble (hser.trans (congrArg showDouble hpaid))
  have hprice := hr.price
  rw [Bool.or_eq_false_iff, hshown] at hprice
  obtain ⟨hpos, hcap⟩ := hprice
  rw [hpaid, hshown] at hfair
  cases newPrice with
  | fin a =>
    have hle : (Double.fin a).AtMost (.fin shown) := Double.atMost_fin.2 hcap
    have hle' : (Double.fin shown).AtMost (.fin paid) := Double.atMost_fin.2 hfair
    rw [hpaid]
    exact ⟨Double.atMost_fin.2 hpos, hle.trans hle'⟩
  | inf neg =>
    cases neg with
    | true => cases hpos
    | false => cases hcap
  | nan neg => exact absurd rfl (hnan neg)

/-- A ticket was first offered at a number, and for no less than `price`. -/
def FirstOffered (info : Table TicketInfo ℤ TicketInfo.ticketID) (T : ℤ) (price : Double) : Prop :=
  ∃ ti ∈ info.rows, ti.ticketID = T ∧ price.AtMost ti.price

theorem FirstOffered.fin {T : ℤ} {price : Double} (h : FirstOffered info T price) :
    ∃ d, price = .fin d := by
  obtain ⟨ti, -, -, a, b, ha, -⟩ := h
  exact ⟨a, ha⟩

/-- Along a run of fair resales no offer and no purchase is above the first price. -/
theorem firstOffered_of_serial (hsha : Function.Injective sha)
    (hinfo : ∀ ti ∈ info.rows, ∃ d, ti.price = .fin d)
    (run : Serial (serve sha) (FairPrice sha) ⟨info, .empty, .empty⟩ h db) :
    (∀ ti ∈ db.ticketInfo, FirstOffered info ti.ticketID ti.price) ∧
      ∀ t ∈ purchases h, '|' ∉ t.purchaseDate ∧ FirstOffered info t.ticketID t.price := by
  refine offers_inv (A := fun ti => FirstOffered info ti.ticketID ti.price) hsha run ?_ ?_ ?_
  · intro ti hti
    obtain ⟨d, hd⟩ := hinfo ti hti
    exact ⟨ti, hti, rfl, hd ▸ Double.AtMost.refl d⟩
  · intro ti u env hti
    exact ⟨Ticket.bar_not_mem_formatDate _, hti⟩
  · rintro h db data newPrice t t₀ hc hd hr ht₀ hser ⟨hdate, ti, hti, hT, hle⟩
    obtain ⟨hnan, hfair⟩ := hc data newPrice t t₀ rfl hd hr ht₀
    obtain ⟨paid, hpaid⟩ := FirstOffered.fin ⟨ti, hti, hT, hle⟩
    obtain ⟨⟨hid, -⟩, -, hprice, -⟩ :=
      Ticket.front_of_serialize (Ticket.plain_of_deserialize hd).purchaseDate hdate hser
    obtain ⟨-, hcap⟩ := price_of_reaches hr hpaid hprice hnan hfair
    exact ⟨ti, hti, hT.trans hid.symm, hcap.trans hle⟩

/-- **Resale never raises the price** in a run of fair resales: each asks for a number between zero
and what was paid for the ticket last, so that no seat is ever offered or sold above its first
price. -/
theorem prices_never_rise (hsha : Function.Injective sha)
    (hinfo : ∀ ti ∈ info.rows, ∃ d, ti.price = .fin d)
    (run : Serial (serve sha) (FairPrice sha) ⟨info, .empty, .empty⟩ h db) :
    (∀ h₁ data newPrice h₂, h = h₁ ++ (.sellTicket data newPrice, .ok (.sold true)) :: h₂ →
      ∃ t t₀, Ticket.deserialize data = .ok (true, t) ∧ latest h₁ t.ticketID = some t₀ ∧
        Double.zero.AtMost newPrice ∧ newPrice.AtMost t₀.price) ∧
      (∀ ti ∈ db.ticketInfo, FirstOffered info ti.ticketID ti.price) ∧
      ∀ t ∈ purchases h, FirstOffered info t.ticketID t.price := by
  obtain ⟨hoffers, htickets⟩ := firstOffered_of_serial hsha hinfo run
  refine ⟨?_, hoffers, fun t ht => (htickets t ht).2⟩
  intro h₁ data newPrice h₂ hh
  obtain ⟨db₁, run₁, hc, hr⟩ := run.exists_before hh
  have hdone : Done sha (fun _ => false) db₁ (.sellTicket data newPrice) _ _ := done_of_serve _
  rw [← hr] at hdone
  obtain ⟨data', newPrice', t, hcall, hd, hreach, -⟩ := hdone.sold
  cases hcall
  obtain ⟨t₀, ht₀, -, hser⟩ := (Keeps.of_serial hsha run₁).of_reaches hsha hreach
  obtain ⟨hdate, hfirst⟩ := (firstOffered_of_serial hsha hinfo run₁).2 t₀ (mem_of_latest ht₀).1
  obtain ⟨paid, hpaid⟩ := hfirst.fin
  obtain ⟨-, -, hprice, -⟩ :=
    Ticket.front_of_serialize (Ticket.plain_of_deserialize hd).purchaseDate hdate hser
  obtain ⟨hnan, hfair⟩ := hc data newPrice t t₀ rfl hd hreach ht₀
  exact ⟨t, t₀, hd, ht₀, price_of_reaches hreach hpaid hprice hnan hfair⟩

/-- User 5 puts seat 7, bought for 40, on sale for 30. -/
theorem prices_never_rise_relisting :
    (after relisting).2.ticketInfo.rows.map TicketInfo.price = [.ofNat 40, .ofNat 30] ∧
      ∀ ti ∈ (after relisting).2.ticketInfo, FirstOffered twoSeats ti.ticketID ti.price := by
  have hinfo : ∀ ti ∈ twoSeats.rows, ∃ d, ti.price = .fin d := by
    intro ti hti
    simp only [twoSeats, List.mem_cons, List.not_mem_nil, or_false] at hti
    rcases hti with rfl | rfl <;> exact ⟨.of false 40 0, rfl⟩
  have hbuy : FairPrice sha256 [] ⟨twoSeats, .empty, .empty⟩ (.buyTicket 7 1 5 (drawing 0)) := by
    intro data newPrice t t₀ hc
    cases hc
  have hsell : FairPrice sha256 (after purchase).1 (after purchase).2
      (.sellTicket ticketOfUser5.serialize (.ofNat 30)) := by
    intro data newPrice t t₀ hc hd _ ht₀
    cases hc
    have hd' : Ticket.deserialize ticketOfUser5.serialize = .ok (true, ticketOfUser5) := by
      decide +kernel
    have ht₀' : latest (after purchase).1 7 = some ticketOfUser5 := by decide +kernel
    cases hd.symm.trans hd'
    cases ht₀.symm.trans ht₀'
    exact ⟨fun _ h => (by cases h), by decide⟩
  have run : Serial (serve sha256) (FairPrice sha256) ⟨twoSeats, .empty, .empty⟩
      (after relisting).1 (after relisting).2 := serial_after ⟨hbuy, hsell, trivial⟩
  exact ⟨by decide +kernel, (prices_never_rise sha256_injective hinfo run).2.1⟩

/-- A ticket text for seat 7 that is rendered as the one bought for 40, and reads more. -/
def dearer : Text := "7|1|0|5|2024-12-30 18:5:9|40.00004|86L|AAAAAAAAAA".toList

/-- User 5, who paid 40, puts seat 7 on sale for 40.00004, or for no number at all.  The service accepts both;
that the row of the second goes in is sure of the table here only, since MySQL in strict mode refuses NaN. -/
theorem resale_above_paid :
    latest (after purchase).1 7 = some ticketOfUser5 ∧ ticketOfUser5.price = .ofNat 40 ∧
      (∃ newPrice, stod "40.00004".toList = .ok newPrice ∧
        (serve sha256 (.sellTicket dearer newPrice) (after purchase).2).1 = .ok (.sold true) ∧
        ¬newPrice.AtMost ticketOfUser5.price) ∧
      ∃ newPrice, stod "nan".toList = .ok newPrice ∧
        (serve sha256 (.sellTicket ticketOfUser5.serialize newPrice) (after purchase).2).1 =
          .ok (.sold true) ∧
        ¬Double.zero.AtMost newPrice := by
  have hnot : ¬(Double.fin (.of false 4000004 (-5))).AtMost ticketOfUser5.price := by
    intro h
    exact absurd (Double.atMost_fin.1 h) (by decide)
  have hnan : ¬Double.zero.AtMost (.nan false) := by
    rintro ⟨a, b, -, hb, -⟩
    cases hb
  exact ⟨by decide +kernel, rfl, ⟨_, by decide, by decide +kernel, hnot⟩,
    ⟨_, by decide, by decide +kernel, hnan⟩⟩

end

end TicketIST
