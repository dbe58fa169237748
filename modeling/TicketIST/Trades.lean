import TicketIST.Lib.Patch
import TicketIST.Runs

/-!
# Purchases and resales as patches

In a store that keeps a book, a purchase or a resale that goes through is a patch of the three tables
(`Trade`), and everything else is refused.  Whether it goes through, and the patch, depend on its own
seat and on how many rows its buyer owns; so trades of different seats do not see each other
(`Trade.sees`), their patches are apart (`Trade.apart`), and they can be made in either order
(`trades_commute`).
-/

namespace TicketIST

open TicketIST.Lib

variable {sha : Text → Text} {b b' : Book} {db db' : TicketDB} {c c' : Call}

/-! ### The tables as sets -/

/-- What the tables hold, as sets of rows. -/
@[ext] structure Rows where
  ticketInfo : Set TicketInfo
  ticket : Set TicketRow
  resellTickets : Set ResellRow

def TicketDB.rows (db : TicketDB) : Rows :=
  ⟨{x | x ∈ db.ticketInfo}, {x | x ∈ db.ticket}, {x | x ∈ db.resellTickets}⟩

/-- A patch for every table. -/
structure Changes where
  ticketInfo : Patch TicketInfo
  ticket : Patch TicketRow
  resellTickets : Patch ResellRow

namespace Changes

def apply (P : Changes) (R : Rows) : Rows :=
  ⟨P.ticketInfo.apply R.ticketInfo, P.ticket.apply R.ticket, P.resellTickets.apply R.resellTickets⟩

structure Apart (P Q : Changes) : Prop where
  ticketInfo : P.ticketInfo.Apart Q.ticketInfo
  ticket : P.ticket.Apart Q.ticket
  resellTickets : P.resellTickets.Apart Q.resellTickets

variable {P Q : Changes}

theorem Apart.symm (h : P.Apart Q) : Q.Apart P :=
  ⟨h.ticketInfo.symm, h.ticket.symm, h.resellTickets.symm⟩

theorem Apart.apply_comm (h : P.Apart Q) (R : Rows) : Q.apply (P.apply R) = P.apply (Q.apply R) :=
  Rows.ext (h.ticketInfo.apply_comm _) (h.ticket.apply_comm _) (h.resellTickets.apply_comm _)

/-- The purchase of `T`, which was sold as `old` before: the listing and its links go, and the row of
`old` is replaced. -/
def purchase (sha : Text → Text) (T : ℤ) (old : Option Ticket) (row : TicketRow) : Changes where
  ticketInfo := ⟨{x | x.ticketID = T}, ∅⟩
  ticket := ⟨{r | ∃ t, old = some t ∧ r.validationCode = sha t.validationCode}, {row}⟩
  resellTickets := ⟨{x | x.ticketId = T}, ∅⟩

/-- The resale of `t`: a listing, and its link. -/
def resale (sha : Text → Text) (ti : TicketInfo) (t : Ticket) : Changes where
  ticketInfo := ⟨∅, {ti}⟩
  ticket := .none
  resellTickets := ⟨∅, {⟨sha t.validationCode, ti.ticketID⟩}⟩

end Changes

/-! ### Trades -/

/-- The call goes through, with the reply and the changes given. -/
inductive Trade (sha : Text → Text) (b : Book) (db : TicketDB) : Call → Reply → Changes → Prop
  | bought {T e u env ti} : TicketRepository.getNrOfTicketsOwned u db < 6 → ti ∈ db.ticketInfo →
      ti.ticketID = T → ti.eventID = e →
      Trade sha b db (.buyTicket T e u env) (.ticket (issued ti u env))
        (.purchase sha T (b T) (Buy.row sha u (issued ti u env)))
  | listed {data newPrice t t₀} : Ticket.deserialize data = .ok (true, t) →
      b t.ticketID = some t₀ → t₀.validationCode = t.validationCode → t.serialize = t₀.serialize →
      (newPrice.lt .zero || t.price.lt newPrice) = false → ¬db.Listed t.ticketID →
      Trade sha b db (.sellTicket data newPrice) (.sold true)
        (.resale sha (listing t newPrice) t₀)

/-- The call is a purchase or a resale. -/
def Call.Trades : Call → Prop
  | buyTicket .. => True
  | sellTicket .. => True
  | _ => False

/-- The codes in the book are not the one that the call draws. -/
def DrawsNew (b : Book) (c : Call) : Prop := ∀ T t, b T = some t → c.code? ≠ some t.validationCode

theorem rows_of_buy (hI : StoreInv sha b db) {T : ℤ} (hl : db.Listed T) {row : TicketRow} {tk}
    (hi : db.ticket.insert row = some tk) :
    (Buy.retired (fun _ => false) T (Buy.sold db T tk)).rows =
      (Changes.purchase sha T (b T) row).apply db.rows := by
  obtain ⟨y, hy, hyb⟩ := hI.keeps.exists_link T
  have hold : ∀ r : TicketRow, r.validationCode = y ∧ Buy.Resold db T ↔
      ∃ t, b T = some t ∧ r.validationCode = sha t.validationCode := by
    intro r
    constructor
    · rintro ⟨hr, hres⟩
      obtain ⟨t, ht⟩ := (hI.keeps.resold_iff hl).1 hres
      exact ⟨t, ht, hr.trans (hyb t ht)⟩
    · rintro ⟨t, ht, hr⟩
      exact ⟨hr.trans (hyb t ht).symm, (hI.keeps.resold_iff hl).2 ⟨t, ht⟩⟩
  have hrow : ¬∃ t, b T = some t ∧ row.validationCode = sha t.validationCode := by
    rintro ⟨t, ht, hc⟩
    obtain ⟨r, hr, hrt⟩ := hI.exists_row ht
    exact Table.insert_fresh hi r hr (hrt.code.trans hc.symm)
  refine Rows.ext ?_ ?_ ?_
  · ext x
    simp [TicketDB.rows, Changes.apply, Changes.purchase, Patch.mem_apply, Buy.retired_ticketInfo,
      Buy.mem_sold]
  · ext r
    have hmem : r ∈ (Buy.retired (fun _ => false) T (Buy.sold db T tk)).ticket ↔
        (r ∈ db.ticket ∨ r = row) ∧ ¬(r.validationCode = y ∧ Buy.Resold db T) :=
      mem_ticket_of_buy hi hy
    rw [hold, or_and_right] at hmem
    refine hmem.trans (or_congr_right (and_iff_left_of_imp ?_))
    rintro rfl
    exact hrow
  · ext x
    have hmem : x ∈ (Buy.retired (fun _ => false) T (Buy.sold db T tk)).resellTickets ↔
        x ∈ db.resellTickets ∧ ¬(x.ticketId = T ∧ false = false ∧ false = false) :=
      Buy.mem_retired_resell
    simpa [TicketDB.rows, Changes.apply, Changes.purchase, Patch.mem_apply] using hmem

theorem rows_of_list {ti : TicketInfo} {t : Ticket} {tk tk'}
    (hi : db.ticketInfo.insert ti = some tk)
    (hi' : db.resellTickets.insert ⟨sha t.validationCode, ti.ticketID⟩ = some tk') :
    TicketDB.rows { db with ticketInfo := tk, resellTickets := tk' } =
      (Changes.resale sha ti t).apply db.rows := by
  refine Rows.ext ?_ ?_ ?_
  · ext x
    simp [TicketDB.rows, Changes.apply, Changes.resale, Patch.mem_apply, Table.mem_insert hi]
  · exact (Patch.none_apply _).symm
  · ext x
    simp [TicketDB.rows, Changes.apply, Changes.resale, Patch.mem_apply, Table.mem_insert hi']

section Serve

variable {r : Reply} {P : Changes}

/-- A trade is made. -/
theorem serve_of_trade (hI : StoreInv sha b db) (hsha : Function.Injective sha) (hnew : DrawsNew b c)
    (h : Trade sha b db c r P) :
    (serve sha c db).1 = .ok r ∧ (serve sha c db).2.rows = P.apply db.rows := by
  cases h with
  | @bought T e u env ti hc hti hT he =>
    have hreach : Buy.Reaches (fun _ => false) db T e u ti :=
      ⟨fun _ => hc, rfl, Table.find?_eq_some.2 ⟨hti, hT⟩, he, rfl⟩
    have hnew' : ∀ T t, b T = some t →
        t.validationCode ≠ Ticket.generateValidationCode 10 env.dist :=
      fun T t ht heq => hnew T t ht (congrArg some heq.symm)
    obtain ⟨tk, hi, hs⟩ := hI.serve_buy hsha hnew' hreach
    rw [hs]
    exact ⟨rfl, rows_of_buy hI ⟨ti, hti, hT⟩ hi⟩
  | @listed data newPrice t t₀ hd ht₀ hcode hser hprice hl =>
    obtain ⟨row, hrow, hrt⟩ := hI.exists_row ht₀
    have hfound : TicketRepository.getTicketHashByValidationCode (sha t.validationCode) db =
        some (sha t.serialize) := by
      have hfind : db.ticket.find? (sha t.validationCode) = some row :=
        Table.find?_eq_some.2 ⟨hrow, hcode ▸ hrt.code⟩
      rw [TicketRepository.getTicketHashByValidationCode, hfind, Option.map_some, hrt.hash, hser]
    obtain ⟨t₁, tk, tk', ht₁, hi, hi', hs⟩ := hI.serve_sell hsha hd ⟨rfl, hfound, hprice⟩ hl
    cases ht₀.symm.trans ht₁
    rw [hs]
    exact ⟨rfl, rows_of_list hi hi'⟩

/-- Every other purchase or resale is refused, and changes nothing. -/
theorem serve_of_no_trade (hI : StoreInv sha b db) (hsha : Function.Injective sha) (hc : c.Trades)
    (h : ∀ r P, ¬Trade sha b db c r P) : ∃ x, serve sha c db = (.error x, db) := by
  cases c with
  | buyTicket T e u env =>
    refine serve_buy_refused fun ti hr => ?_
    exact h _ _ (.bought (hr.count rfl) hr.listed.1 hr.listed.2 hr.event)
  | sellTicket data newPrice =>
    refine serve_sell_refused fun t hd hr => ?_
    obtain ⟨t₀, ht₀, hcode, hser⟩ := hI.keeps.of_reaches hsha hr
    by_contra hl
    exact h _ _ (.listed hd ht₀ hcode hser hr.price hl)
  | _ => exact hc.elim

end Serve

/-! ### What a call sees of the store -/

/-- The ticket that a call is about: the one to be bought, or the one whose text is shown. -/
def Call.concerns : Call → Option ℤ
  | buyTicket T _ _ _ => some T
  | sellTicket data _ => (Ticket.deserialize data).toOption.map fun r => r.2.ticketID
  | _ => none

theorem concerns_sellTicket {data : Text} {ok : Bool} {t : Ticket} (newPrice : Double)
    (hd : Ticket.deserialize data = .ok (ok, t)) :
    (Call.sellTicket data newPrice).concerns = some t.ticketID := by
  rw [Call.concerns, hd]
  rfl

/-- The call finds its seat, and the number of its buyer's rows, the same in both stores. -/
structure Sees (c : Call) (b : Book) (db : TicketDB) (b' : Book) (db' : TicketDB) : Prop where
  book : ∀ T, c.concerns = some T → b' T = b T
  offer : ∀ T, c.concerns = some T → ∀ ti, ti.ticketID = T → (ti ∈ db'.ticketInfo ↔ ti ∈ db.ticketInfo)
  owned : ∀ u, c.buyer? = some u →
    TicketRepository.getNrOfTicketsOwned u db' = TicketRepository.getNrOfTicketsOwned u db

theorem Sees.symm (h : Sees c b db b' db') : Sees c b' db' b db where
  book T hT := (h.book T hT).symm
  offer T hT ti hti := (h.offer T hT ti hti).symm
  owned u hu := (h.owned u hu).symm

/-- What a call does depends on what it sees. -/
theorem Trade.congr (hs : Sees c b db b' db') {r : Reply} {P : Changes} (h : Trade sha b db c r P) :
    Trade sha b' db' c r P := by
  cases h with
  | @bought T e u env ti hc hti hT he =>
    rw [← hs.book T rfl]
    rw [← hs.owned u rfl] at hc
    exact .bought hc ((hs.offer T rfl ti hT).2 hti) hT he
  | @listed data newPrice t t₀ hd ht₀ hcode hser hprice hl =>
    have hT := concerns_sellTicket newPrice hd
    rw [← hs.book _ hT] at ht₀
    refine .listed hd ht₀ hcode hser hprice ?_
    rintro ⟨ti, hti, htiT⟩
    exact hl ⟨ti, (hs.offer _ hT ti htiT).1 hti, htiT⟩

/-! ### Calls that do not meet -/

/-- The calls are about different tickets, draw different codes, and neither is by a buyer of the other
or by the owner of the ticket that the other buys. -/
structure Independent (b : Book) (c c' : Call) : Prop where
  tickets : ∀ T, c.concerns = some T → c'.concerns ≠ some T
  codes : ∀ x, c.code? = some x → c'.code? ≠ some x
  buyers : ∀ u, c.buyer? = some u → c'.buyer? ≠ some u
  owner : ∀ u T t, c.buyer? = some u → c'.seat? = some T → b T = some t → t.buyerID ≠ u
  owner' : ∀ u T t, c'.buyer? = some u → c.seat? = some T → b T = some t → t.buyerID ≠ u

theorem Independent.symm (h : Independent b c c') : Independent b c' c where
  tickets T hT hT' := h.tickets T hT' hT
  codes x hx hx' := h.codes x hx' hx
  buyers u hu hu' := h.buyers u hu' hu
  owner := h.owner'
  owner' := h.owner

section Apart

variable {r r' : Reply} {P P' : Changes}

/-- Trades that do not meet do not see each other. -/
theorem Trade.sees (hI : StoreInv sha b db) (hind : Independent b c c') (h : Trade sha b db c' r P)
    (hrows : db'.rows = P.apply db.rows) : Sees c b db (b.after (.ok r)) db' := by
  have hinfo := Set.ext_iff.1 (congrArg Rows.ticketInfo hrows)
  have hticket := Set.ext_iff.1 (congrArg Rows.ticket hrows)
  cases h with
  | @bought T e u env ti hc hti hT he =>
    have hne : ∀ T', c.concerns = some T' → T' ≠ T := by
      rintro T' hT' rfl
      exact hind.tickets T' hT' rfl
    refine ⟨fun T' hT' => ?_, fun T' hT' x hx => ?_, fun u' hu' => ?_⟩
    · refine Book.sell_of_ne ?_ b
      exact fun heq => hne T' hT' (heq.symm.trans hT)
    · refine (hinfo x).trans ?_
      have hxT : x.ticketID ≠ T := hx ▸ hne T' hT'
      simp [Changes.apply, Changes.purchase, Patch.mem_apply, TicketDB.rows, hxT]
    · -- neither the row that comes nor the one that goes is his
      refine Table.length_select_congr fun row hrow => ?_
      have hrow' : row.ownerId = u' := of_decide_eq_true hrow
      have hnew : row ≠ Buy.row sha u (issued ti u env) := by
        rintro rfl
        exact hind.buyers u' hu' (congrArg some hrow')
      refine (hticket row).trans ?_
      simp only [Changes.apply, Changes.purchase, Patch.mem_apply, TicketDB.rows, Set.mem_ofPred_eq,
        Set.mem_singleton_iff, hnew, or_false]
      refine and_iff_left_of_imp ?_
      rintro hmem ⟨t, ht, hcode⟩
      obtain ⟨row', hmem', hrt⟩ := hI.exists_row ht
      obtain rfl : row = row' := Table.eq_of_key hmem hmem' (hcode.trans hrt.code.symm)
      exact hind.owner u' T t hu' rfl ht (hrt.owner.symm.trans hrow')
  | @listed data newPrice t t₀ hd ht₀ hcode hser hprice hl =>
    have hT := concerns_sellTicket newPrice hd
    refine ⟨fun _ _ => rfl, fun T' hT' x hx => ?_, fun u' hu' => ?_⟩
    · have hne : x ≠ listing t newPrice := by
        rintro rfl
        exact hind.tickets T' hT' (hT.trans (congrArg some hx))
      refine (hinfo x).trans ?_
      simp [Changes.apply, Changes.resale, Patch.mem_apply, TicketDB.rows, hne]
    · refine Table.length_select_congr fun row _ => (hticket row).trans ?_
      simp [Changes.apply, Changes.resale, TicketDB.rows]

/-- The patches of trades that do not meet are apart. -/
theorem Trade.apart (hsha : Function.Injective sha) (hnew : DrawsNew b c) (hnew' : DrawsNew b c')
    (hind : Independent b c c') (h : Trade sha b db c r P) (h' : Trade sha b db c' r' P') :
    P.Apart P' := by
  have hmixed : ∀ {T T' : ℤ} {old row} {t₀ : Ticket} {ti : TicketInfo}, ti.ticketID = T' → T ≠ T' →
      (Changes.purchase sha T old row).Apart (.resale sha ti t₀) := by
    rintro T T' old row t₀ ti rfl hne
    refine ⟨⟨Set.empty_disjoint _, ?_⟩, ⟨Set.disjoint_empty _, Set.empty_disjoint _⟩,
      ⟨Set.empty_disjoint _, ?_⟩⟩
    · exact Set.disjoint_singleton_left.2 hne.symm
    · exact Set.disjoint_singleton_left.2 hne.symm
  have hrow : ∀ {c : Call} {T T' e u env ti}, c = .buyTicket T e u env → DrawsNew b c →
      Disjoint {Buy.row sha u (issued ti u env)}
        {r : TicketRow | ∃ t, b T' = some t ∧ r.validationCode = sha t.validationCode} := by
    rintro c T T' e u env ti rfl hfresh
    refine Set.disjoint_singleton_left.2 ?_
    rintro ⟨t, ht, hcode⟩
    exact hfresh T' t ht (congrArg some (hsha hcode))
  cases h with
  | @bought T e u env ti =>
    cases h' with
    | bought =>
      exact ⟨.of_drops rfl rfl, ⟨hrow rfl hnew, hrow rfl hnew'⟩, .of_drops rfl rfl⟩
    | listed hd =>
      refine hmixed rfl ?_
      rintro rfl
      exact hind.tickets _ rfl (concerns_sellTicket _ hd)
  | listed hd =>
    cases h' with
    | bought =>
      refine (hmixed rfl ?_).symm
      rintro rfl
      exact hind.tickets _ (concerns_sellTicket _ hd) rfl
    | listed => exact ⟨.of_adds rfl rfl, .of_adds rfl rfl, .of_adds rfl rfl⟩

end Apart

/-! ### Either order -/

section Order

variable (hI : StoreInv sha b db) (hsha : Function.Injective sha) (hnew' : DrawsNew b c')

include hI hsha hnew'

/-- A call finds what it sees as it was before a call that it does not meet. -/
theorem sees_serve (hc' : c'.Trades) (hind : Independent b c c') :
    Sees c b db (b.after (serve sha c' db).1) (serve sha c' db).2 := by
  by_cases h : ∃ r P, Trade sha b db c' r P
  · obtain ⟨r, P, h⟩ := h
    obtain ⟨hr, hrows⟩ := serve_of_trade hI hsha hnew' h
    rw [hr]
    exact h.sees hI hind hrows
  · obtain ⟨x, hx⟩ := serve_of_no_trade hI hsha hc' fun r P hP => h ⟨r, P, hP⟩
    rw [hx]
    exact ⟨fun _ _ => rfl, fun _ _ _ _ => Iff.rfl, fun _ _ => rfl⟩

/-- Its code is new after that call as well. -/
theorem drawsNew_serve (hc' : c'.Trades) (hnew : DrawsNew b c) (hind : Independent b c c') :
    DrawsNew (b.after (serve sha c' db).1) c := by
  by_cases h : ∃ r P, Trade sha b db c' r P
  · obtain ⟨r, P, h⟩ := h
    rw [(serve_of_trade hI hsha hnew' h).1]
    cases h with
    | @bought T e u env ti =>
      intro T' t ht
      by_cases hT : (issued ti u env).ticketID = T'
      · cases (Book.sell_of_eq hT b).symm.trans ht
        exact fun hcode => hind.codes _ hcode rfl
      · exact hnew T' t ((Book.sell_of_ne hT b).symm.trans ht)
    | listed => exact hnew
  · obtain ⟨x, hx⟩ := serve_of_no_trade hI hsha hc' fun r P hP => h ⟨r, P, hP⟩
    rw [hx]
    exact hnew

theorem serve_after_of_trade (hc' : c'.Trades) (hnew : DrawsNew b c) (hind : Independent b c c')
    {r : Reply} {P : Changes} (h : Trade sha b db c r P) :
    (serve sha c (serve sha c' db).2).1 = .ok r ∧
      (serve sha c (serve sha c' db).2).2.rows = P.apply (serve sha c' db).2.rows :=
  serve_of_trade (hI.step hsha (hI.served hsha c' hnew')) hsha
    (drawsNew_serve hI hsha hnew' hc' hnew hind) (h.congr (sees_serve hI hsha hnew' hc' hind))

theorem serve_after_of_no_trade (hc : c.Trades) (hc' : c'.Trades) (hind : Independent b c c')
    (h : ∀ r P, ¬Trade sha b db c r P) :
    ∃ x, serve sha c (serve sha c' db).2 = (.error x, (serve sha c' db).2) :=
  serve_of_no_trade (hI.step hsha (hI.served hsha c' hnew')) hsha hc fun r P hP =>
    h r P (hP.congr (sees_serve hI hsha hnew' hc' hind).symm)

/-- A call has the same outcome after a call that it does not meet. -/
theorem outcome_serve (hc : c.Trades) (hc' : c'.Trades) (hnew : DrawsNew b c)
    (hind : Independent b c c') :
    (serve sha c (serve sha c' db).2).1.toOption = (serve sha c db).1.toOption := by
  by_cases h : ∃ r P, Trade sha b db c r P
  · obtain ⟨r, P, h⟩ := h
    rw [(serve_after_of_trade hI hsha hnew' hc' hnew hind h).1, (serve_of_trade hI hsha hnew h).1]
  · have hno : ∀ r P, ¬Trade sha b db c r P := fun r P hP => h ⟨r, P, hP⟩
    obtain ⟨x, hx⟩ := serve_of_no_trade hI hsha hc hno
    obtain ⟨y, hy⟩ := serve_after_of_no_trade hI hsha hnew' hc hc' hind hno
    rw [hx, hy]
    rfl

end Order

/-- **Purchases and resales of different tickets commute**: in either order they have the same outcomes,
and leave the same rows. -/
theorem trades_commute (hI : StoreInv sha b db) (hsha : Function.Injective sha) (hc : c.Trades)
    (hc' : c'.Trades) (hnew : DrawsNew b c) (hnew' : DrawsNew b c') (hind : Independent b c c') :
    (serve sha c db).1.toOption = (serve sha c (serve sha c' db).2).1.toOption ∧
      (serve sha c' (serve sha c db).2).1.toOption = (serve sha c' db).1.toOption ∧
      (serve sha c' (serve sha c db).2).2.rows = (serve sha c (serve sha c' db).2).2.rows := by
  refine ⟨(outcome_serve hI hsha hnew' hc hc' hnew hind).symm,
    outcome_serve hI hsha hnew hc' hc hnew' hind.symm, ?_⟩
  by_cases h : ∃ r P, Trade sha b db c r P
  · obtain ⟨r, P, h⟩ := h
    by_cases h' : ∃ r P, Trade sha b db c' r P
    · obtain ⟨r', P', h'⟩ := h'
      rw [(serve_after_of_trade hI hsha hnew hc hnew' hind.symm h').2,
        (serve_of_trade hI hsha hnew h).2,
        (serve_after_of_trade hI hsha hnew' hc' hnew hind h).2, (serve_of_trade hI hsha hnew' h').2]
      exact (h.apart hsha hnew hnew' hind h').apply_comm db.rows
    · have hno : ∀ r P, ¬Trade sha b db c' r P := fun r P hP => h' ⟨r, P, hP⟩
      obtain ⟨x, hx⟩ := serve_of_no_trade hI hsha hc' hno
      obtain ⟨y, hy⟩ := serve_after_of_no_trade hI hsha hnew hc' hc hind.symm hno
      rw [hx, hy]
  · have hno : ∀ r P, ¬Trade sha b db c r P := fun r P hP => h ⟨r, P, hP⟩
    obtain ⟨x, hx⟩ := serve_of_no_trade hI hsha hc hno
    obtain ⟨y, hy⟩ := serve_after_of_no_trade hI hsha hnew' hc hc' hind hno
    rw [hx, hy]

/-- User 6 buys seat 7 from user 5, and user 8 buys seat 8. -/
def buysResold : Call := .buyTicket 7 1 6 (drawing 1)
def buysFresh : Call := .buyTicket 8 1 8 (drawing 2)

theorem drawsNew_relisting {c : Call} (h : c.code? ≠ some codeA) :
    DrawsNew (latest (after relisting).1) c := by
  intro T t ht
  have hp : purchases (after relisting).1 = [ticketOfUser5] := by decide +kernel
  have hmem := (mem_of_latest ht).1
  rw [hp, List.mem_singleton] at hmem
  subst hmem
  exact h

theorem independent_buys : Independent (latest (after relisting).1) buysResold buysFresh where
  tickets _ hT hT' := absurd (hT.trans hT'.symm) (by decide)
  codes _ hx hx' := absurd (hx.trans hx'.symm) (by decide)
  buyers _ hu hu' := absurd (hu.trans hu'.symm) (by decide)
  owner u T t hu hT ht := by
    cases hT
    have h8 : latest (after relisting).1 8 = none := by decide +kernel
    cases h8.symm.trans ht
  owner' u T t hu hT ht := by
    cases hu
    cases hT
    have h7 : latest (after relisting).1 7 = some ticketOfUser5 := by decide +kernel
    cases h7.symm.trans ht
    decide

theorem trades_commute_relisting :
    ((serve sha256 buysResold (after relisting).2).1.toOption.isSome = true ∧
      (serve sha256 buysFresh (after relisting).2).1.toOption.isSome = true) ∧
    (serve sha256 buysResold (after relisting).2).1.toOption =
        (serve sha256 buysResold (serve sha256 buysFresh (after relisting).2).2).1.toOption ∧
      (serve sha256 buysFresh (serve sha256 buysResold (after relisting).2).2).1.toOption =
        (serve sha256 buysFresh (after relisting).2).1.toOption ∧
      (serve sha256 buysFresh (serve sha256 buysResold (after relisting).2).2).2.rows =
        (serve sha256 buysResold (serve sha256 buysFresh (after relisting).2).2).2.rows :=
  ⟨⟨by decide +kernel, by decide +kernel⟩,
    trades_commute relisting_inv sha256_injective trivial trivial (drawsNew_relisting (by decide))
      (drawsNew_relisting (by decide)) independent_buys⟩

end TicketIST
