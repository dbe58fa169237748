import TicketIST.Stages

/-!
# The book of purchases, and the store that keeps it

What the three tables are for is a book: for every seat that was ever sold, the ticket of its latest
purchase.  `StoreInv` is the relation between the book and the tables.  `ticket` has one row for every
ticket in the book and no other; `resell_tickets` has one row for every ticket in the book whose seat
is on offer again, and no other.

`StoreInv.serve` is the simulation step: a call served alone takes a store that keeps a book to one
that keeps the book with the ticket, if any, that the call returned.  It needs that the codes drawn
are new and that `sha` is injective, since a resale names its row by hashes of what the seller sent.
-/

namespace TicketIST

open TicketIST.Lib TicketOp

/-- For every ticketID, the ticket of its latest purchase. -/
abbrev Book := ℤ → Option Ticket

def Book.sell (b : Book) (t : Ticket) : Book := Function.update b t.ticketID (some t)

/-- The book after a call: a purchase that returned goes in. -/
def Book.after (b : Book) : Except Exn Reply → Book
  | .ok (.ticket t) => b.sell t
  | _ => b

theorem Book.sell_of_eq {t : Ticket} {T : ℤ} (h : t.ticketID = T) (b : Book) :
    b.sell t T = some t := by
  rw [Book.sell, h, Function.update_self]

theorem Book.sell_of_ne {t : Ticket} {T : ℤ} (h : t.ticketID ≠ T) (b : Book) : b.sell t T = b T :=
  Function.update_of_ne h.symm ..

theorem Book.after_isSome {b : Book} {T : ℤ} {t : Ticket} (ht : b T = some t)
    (r : Except Exn Reply) : ∃ t', b.after r T = some t' := by
  rcases r with x | (l | t' | ⟨ok, info⟩ | ok)
  · exact ⟨t, ht⟩
  · exact ⟨t, ht⟩
  · by_cases hT : t'.ticketID = T
    · exact ⟨t', Book.sell_of_eq hT b⟩
    · exact ⟨t, (Book.sell_of_ne hT b).trans ht⟩
  · exact ⟨t, ht⟩
  · exact ⟨t, ht⟩

theorem Book.after_of_ne {b : Book} {r : Except Exn Reply} (h : ∀ t, r ≠ .ok (.ticket t)) :
    b.after r = b := by
  rcases r with x | (l | t | ⟨ok, info⟩ | ok)
  · rfl
  · rfl
  · exact absurd rfl (h t)
  · rfl
  · rfl

def TicketDB.Listed (db : TicketDB) (T : ℤ) : Prop := ∃ ti ∈ db.ticketInfo, ti.ticketID = T

variable {sha : Text → Text}

/-- `r` is the row of `ticket` for the ticket `t`. -/
structure RowOf (sha : Text → Text) (t : Ticket) (r : TicketRow) : Prop where
  code : r.validationCode = sha t.validationCode
  hash : r.ticketHash = sha t.serialize
  owner : r.ownerId = t.buyerID

/-- The tables keep the book `b`. -/
structure StoreInv (sha : Text → Text) (b : Book) (db : TicketDB) : Prop where
  /-- a ticket is filed under its number -/
  number : ∀ {T t}, b T = some t → t.ticketID = T
  /-- different seats have different codes -/
  code : ∀ {T T' t t'}, b T = some t → b T' = some t' → t.validationCode = t'.validationCode → T = T'
  /-- a row is the row of a ticket in the book -/
  row : ∀ {r}, r ∈ db.ticket → ∃ T t, b T = some t ∧ RowOf sha t r
  /-- a ticket in the book has its row -/
  exists_row : ∀ {T t}, b T = some t → ∃ r ∈ db.ticket, RowOf sha t r
  /-- a resale links a seat on offer to the row of its ticket -/
  resell : ∀ {x}, x ∈ db.resellTickets ↔
    db.Listed x.ticketId ∧ ∃ t, b x.ticketId = some t ∧ x.hashValCode = sha t.validationCode

/-- The weaker relation that a failed purchase keeps too: it may leave a link to a seat that is on
offer no longer. -/
structure Keeps (sha : Text → Text) (b : Book) (db : TicketDB) : Prop where
  /-- a ticket is filed under its number -/
  number : ∀ {T t}, b T = some t → t.ticketID = T
  /-- a row is the row of a ticket in the book -/
  row : ∀ {r}, r ∈ db.ticket → ∃ T t, b T = some t ∧ RowOf sha t r
  /-- a ticket in the book has its row -/
  exists_row : ∀ {T t}, b T = some t → ∃ r ∈ db.ticket, RowOf sha t r
  /-- a link leads to the row of its ticket -/
  link : ∀ {x}, x ∈ db.resellTickets →
    ∃ t, b x.ticketId = some t ∧ x.hashValCode = sha t.validationCode
  /-- a seat on offer is linked to the row of its ticket -/
  linked : ∀ {T t}, b T = some t → db.Listed T → ⟨sha t.validationCode, T⟩ ∈ db.resellTickets

theorem StoreInv.keeps {b : Book} {db : TicketDB} (hI : StoreInv sha b db) : Keeps sha b db where
  number := hI.number
  row := hI.row
  exists_row := hI.exists_row
  link hx := (hI.resell.1 hx).2
  linked ht hl := hI.resell.2 ⟨hl, _, ht, rfl⟩

theorem StoreInv.init (info : Table TicketInfo ℤ TicketInfo.ticketID) :
    StoreInv sha (fun _ => none) ⟨info, .empty, .empty⟩ where
  number h := nomatch h
  code h := nomatch h
  row h := absurd h (Table.not_mem_empty _)
  exists_row h := nomatch h
  resell {x} := ⟨fun h => absurd h (Table.not_mem_empty x), fun ⟨_, _, h, _⟩ => nomatch h⟩

section

variable {b : Book} {db : TicketDB} {T : ℤ} {t : Ticket}

theorem StoreInv.no_row (hI : StoreInv sha b db) (hsha : Function.Injective sha) {c : Text}
    (hc : ∀ T t, b T = some t → t.validationCode ≠ c) :
    ∀ r ∈ db.ticket, r.validationCode ≠ sha c := by
  intro r hr hrc
  obtain ⟨T, t, ht, hrt⟩ := hI.row hr
  exact hc T t ht (hsha (hrt.code.symm.trans hrc))

/-- Different seats have different codes: their rows have one key. -/
theorem Keeps.code (hK : Keeps sha b db) (hsha : Function.Injective sha) {T' : ℤ} {t' : Ticket}
    (ht : b T = some t) (ht' : b T' = some t') (hc : t.validationCode = t'.validationCode) :
    T = T' := by
  obtain ⟨r, hr, hrt⟩ := hK.exists_row ht
  obtain ⟨r', hr', hrt'⟩ := hK.exists_row ht'
  have hcode : r.validationCode = r'.validationCode := by rw [hrt.code, hrt'.code, hc]
  obtain rfl : r = r' := Table.eq_of_key hr hr' hcode
  have hser : t.serialize = t'.serialize := hsha (hrt.hash.symm.trans hrt'.hash)
  rw [← hK.number ht, ← hK.number ht', Ticket.ticketID_of_serialize hser]

theorem Keeps.hash_of_link (hK : Keeps sha b db) (ht : b T = some t) {x : ResellRow}
    (hx : x ∈ db.resellTickets) (hT : x.ticketId = T) : x.hashValCode = sha t.validationCode := by
  obtain ⟨t', ht', hh⟩ := hK.link hx
  rw [hT, ht] at ht'
  cases ht'
  exact hh

theorem Keeps.no_link (hK : Keeps sha b db) (ht : b T = none) :
    ∀ x ∈ db.resellTickets, x.ticketId ≠ T := by
  rintro x hx rfl
  obtain ⟨t', ht', -⟩ := hK.link hx
  rw [ht] at ht'
  cases ht'

theorem Keeps.exists_link (hK : Keeps sha b db) (T : ℤ) :
    ∃ y, (∀ x ∈ db.resellTickets, x.ticketId = T → x.hashValCode = y) ∧
      ∀ t, b T = some t → y = sha t.validationCode := by
  cases ht : b T with
  | none => exact ⟨[], fun x hx hT => absurd hT (hK.no_link ht x hx), fun _ h => by cases h⟩
  | some t => exact ⟨_, fun x => hK.hash_of_link ht, fun _ h => by cases h; rfl⟩

/-- A seat on offer is sold already if and only if it is linked. -/
theorem Keeps.resold_iff (hK : Keeps sha b db) (hl : db.Listed T) :
    Buy.Resold db T ↔ ∃ t, b T = some t := by
  constructor
  · rintro ⟨x, hx, rfl⟩
    obtain ⟨t, ht, -⟩ := hK.link hx
    exact ⟨t, ht⟩
  · rintro ⟨t, ht⟩
    exact ⟨_, hK.linked ht hl, rfl⟩

/-! ### A purchase -/

section Buy

variable {e u : ℤ} {env : Env} {ti : TicketInfo} {fails : TicketOp → Bool}

theorem StoreInv.exists_insert (hI : StoreInv sha b db) (hsha : Function.Injective sha)
    (hnew : ∀ T t, b T = some t → t.validationCode ≠ Ticket.generateValidationCode 10 env.dist) :
    ∃ tk, db.ticket.insert (Buy.row sha u (issued ti u env)) = some tk :=
  Table.exists_insert (hI.no_row hsha hnew)

/-- That the row of a ticket went in shows that its code is new. -/
theorem Keeps.code_ne_of_insert (hK : Keeps sha b db) {tk}
    (hi : db.ticket.insert (Buy.row sha u t) = some tk) {t' : Ticket} (ht' : b T = some t') :
    t'.validationCode ≠ t.validationCode := by
  intro hc
  obtain ⟨r, hr, hrt⟩ := hK.exists_row ht'
  have hkey : r.validationCode = (Buy.row sha u t).validationCode := by
    rw [hrt.code, hc]
    rfl
  rw [Table.insert_eq_none.2 ⟨r, hr, hkey⟩] at hi
  cases hi

/-- The rows after a purchase none of whose statements fails. -/
theorem mem_ticket_of_buy {row : TicketRow} {tk} (hi : db.ticket.insert row = some tk) {y : Text}
    (hy : ∀ x ∈ db.resellTickets, x.ticketId = T → x.hashValCode = y) {r : TicketRow} :
    r ∈ (Buy.retired (fun _ => false) T (Buy.sold db T tk)).ticket ↔
      (r ∈ db.ticket ∨ r = row) ∧ ¬(r.validationCode = y ∧ Buy.Resold db T) := by
  rw [Buy.mem_ticket_of_buy hi hy fun h => absurd h Bool.false_ne_true]
  simp

/-- The store after a purchase keeps the book with the ticket that was bought. -/
theorem Keeps.buy (hK : Keeps sha b db) (hsha : Function.Injective sha) (hl : db.Listed T)
    (hti : ti.ticketID = T) {tk} (hi : db.ticket.insert (Buy.row sha u (issued ti u env)) = some tk) :
    Keeps sha (b.sell (issued ti u env)) (Buy.retired (fun _ => false) T (Buy.sold db T tk)) := by
  set t := issued ti u env with ht
  have hT : t.ticketID = T := hti
  have hrow : RowOf sha t (Buy.row sha u t) := ⟨rfl, rfl, rfl⟩
  obtain ⟨y, hy, hyb⟩ := hK.exists_link T
  have hbT : b.sell t T = some t := Book.sell_of_eq hT b
  have hbne : ∀ {T'}, T ≠ T' → b.sell t T' = b T' := by
    intro T' h
    refine Book.sell_of_ne ?_ b
    rwa [hT]
  have hticket : ∀ {r}, r ∈ (Buy.retired (fun _ => false) T (Buy.sold db T tk)).ticket ↔
      (r ∈ db.ticket ∨ r = Buy.row sha u t) ∧ ¬(r.validationCode = y ∧ Buy.Resold db T) :=
    mem_ticket_of_buy hi hy
  constructor
  case number =>
    intro T' t' h
    rcases eq_or_ne T T' with rfl | hne
    · cases hbT.symm.trans h
      exact hT
    · rw [hbne hne] at h
      exact hK.number h
  case row =>
    intro r hr
    obtain ⟨hr | rfl, hgone⟩ := hticket.1 hr
    · obtain ⟨T', t', ht', hr'⟩ := hK.row hr
      have hne : T ≠ T' := by
        rintro rfl
        exact hgone ⟨hr'.code.trans (hyb t' ht').symm, (hK.resold_iff hl).2 ⟨t', ht'⟩⟩
      exact ⟨T', t', (hbne hne).trans ht', hr'⟩
    · exact ⟨T, t, hbT, hrow⟩
  case exists_row =>
    intro T' t' h
    rcases eq_or_ne T T' with rfl | hne
    · -- the new row has a new code
      cases hbT.symm.trans h
      refine ⟨_, hticket.2 ⟨.inr rfl, ?_⟩, hrow⟩
      rintro ⟨hcode, hres⟩
      obtain ⟨t₀, ht₀⟩ := (hK.resold_iff hl).1 hres
      have hcode₀ : t₀.validationCode = t.validationCode := hsha (hcode.trans (hyb t₀ ht₀)).symm
      exact hK.code_ne_of_insert hi ht₀ hcode₀
    · -- the row that goes is that of another seat
      rw [hbne hne] at h
      obtain ⟨r, hr, hrt⟩ := hK.exists_row h
      refine ⟨r, hticket.2 ⟨.inl hr, ?_⟩, hrt⟩
      rintro ⟨hcode, hres⟩
      obtain ⟨t₀, ht₀⟩ := (hK.resold_iff hl).1 hres
      have hcode₀ : t'.validationCode = t₀.validationCode := by
        refine hsha ?_
        rw [← hrt.code, hcode, hyb t₀ ht₀]
      exact hne.symm (hK.code hsha h ht₀ hcode₀)
  case link =>
    intro x hx
    rw [Buy.mem_retired_resell] at hx
    have hne : T ≠ x.ticketId := fun h => hx.2 ⟨h.symm, rfl, rfl⟩
    obtain ⟨t', ht', hh⟩ := hK.link hx.1
    exact ⟨t', (hbne hne).trans ht', hh⟩
  case linked =>
    intro T' t' ht' hl'
    obtain ⟨x, hx, hxT⟩ := hl'
    rw [Buy.retired_ticketInfo, Buy.mem_sold, hxT] at hx
    have hne : T ≠ T' := hx.2.symm
    rw [hbne hne] at ht'
    exact Buy.mem_retired_resell.2 ⟨hK.linked ht' ⟨x, hx.1, hxT⟩, fun h => hne h.1.symm⟩

theorem StoreInv.buy (hI : StoreInv sha b db) (hsha : Function.Injective sha)
    (hl : db.Listed T) (hti : ti.ticketID = T) {tk}
    (hi : db.ticket.insert (Buy.row sha u (issued ti u env)) = some tk) :
    StoreInv sha (b.sell (issued ti u env)) (Buy.retired (fun _ => false) T (Buy.sold db T tk)) := by
  have hK := hI.keeps.buy hsha hl hti hi
  refine ⟨hK.number, fun h h' => hK.code hsha h h', hK.row, hK.exists_row, fun {x} => ?_⟩
  constructor
  · intro hx
    refine ⟨?_, hK.link hx⟩
    rw [Buy.mem_retired_resell] at hx
    obtain ⟨⟨ti', hti', hT'⟩, -⟩ := hI.resell.1 hx.1
    refine ⟨ti', ?_, hT'⟩
    rw [Buy.retired_ticketInfo, Buy.mem_sold, hT']
    exact ⟨hti', fun h => hx.2 ⟨h, rfl, rfl⟩⟩
  · rintro ⟨hl', t', ht', hh⟩
    obtain ⟨h, T'⟩ := x
    obtain rfl : h = _ := hh
    exact hK.linked ht' hl'

end Buy

/-! ### A listing -/

section Sell

variable {newPrice : Double} {fails : TicketOp → Bool}

/-- The row that vouches for a listing is the row of the seat it names: the hashes leave no choice. -/
theorem Keeps.of_reaches (hK : Keeps sha b db) (hsha : Function.Injective sha)
    (h : Sell.Reaches sha fails db t newPrice) :
    ∃ t₀, b t.ticketID = some t₀ ∧ t₀.validationCode = t.validationCode ∧
      t.serialize = t₀.serialize := by
  obtain ⟨r, hr, hc, hh⟩ := h.row
  obtain ⟨T, t₀, ht₀, hr₀⟩ := hK.row hr
  have hser : t₀.serialize = t.serialize := hsha (hr₀.hash.symm.trans hh)
  have hT : T = t.ticketID := (hK.number ht₀).symm.trans (Ticket.ticketID_of_serialize hser)
  exact ⟨t₀, hT ▸ ht₀, hsha (hr₀.code.symm.trans hc), hser.symm⟩

theorem StoreInv.exists_record (hI : StoreInv sha b db) (hsha : Function.Injective sha)
    {t₀ : Ticket} (ht₀ : b T = some t₀) (hl : ¬db.Listed T) :
    ∃ tk, db.resellTickets.insert ⟨sha t₀.validationCode, T⟩ = some tk := by
  refine Table.exists_insert ?_
  intro x hx hc
  obtain ⟨hlx, t', ht', hh⟩ := hI.resell.1 hx
  have hT : x.ticketId = T := hI.code ht' ht₀ (hsha (hh.symm.trans hc))
  rw [hT] at hlx
  exact hl hlx

/-- A seat on offer after a listing is the one listed, or was on offer before. -/
theorem listed_insert {ti : TicketInfo} (hti : ti.ticketID = T) {tk}
    (hi : db.ticketInfo.insert ti = some tk) (tk') (T' : ℤ) :
    TicketDB.Listed { db with ticketInfo := tk, resellTickets := tk' } T' ↔
      db.Listed T' ∨ T' = T := by
  simp only [TicketDB.Listed, Table.mem_insert hi]
  constructor
  · rintro ⟨y, hy | rfl, rfl⟩
    · exact .inl ⟨y, hy, rfl⟩
    · exact .inr hti
  · rintro (⟨y, hy, rfl⟩ | rfl)
    · exact ⟨y, .inl hy, rfl⟩
    · exact ⟨ti, .inr rfl, hti⟩

/-- The store after a listing keeps the book, with the seat linked to its row. -/
theorem Keeps.list (hK : Keeps sha b db) (ht : b T = some t) {ti : TicketInfo}
    (hti : ti.ticketID = T) {tk tk'} (hi : db.ticketInfo.insert ti = some tk)
    (hlink : ∀ x ∈ tk', x ∈ db.resellTickets ∨ x = ⟨sha t.validationCode, T⟩)
    (hlinked : ∀ x, x ∈ db.resellTickets ∨ x = ⟨sha t.validationCode, T⟩ → x ∈ tk') :
    Keeps sha b { db with ticketInfo := tk, resellTickets := tk' } where
  number := hK.number
  row := hK.row
  exists_row := hK.exists_row
  link {x} hx := by
    rcases hlink x hx with hx | rfl
    · exact hK.link hx
    · exact ⟨t, ht, rfl⟩
  linked {T' t'} ht' hl := by
    rcases (listed_insert hti hi tk' T').1 hl with hl | rfl
    · exact hlinked _ (.inl (hK.linked ht' hl))
    · cases ht.symm.trans ht'
      exact hlinked _ (.inr rfl)

/-- A listing whose record is there already: it belongs to the same seat. -/
theorem Keeps.record_exists (hK : Keeps sha b db) (hsha : Function.Injective sha) (ht : b T = some t)
    {x : ResellRow} (hx : x ∈ db.resellTickets) (hc : x.hashValCode = sha t.validationCode) :
    x = ⟨sha t.validationCode, T⟩ := by
  obtain ⟨h, T'⟩ := x
  obtain ⟨t', ht', hh⟩ := hK.link hx
  obtain rfl : h = _ := hc
  obtain rfl : T' = T := hK.code hsha ht' ht (hsha hh.symm)
  rfl

theorem StoreInv.list (hI : StoreInv sha b db) (ht : b T = some t) {ti : TicketInfo}
    (hti : ti.ticketID = T) {tk tk'} (hi : db.ticketInfo.insert ti = some tk)
    (hi' : db.resellTickets.insert ⟨sha t.validationCode, T⟩ = some tk') :
    StoreInv sha b { db with ticketInfo := tk, resellTickets := tk' } := by
  have hK : Keeps sha b { db with ticketInfo := tk, resellTickets := tk' } :=
    hI.keeps.list ht hti hi (fun x => (Table.mem_insert hi').1) fun x => (Table.mem_insert hi').2
  refine ⟨hK.number, hI.code, hK.row, hK.exists_row, fun {x} => ?_⟩
  constructor
  · intro hx
    refine ⟨(listed_insert hti hi tk' _).2 ?_, hK.link hx⟩
    rcases (Table.mem_insert hi').1 hx with hx | rfl
    · exact .inl (hI.resell.1 hx).1
    · exact .inr rfl
  · rintro ⟨hl', t', ht', hh⟩
    obtain ⟨h, T'⟩ := x
    obtain rfl : h = _ := hh
    exact hK.linked ht' hl'

end Sell

/-! ### An admission -/

theorem Keeps.setTicketInUse (hK : Keeps sha b db) (h : Text) :
    Keeps sha b (TicketRepository.setTicketInUse h db) where
  number := hK.number
  row {r} hr := by
    obtain ⟨r', hr', rfl⟩ := TicketRepository.mem_setTicketInUse.1 hr
    obtain ⟨T, t, ht, hrt⟩ := hK.row hr'
    refine ⟨T, t, ht, ?_⟩
    split
    · exact ⟨hrt.code, hrt.hash, hrt.owner⟩
    · exact hrt
  exists_row {T t} ht := by
    obtain ⟨r, hr, hrt⟩ := hK.exists_row ht
    refine ⟨_, TicketRepository.mem_setTicketInUse.2 ⟨r, hr, rfl⟩, ?_⟩
    split
    · exact ⟨hrt.code, hrt.hash, hrt.owner⟩
    · exact hrt
  link := hK.link
  linked := hK.linked

theorem StoreInv.setTicketInUse (hI : StoreInv sha b db) (h : Text) :
    StoreInv sha b (TicketRepository.setTicketInUse h db) where
  number := hI.number
  code := hI.code
  row := (hI.keeps.setTicketInUse h).row
  exists_row := (hI.keeps.setTicketInUse h).exists_row
  resell := hI.resell

/-! ### A call -/

def Call.seat? : Call → Option ℤ
  | .buyTicket T _ _ _ => some T
  | _ => none

def Call.buyer? : Call → Option ℤ
  | .buyTicket _ _ u _ => some u
  | _ => none

def Call.code? : Call → Option Text
  | .buyTicket _ _ _ env => some (Ticket.generateValidationCode 10 env.dist)
  | _ => none

/-- What a call can answer and leave behind: nothing changes, and no ticket and no admission is
returned; or a ticket is bought, or listed, or admitted. -/
inductive Served (sha : Text → Text) (b : Book) (db : TicketDB) :
    Call → Except Exn Reply → TicketDB → Prop
  | same {c r} (hr : ∀ t, r ≠ .ok (.ticket t))
      (hv : ∀ code info, c = .validateTicket code → r ≠ .ok (.checked true info)) :
      Served sha b db c r db
  | bought {T e u env ti tk} (hr : Buy.Reaches (fun _ => false) db T e u ti)
      (hi : db.ticket.insert (Buy.row sha u (issued ti u env)) = some tk) :
      Served sha b db (.buyTicket T e u env) (.ok (.ticket (issued ti u env)))
        (Buy.retired (fun _ => false) T (Buy.sold db T tk))
  | listed {data newPrice t t₀ tk tk'} (hd : Ticket.deserialize data = .ok (true, t))
      (ht₀ : b t.ticketID = some t₀) (hl : ¬db.Listed t.ticketID)
      (hi : db.ticketInfo.insert (listing t newPrice) = some tk)
      (hi' : db.resellTickets.insert ⟨sha t₀.validationCode, t.ticketID⟩ = some tk') :
      Served sha b db (.sellTicket data newPrice) (.ok (.sold true))
        { db with ticketInfo := tk, resellTickets := tk' }
  | admitted {code row} (hr : row ∈ db.ticket) (hc : row.validationCode = sha code)
      (hu : row.used = false) :
      Served sha b db (.validateTicket code) (.ok (.checked true row.info))
        (TicketRepository.setTicketInUse (sha code) db)

theorem Served.refused {c : Call} (x : Exn) : Served sha b db c (.error x) db :=
  .same nofun fun _ _ _ => nofun

theorem serve_eq (c : Call) : serve sha c db = (c.prog sha).run (faulty fun _ => false) db := by
  rw [serve, faulty_never]

/-- A purchase that passes the checks is made. -/
theorem StoreInv.serve_buy (hI : StoreInv sha b db) (hsha : Function.Injective sha) {e u : ℤ}
    {env : Env} {ti : TicketInfo}
    (hnew : ∀ T t, b T = some t → t.validationCode ≠ Ticket.generateValidationCode 10 env.dist)
    (hr : Buy.Reaches (fun _ => false) db T e u ti) :
    ∃ tk, db.ticket.insert (Buy.row sha u (issued ti u env)) = some tk ∧
      serve sha (.buyTicket T e u env) db = (.ok (.ticket (issued ti u env)),
        Buy.retired (fun _ => false) T (Buy.sold db T tk)) := by
  obtain ⟨tk, hi⟩ := hI.exists_insert hsha hnew
  refine ⟨tk, hi, ?_⟩
  rw [serve_eq, Call.prog, Prog.run_map, Buy.run_sold hr rfl hi]
  rfl

theorem serve_buy_refused {e u : ℤ} {env : Env}
    (h : ∀ ti, ¬Buy.Reaches (fun _ => false) db T e u ti) :
    ∃ x, serve sha (.buyTicket T e u env) db = (.error x, db) := by
  obtain ⟨x, hx⟩ : ∃ x, (TicketService.buyTicket sha T e u env).run (faulty fun _ => false) db =
      (.error x, db) := Buy.run_of_not_reaches h
  rw [serve_eq, Call.prog, Prog.run_map, hx]
  exact ⟨x, rfl⟩

theorem StoreInv.served_buy (hI : StoreInv sha b db) (hsha : Function.Injective sha) {e u : ℤ}
    {env : Env}
    (hnew : ∀ T t, b T = some t → t.validationCode ≠ Ticket.generateValidationCode 10 env.dist) :
    Served sha b db (.buyTicket T e u env) (serve sha (.buyTicket T e u env) db).1
      (serve sha (.buyTicket T e u env) db).2 := by
  by_cases hr : ∃ ti, Buy.Reaches (fun _ => false) db T e u ti
  · obtain ⟨ti, hr⟩ := hr
    obtain ⟨tk, hi, hs⟩ := hI.serve_buy hsha hnew hr
    rw [hs]
    exact .bought hr hi
  · obtain ⟨x, hx⟩ : ∃ x, serve sha (.buyTicket T e u env) db = (.error x, db) :=
      serve_buy_refused (not_exists.1 hr)
    rw [hx]
    exact .refused x

theorem serve_validate_refused {code : Text}
    (h : ∀ r ∈ db.ticket, r.validationCode = sha code → r.used = true) :
    ∃ info, serve sha (.validateTicket code) db = (.ok (.checked false info), db) := by
  obtain ⟨info, hx⟩ : ∃ info, (TicketService.validateTicket sha code).run
      (faulty fun _ => false) db = (.ok (false, info), db) := Validate.run_refused fun _ => h
  rw [serve_eq, Call.prog, Prog.run_map, hx]
  exact ⟨info, rfl⟩

theorem served_validate (code : Text) :
    Served sha b db (.validateTicket code) (serve sha (.validateTicket code) db).1
      (serve sha (.validateTicket code) db).2 := by
  rw [serve_eq, Call.prog, Prog.run_map]
  rcases Validate.run_cases sha (fun _ => false) code db with ⟨-, r, hr, hc, hu, hx⟩ | ⟨info, hx⟩
  · rw [hx]
    exact .admitted hr hc hu
  · rw [hx]
    exact .same nofun fun _ _ _ => nofun

/-- A resale that passes the checks is made, unless its ticket is on offer. -/
theorem StoreInv.serve_sell (hI : StoreInv sha b db) (hsha : Function.Injective sha) {data : Text}
    {newPrice : Double} {t : Ticket} (hd : Ticket.deserialize data = .ok (true, t))
    (hr : Sell.Reaches sha (fun _ => false) db t newPrice) (hl : ¬db.Listed t.ticketID) :
    ∃ t₀ tk tk', b t.ticketID = some t₀ ∧ db.ticketInfo.insert (listing t newPrice) = some tk ∧
      db.resellTickets.insert ⟨sha t₀.validationCode, t.ticketID⟩ = some tk' ∧
      serve sha (.sellTicket data newPrice) db =
        (.ok (.sold true), { db with ticketInfo := tk, resellTickets := tk' }) := by
  obtain ⟨t₀, ht₀, hc, -⟩ := hI.keeps.of_reaches hsha hr
  obtain ⟨tk, hi⟩ : ∃ tk, db.ticketInfo.insert (listing t newPrice) = some tk :=
    Table.exists_insert fun x hx hT => hl ⟨x, hx, hT⟩
  obtain ⟨tk', hi'⟩ := hI.exists_record hsha ht₀ hl
  refine ⟨t₀, tk, tk', ht₀, hi, hi', ?_⟩
  have hrec : (Sell.record sha t).run (faulty fun _ => false) { db with ticketInfo := tk } =
      (.ok true, ⟨tk, db.ticket, tk'⟩) := Sell.run_record rfl (hc ▸ hi')
  rw [serve_eq, Call.prog, Prog.run_map, Sell.sellTicket_eq, hd]
  simp only [Bool.not_true, Bool.false_eq_true, if_false]
  rw [Sell.run_of_reaches hr, Sell.run_list rfl hi, hrec]
  rfl

theorem serve_sell_refused {data : Text} {newPrice : Double}
    (h : ∀ t, Ticket.deserialize data = .ok (true, t) →
      Sell.Reaches sha (fun _ => false) db t newPrice → db.Listed t.ticketID) :
    ∃ x, serve sha (.sellTicket data newPrice) db = (.error x, db) := by
  rw [serve_eq, Call.prog, Prog.run_map, Sell.sellTicket_eq]
  cases hd : Ticket.deserialize data with
  | error x => exact ⟨x, rfl⟩
  | ok wt =>
    obtain ⟨_ | _, t⟩ := wt
    · exact ⟨_, rfl⟩
    simp only [Bool.not_true, Bool.false_eq_true, if_false]
    by_cases hr : Sell.Reaches sha (fun _ => false) db t newPrice
    · obtain ⟨x, hx⟩ : ∃ x, (Sell.list sha t newPrice).run (faulty fun _ => false) db =
          (.error x, db) := Sell.run_list_refused (.inr (h t hd hr))
      rw [Sell.run_of_reaches hr, hx]
      exact ⟨x, rfl⟩
    · obtain ⟨x, hx⟩ := Sell.run_of_not_reaches hr
      rw [hx]
      exact ⟨x, rfl⟩

theorem StoreInv.served_sell (hI : StoreInv sha b db) (hsha : Function.Injective sha) (data : Text)
    (newPrice : Double) :
    Served sha b db (.sellTicket data newPrice) (serve sha (.sellTicket data newPrice) db).1
      (serve sha (.sellTicket data newPrice) db).2 := by
  by_cases h : ∀ t, Ticket.deserialize data = .ok (true, t) →
      Sell.Reaches sha (fun _ => false) db t newPrice → db.Listed t.ticketID
  · obtain ⟨x, hx⟩ := serve_sell_refused h
    rw [hx]
    exact .refused x
  · push Not at h
    obtain ⟨t, hd, hr, hl⟩ := h
    obtain ⟨t₀, tk, tk', ht₀, hi, hi', hs⟩ := hI.serve_sell hsha hd hr hl
    rw [hs]
    exact .listed hd ht₀ hl hi hi'

/-- Every call is served in one of the four ways. -/
theorem StoreInv.served (hI : StoreInv sha b db) (hsha : Function.Injective sha) (c : Call)
    (hnew : ∀ T t, b T = some t → c.code? ≠ some t.validationCode) :
    Served sha b db c (serve sha c db).1 (serve sha c db).2 := by
  cases c with
  | getAllAvailableTicketsByEventId e => exact .same nofun fun _ _ => nofun
  | buyTicket T e u env =>
    refine hI.served_buy hsha ?_
    intro T' t ht h
    exact hnew T' t ht (congrArg some h.symm)
  | validateTicket code => exact served_validate code
  | checkIntegrity code ic =>
    obtain ⟨o, ho⟩ := checkIntegrity_run sha code ic db
    rw [serve_eq, Call.prog, Prog.run_map, ho]
    exact .same (fun _ h => by cases o <;> cases h) fun _ _ => nofun
  | sellTicket data p => exact hI.served_sell hsha data p

/-- The simulation step: the store after a call keeps the book after the call. -/
theorem StoreInv.step (hI : StoreInv sha b db) (hsha : Function.Injective sha) {c : Call}
    {r : Except Exn Reply} {db' : TicketDB} (hs : Served sha b db c r db') :
    StoreInv sha (b.after r) db' := by
  cases hs with
  | same hr hv =>
    have hb : b.after r = b := by
      rcases r with x | (l | t | ⟨ok, info⟩ | ok)
      · rfl
      · rfl
      · exact absurd rfl (hr t)
      · rfl
      · rfl
    rw [hb]
    exact hI
  | bought hr hi => exact hI.buy hsha ⟨_, hr.listed⟩ hr.listed.2 hi
  | listed hd ht₀ hl hi hi' => exact hI.list ht₀ rfl hi hi'
  | admitted hr hc hu => exact hI.setTicketInUse _

end

end TicketIST
