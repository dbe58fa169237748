import TicketIST.Lib.Serial
import TicketIST.Store

/-!
# Serial runs of the ticket service

A run starts with seats on offer and nothing sold, and makes finitely many calls, one at a time.  Its
history determines the book: `latest h T` is the last ticket that was bought for `T`.  `RunInv` says
that the tables keep that book, and what the history says about them; it holds in every run whose
purchases draw new codes (`RunInv.of_serial`).
-/

namespace TicketIST

open TicketIST.Lib

abbrev History := List (Call × Except Exn Reply)

def boughtBy : Call × Except Exn Reply → Option Ticket
  | (_, .ok (.ticket t)) => some t
  | _ => none

theorem eq_of_boughtBy {c : Call} {r : Except Exn Reply} {t : Ticket}
    (h : boughtBy (c, r) = some t) : r = .ok (.ticket t) := by
  rcases r with x | (l | t | ⟨ok, info⟩ | ok) <;> cases h
  rfl

def purchases (h : History) : List Ticket := h.filterMap boughtBy

/-- The ticket of the latest purchase of `T`. -/
def latest (h : History) : Book := fun T =>
  ((purchases h).filter fun t => t.ticketID = T).getLast?

/-- The next call draws no code that was issued before. -/
def NewCode (h : History) (_ : TicketDB) (c : Call) : Prop :=
  ∀ t ∈ purchases h, c.code? ≠ some t.validationCode

instance : ∀ h db c, Decidable (NewCode h db c) := fun h _ c =>
  inferInstanceAs (Decidable (∀ t ∈ purchases h, c.code? ≠ some t.validationCode))

/-! ### Histories -/

theorem purchases_snoc (h : History) (x : Call × Except Exn Reply) :
    purchases (h ++ [x]) = purchases h ++ (boughtBy x).toList := by
  unfold purchases
  cases hx : boughtBy x <;> simp [hx]

theorem latest_snoc (h : History) (c : Call) (r : Except Exn Reply) :
    latest (h ++ [(c, r)]) = (latest h).after r := by
  funext T
  rcases r with x | (l | t | ⟨ok, info⟩ | ok) <;>
    simp only [latest, purchases_snoc, boughtBy, Option.toList, List.append_nil, Book.after]
  rw [List.filter_append, Book.sell]
  by_cases hT : t.ticketID = T
  · subst hT
    simp
  · simp [latest, hT, Function.update_of_ne (Ne.symm hT)]

theorem mem_of_latest {h : History} {T : ℤ} {t : Ticket} (ht : latest h T = some t) :
    t ∈ purchases h ∧ t.ticketID = T := by
  have hmem := List.mem_of_getLast? ht
  simpa using hmem

/-- A seat that was bought is in the book. -/
theorem exists_latest {h : History} {t : Ticket} (ht : t ∈ purchases h) :
    ∃ t', latest h t.ticketID = some t' := by
  refine Option.ne_none_iff_exists'.1 fun hnone => ?_
  rw [latest, List.getLast?_eq_none_iff, List.filter_eq_nil_iff] at hnone
  exact hnone t ht (decide_eq_true rfl)

/-! ### What holds after every run -/

/-- The tables after the history `h` of a run that started with the seats `info` on offer. -/
structure RunInv (sha : Text → Text) (info : Table TicketInfo ℤ TicketInfo.ticketID) (h : History)
    (db : TicketDB) : Prop where
  /-- the tables keep the book of the history -/
  store : StoreInv sha (latest h) db
  /-- every code was issued once -/
  codes : ((purchases h).map Ticket.validationCode).Nodup
  /-- a ticket was returned to the buyer it names -/
  buyer : ∀ {c t}, (c, .ok (.ticket t)) ∈ h → ∃ e env, c = .buyTicket t.ticketID e t.buyerID env
  /-- a seat is on offer or sold -/
  offered : ∀ ti ∈ info.rows, db.Listed ti.ticketID ∨ ∃ t, latest h ti.ticketID = some t

section

variable {sha : Text → Text} {info : Table TicketInfo ℤ TicketInfo.ticketID} {h : History}
  {db : TicketDB}

theorem RunInv.eq_of_code (hI : RunInv sha info h db) {t t' : Ticket} (ht : t ∈ purchases h)
    (ht' : t' ∈ purchases h) (hc : t.validationCode = t'.validationCode) : t = t' :=
  List.inj_on_of_nodup_map hI.codes ht ht' hc

theorem NewCode.book {c : Call} (hc : NewCode h db c) {T : ℤ} {t : Ticket}
    (ht : latest h T = some t) : c.code? ≠ some t.validationCode := hc t (mem_of_latest ht).1

/-- Only a purchase returns a ticket: one with the number, the buyer and the code of the call. -/
theorem Served.of_ticket {b : Book} {c : Call} {t : Ticket} {db' : TicketDB}
    (hs : Served sha b db c (.ok (.ticket t)) db') :
    ∃ e env, c = .buyTicket t.ticketID e t.buyerID env ∧ c.code? = some t.validationCode := by
  cases hs with
  | same hr => exact absurd rfl (hr t)
  | @bought T e u env ti tk hr hi =>
    have hT : (issued ti u env).ticketID = T := hr.listed.2
    exact ⟨e, env, by rw [hT]; rfl, rfl⟩

theorem Served.listed_or {b : Book} {c : Call} {r : Except Exn Reply} {db' : TicketDB}
    (hs : Served sha b db c r db') {T : ℤ} (hl : db.Listed T) :
    db'.Listed T ∨ ∃ t, r = .ok (.ticket t) ∧ t.ticketID = T := by
  cases hs with
  | same => exact .inl hl
  | @bought T' e u env ti tk hr hi =>
    by_cases hT : T' = T
    · exact .inr ⟨_, rfl, hr.listed.2.trans hT⟩
    · obtain ⟨x, hx, hxT⟩ := hl
      refine .inl ⟨x, ?_, hxT⟩
      rw [Buy.retired_ticketInfo, Buy.mem_sold]
      exact ⟨hx, fun h => hT (h.symm.trans hxT)⟩
  | listed hd ht₀ hl' hi hi' =>
    obtain ⟨x, hx, hxT⟩ := hl
    exact .inl ⟨x, (Table.mem_insert hi).2 (.inl hx), hxT⟩
  | admitted => exact .inl hl

theorem RunInv.step (hI : RunInv sha info h db) (hsha : Function.Injective sha) {c : Call}
    (hc : NewCode h db c) :
    RunInv sha info (h ++ [(c, (serve sha c db).1)]) (serve sha c db).2 := by
  have hs := hI.store.served hsha c fun _ _ => hc.book
  generalize (serve sha c db).1 = r at hs ⊢
  generalize (serve sha c db).2 = db' at hs ⊢
  constructor
  case store =>
    rw [latest_snoc]
    exact hI.store.step hsha hs
  case codes =>
    rw [purchases_snoc, List.map_append]
    refine List.nodup_append.2 ⟨hI.codes, ?_, ?_⟩
    · cases boughtBy (c, r) <;> simp
    · rintro _ hx y hy rfl
      obtain ⟨t, ht, rfl⟩ := List.mem_map.1 hx
      obtain ⟨t', ht', hcode⟩ := List.mem_map.1 hy
      obtain rfl := eq_of_boughtBy (t := t') (by simpa using ht')
      obtain ⟨-, -, -, hc'⟩ := hs.of_ticket
      exact hc t ht (hc'.trans (congrArg some hcode))
  case buyer =>
    intro c' t ht
    rcases List.mem_append.1 ht with ht | ht
    · exact hI.buyer ht
    · cases List.mem_singleton.1 ht
      obtain ⟨e, env, hc', -⟩ := hs.of_ticket
      exact ⟨e, env, hc'⟩
  case offered =>
    intro ti hti
    rw [latest_snoc]
    rcases hI.offered ti hti with hl | ⟨t, ht⟩
    · rcases hs.listed_or hl with hl' | ⟨t, rfl, hT⟩
      · exact .inl hl'
      · refine .inr ⟨t, ?_⟩
        exact Book.sell_of_eq hT _
    · exact .inr (Book.after_isSome ht r)

/-- **The run invariant.** -/
theorem RunInv.of_serial (hsha : Function.Injective sha)
    (run : Serial (serve sha) NewCode ⟨info, .empty, .empty⟩ h db) : RunInv sha info h db := by
  refine run.inv ⟨.init info, ?_, ?_, ?_⟩ ?_
  · simp [purchases]
  · exact nofun
  · intro ti hti
    exact .inl ⟨ti, hti, rfl⟩
  · intro h db c hI hc
    exact hI.step hsha hc

/-! ### The tables and the history -/

/-- `r` was issued for `T`: its code is that of a ticket that was bought for `T`. -/
def IssuedFor (sha : Text → Text) (h : History) (T : ℤ) (r : TicketRow) : Prop :=
  ∃ t ∈ purchases h, t.ticketID = T ∧ r.validationCode = sha t.validationCode

/-- The code is refused wherever it is shown: at the gate, in a check, and when it is put on sale. -/
structure Refused (sha : Text → Text) (db : TicketDB) (code : Text) : Prop where
  validate : ∃ info, serve sha (.validateTicket code) db = (.ok (.checked false info), db)
  check : ∀ ic, ∃ info, serve sha (.checkIntegrity code ic) db = (.ok (.checked false info), db)
  sell : ∀ data newPrice t, Ticket.deserialize data = .ok (true, t) → t.validationCode = code →
    ∃ x, serve sha (.sellTicket data newPrice) db = (.error x, db)

theorem refused_of_no_row {code : Text} (hn : ∀ r ∈ db.ticket, r.validationCode ≠ sha code) :
    Refused sha db code := by
  constructor
  case validate => exact serve_validate_refused fun r hr hc => absurd hc (hn r hr)
  case check =>
    intro ic
    refine ⟨"Ticket not found. Please revise the validation code.".toList, ?_⟩
    rw [serve, Call.prog, Prog.run_map, checkIntegrity_of_no_row hn]
    rfl
  case sell =>
    intro data newPrice t hd hc
    refine serve_sell_refused fun t' hd' hr => ?_
    cases hd.symm.trans hd'
    obtain ⟨r, hr, hcode, -⟩ := hr.row
    rw [hc] at hcode
    exact absurd hcode (hn r hr)

/-- The row issued for `T` is the row of its latest purchase. -/
theorem RunInv.rowOf_issuedFor (hI : RunInv sha info h db) (hsha : Function.Injective sha) {T : ℤ}
    {r : TicketRow} (hr : r ∈ db.ticket) (hT : IssuedFor sha h T r) :
    ∃ t, latest h T = some t ∧ RowOf sha t r := by
  obtain ⟨t, ht, rfl, hc⟩ := hT
  obtain ⟨T', t', ht', hr'⟩ := hI.store.row hr
  have htt : t' = t := hI.eq_of_code (mem_of_latest ht').1 ht (hsha (hr'.code.symm.trans hc))
  subst htt
  obtain rfl := hI.store.number ht'
  exact ⟨t', ht', hr'⟩

theorem RunInv.exists_issuedFor (hI : RunInv sha info h db) {T : ℤ} {t : Ticket}
    (ht : latest h T = some t) : ∃ r ∈ db.ticket, IssuedFor sha h T r ∧ RowOf sha t r := by
  obtain ⟨r, hr, hrt⟩ := hI.store.exists_row ht
  exact ⟨r, hr, ⟨t, (mem_of_latest ht).1, (mem_of_latest ht).2, hrt.code⟩, hrt⟩

/-- What ties the three tables to the history of the run. -/
structure StoreTies (sha : Text → Text) (info : Table TicketInfo ℤ TicketInfo.ticketID)
    (h : History) (db : TicketDB) : Prop where
  /-- a row issued for `T` is the row of the latest purchase of `T`, and belongs to its buyer -/
  latest_row : ∀ T, ∀ r ∈ db.ticket, IssuedFor sha h T r → ∃ e u env t, latest h T = some t ∧
    (Call.buyTicket T e u env, .ok (.ticket t)) ∈ h ∧ RowOf sha t r ∧ r.ownerId = u
  /-- at most one row was issued for `T` -/
  one_row : ∀ T, ∀ r ∈ db.ticket, ∀ r' ∈ db.ticket,
    IssuedFor sha h T r → IssuedFor sha h T r' → r = r'
  /-- the code of an earlier purchase is refused -/
  refused : ∀ t ∈ purchases h, latest h t.ticketID ≠ some t → Refused sha db t.validationCode
  /-- a link joins a seat on offer to the row issued for it -/
  resell : ∀ x, x ∈ db.resellTickets ↔ db.Listed x.ticketId ∧
    ∃ r ∈ db.ticket, IssuedFor sha h x.ticketId r ∧ x.hashValCode = r.validationCode
  /-- a seat has at most one link -/
  one_link : ∀ x ∈ db.resellTickets, ∀ x' ∈ db.resellTickets, x.ticketId = x'.ticketId → x = x'
  /-- a seat that was on offer at the start is on offer or has a row -/
  offered : ∀ ti ∈ info.rows, db.Listed ti.ticketID ∨ ∃ r ∈ db.ticket, IssuedFor sha h ti.ticketID r

/-- **The store invariant of serial runs.** -/
theorem storeTies_of_serial (hsha : Function.Injective sha)
    (run : Serial (serve sha) NewCode ⟨info, .empty, .empty⟩ h db) : StoreTies sha info h db := by
  have hI := RunInv.of_serial hsha run
  constructor
  case latest_row =>
    intro T r hr hT
    obtain ⟨t, ht, hrt⟩ := hI.rowOf_issuedFor hsha hr hT
    obtain ⟨hm, rfl⟩ := mem_of_latest ht
    obtain ⟨⟨c, o⟩, hc, hb⟩ := List.mem_filterMap.1 hm
    obtain rfl : o = .ok (.ticket t) := eq_of_boughtBy hb
    obtain ⟨e, env, rfl⟩ := hI.buyer hc
    exact ⟨e, _, env, t, ht, hc, hrt, hrt.owner⟩
  case one_row =>
    intro T r hr r' hr' hT hT'
    obtain ⟨t, ht, hrt⟩ := hI.rowOf_issuedFor hsha hr hT
    obtain ⟨t', ht', hrt'⟩ := hI.rowOf_issuedFor hsha hr' hT'
    cases ht.symm.trans ht'
    exact Table.eq_of_key hr hr' (hrt.code.trans hrt'.code.symm)
  case refused =>
    intro t ht hne
    refine refused_of_no_row ?_
    intro r hr hc
    obtain ⟨t', ht', hrt⟩ := hI.rowOf_issuedFor hsha hr ⟨t, ht, rfl, hc⟩
    have htt : t' = t :=
      hI.eq_of_code (mem_of_latest ht').1 ht (hsha (hrt.code.symm.trans hc))
    rw [htt] at ht'
    exact hne ht'
  case resell =>
    intro x
    rw [hI.store.resell]
    refine and_congr_right fun _ => ?_
    constructor
    · rintro ⟨t, ht, hh⟩
      obtain ⟨r, hr, hT, hrt⟩ := hI.exists_issuedFor ht
      exact ⟨r, hr, hT, hh.trans hrt.code.symm⟩
    · rintro ⟨r, hr, hT, hh⟩
      obtain ⟨t, ht, hrt⟩ := hI.rowOf_issuedFor hsha hr hT
      exact ⟨t, ht, hh.trans hrt.code⟩
  case one_link =>
    intro x hx x' hx' hT
    obtain ⟨-, t, ht, hh⟩ := hI.store.resell.1 hx
    obtain ⟨-, t', ht', hh'⟩ := hI.store.resell.1 hx'
    rw [hT] at ht
    cases ht.symm.trans ht'
    exact Table.eq_of_key hx hx' (hh.trans hh'.symm)
  case offered =>
    intro ti hti
    rcases hI.offered ti hti with hl | ⟨t, ht⟩
    · exact .inl hl
    · obtain ⟨r, hr, hT, -⟩ := hI.exists_issuedFor ht
      exact .inr ⟨r, hr, hT⟩

end

/-! ### A run with a resale -/

def purchase : List Call := [.buyTicket 7 1 5 (drawing 0)]

/-- User 5 buys seat 7 and puts it on sale for less. -/
def relisting : List Call := purchase ++ [.sellTicket ticketOfUser5.serialize (.ofNat 30)]

/-- Then user 6 buys it. -/
def resale : List Call := relisting ++ [.buyTicket 7 1 6 (drawing 1)]

/-- The history and the tables after calls that start with two seats on offer. -/
def after (calls : List Call) : History × TicketDB :=
  serveAll (serve sha256) calls [] ⟨twoSeats, .empty, .empty⟩

theorem serial_after {allowed} {calls : List Call}
    (h : AllAllowed (serve sha256) allowed calls [] ⟨twoSeats, .empty, .empty⟩) :
    Serial (serve sha256) allowed ⟨twoSeats, .empty, .empty⟩ (after calls).1 (after calls).2 :=
  Serial.nil.serveAll h

theorem storeTies_resale : (after resale).2.ticket.rows.map TicketRow.ownerId = [6] ∧
    StoreTies sha256 twoSeats (after resale).1 (after resale).2 :=
  ⟨by decide +kernel, storeTies_of_serial sha256_injective (serial_after (by decide +kernel))⟩

theorem purchase_inv : StoreInv sha256 (latest (after purchase).1) (after purchase).2 :=
  (RunInv.of_serial sha256_injective (serial_after (by decide +kernel))).store

theorem relisting_inv : StoreInv sha256 (latest (after relisting).1) (after relisting).2 :=
  (RunInv.of_serial sha256_injective (serial_after (by decide +kernel))).store

end TicketIST
