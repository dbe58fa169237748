import TicketIST.Lib.Refinement
import TicketIST.Resale

/-!
# The box office

What the ticket service is for, without its tables and hashes: some seats are on offer, others are held
by the ticket of their latest purchase, and of some of these the holder was admitted.  `BoxOffice.Serves`
says what may be answered to a call, down to the texts of the refusals.

The three tables of the service are an implementation of it (`BoxOffice.Shows`): every run of the service
is a run of the box office, call by call and answer by answer (`boxOffice_of_serial`).
-/

namespace TicketIST

open TicketIST.Lib TicketOp

/-! ### The specification -/

structure BoxOffice where
  /-- the seats on offer -/
  offer : ℤ → Option TicketInfo
  /-- for every seat that was sold, the ticket of its latest purchase -/
  held : Book
  /-- the seats whose holder was admitted -/
  inside : Set ℤ

namespace BoxOffice

variable (o : BoxOffice)

/-- How many seats `u` holds. -/
noncomputable def owned (u : ℤ) : ℕ := {T | ∃ t, o.held T = some t ∧ t.buyerID = u}.ncard

/-- A ticket is sold: its seat is no longer on offer, and its holder not yet inside. -/
def sell (t : Ticket) : BoxOffice where
  offer := Function.update o.offer t.ticketID none
  held := o.held.sell t
  inside := o.inside \ {t.ticketID}

def put (ti : TicketInfo) : BoxOffice :=
  { o with offer := Function.update o.offer ti.ticketID (some ti) }

def letIn (T : ℤ) : BoxOffice := { o with inside := insert T o.inside }

section Updates

variable {o} {t : Ticket} {ti : TicketInfo} {T : ℤ}

theorem sell_offer_of_eq (h : t.ticketID = T) : (o.sell t).offer T = none := by
  rw [← h]
  exact Function.update_self ..

theorem sell_offer_of_ne (h : t.ticketID ≠ T) : (o.sell t).offer T = o.offer T :=
  Function.update_of_ne h.symm ..

theorem sell_held_of_eq (h : t.ticketID = T) : (o.sell t).held T = some t := Book.sell_of_eq h _

theorem sell_held_of_ne (h : t.ticketID ≠ T) : (o.sell t).held T = o.held T := Book.sell_of_ne h _

@[simp] theorem mem_sell_inside : T ∈ (o.sell t).inside ↔ T ∈ o.inside ∧ T ≠ t.ticketID := Iff.rfl

theorem put_offer_of_eq (h : ti.ticketID = T) : (o.put ti).offer T = some ti := by
  rw [← h]
  exact Function.update_self ..

theorem put_offer_of_ne (h : ti.ticketID ≠ T) : (o.put ti).offer T = o.offer T :=
  Function.update_of_ne h.symm ..

end Updates

/-- `t` is the ticket of the seat `T` that counts, and `code` its code. -/
structure Good (code : Text) (T : ℤ) (t : Ticket) : Prop where
  held : o.held T = some t
  code : t.validationCode = code

/-- The answer to a check of the ticket `t`. -/
def checkReply (sha : Text → Text) (t : Ticket) (ic : Text) : Except Exn Reply :=
  (TicketService.integrityCode (sha t.serialize)).map fun real =>
    if real = ic then .checked true "Integrity check successful.".toList
    else .checked false
      "Integrity check failed. Integrity of the ticket has been compromised.".toList

/-- What the box office may answer to a call, and what it is like afterwards. -/
inductive Serves (sha : Text → Text) : BoxOffice → Call → Except Exn Reply → BoxOffice → Prop
  | tickets {o e l} : l.Nodup → (∀ ti, ti ∈ l ↔ o.offer ti.ticketID = some ti ∧ ti.eventID = e) →
      Serves sha o (.getAllAvailableTicketsByEventId e) (.ok (.tickets l)) o
  | full {o T e u env} : 6 ≤ o.owned u → Serves sha o (.buyTicket T e u env)
      (.error (.invalidArgument "You already own 6 tickets. You cannot buy more.")) o
  | missing {o T e u env} : o.owned u < 6 → (∀ ti, o.offer T = some ti → ti.eventID ≠ e) →
      Serves sha o (.buyTicket T e u env)
        (.error (.invalidArgument "Ticket not found. Please revise available tickets.")) o
  | bought {o T e u env ti} : o.owned u < 6 → o.offer T = some ti → ti.eventID = e →
      Serves sha o (.buyTicket T e u env) (.ok (.ticket (issued ti u env))) (o.sell (issued ti u env))
  | unknown {o code} : (∀ T t, ¬o.Good code T t) → Serves sha o (.validateTicket code)
      (.ok (.checked false "Ticket not found. Please revise the validation code.".toList)) o
  | again {o code T t} : o.Good code T t → T ∈ o.inside → Serves sha o (.validateTicket code)
      (.ok (.checked false "Ticket is already in use.".toList)) o
  | admitted {o code T t} : o.Good code T t → T ∉ o.inside → Serves sha o (.validateTicket code)
      (.ok (.checked true t.seat)) (o.letIn T)
  | uncheckable {o code ic} : (∀ T t, ¬o.Good code T t) → Serves sha o (.checkIntegrity code ic)
      (.ok (.checked false "Ticket not found. Please revise the validation code.".toList)) o
  | checked {o code ic T t} : o.Good code T t →
      Serves sha o (.checkIntegrity code ic) (checkReply sha t ic) o
  | unreadable {o data p x} : Ticket.deserialize data = .error x →
      Serves sha o (.sellTicket data p) (.error x) o
  | unsold {o data p t} : Ticket.deserialize data = .ok (true, t) →
      (∀ T t', ¬o.Good t.validationCode T t') → Serves sha o (.sellTicket data p)
        (.error (.invalidArgument "Ticket not found. Please revise the validation code.")) o
  | forged {o data p t T t'} : Ticket.deserialize data = .ok (true, t) →
      o.Good t.validationCode T t' → t'.serialize ≠ t.serialize → Serves sha o (.sellTicket data p)
        (.error (.invalidArgument "Ticket integrity compromised. Please revise the ticket.")) o
  | dear {o data p t T t'} : Ticket.deserialize data = .ok (true, t) →
      o.Good t.validationCode T t' → t'.serialize = t.serialize →
      (p.lt .zero || t.price.lt p) = true → Serves sha o (.sellTicket data p)
        (.error (.invalidArgument
          "Invalid price. Please provide a price greater than 0 and the current price.")) o
  | offered {o data p t t'} : Ticket.deserialize data = .ok (true, t) →
      o.Good t.validationCode t.ticketID t' → t'.serialize = t.serialize →
      (p.lt .zero || t.price.lt p) = false → o.offer t.ticketID ≠ none →
      Serves sha o (.sellTicket data p) (.error (.invalidArgument "Process Failed")) o
  | listed {o data p t t'} : Ticket.deserialize data = .ok (true, t) →
      o.Good t.validationCode t.ticketID t' → t'.serialize = t.serialize →
      (p.lt .zero || t.price.lt p) = false → o.offer t.ticketID = none →
      Serves sha o (.sellTicket data p) (.ok (.sold true)) (o.put (listing t p))

/-- The box office before the first sale. -/
def opening (info : Table TicketInfo ℤ TicketInfo.ticketID) : BoxOffice where
  offer T := info.find? T
  held _ := none
  inside := ∅

/-- The runs of the box office. -/
abbrev Run (sha : Text → Text) (info : Table TicketInfo ℤ TicketInfo.ticketID) :
    History → BoxOffice → Prop :=
  Specified (Serves sha) (opening info)

/-! ### The tables show the box office -/

/-- What the three tables say about the box office `o`. -/
structure Shows (sha : Text → Text) (o : BoxOffice) (db : TicketDB) : Prop where
  /-- `ticket` and `resell_tickets` keep the tickets that count -/
  store : StoreInv sha o.held db
  /-- `ticket_info` has the offers -/
  offer : ∀ T ti, o.offer T = some ti ↔ ti ∈ db.ticketInfo ∧ ti.ticketID = T
  /-- a row has the seat of its ticket, and is in use if the holder was admitted -/
  row : ∀ {T t}, o.held T = some t → ∀ r ∈ db.ticket, r.validationCode = sha t.validationCode →
    r.info = t.seat ∧ (r.used = true ↔ T ∈ o.inside)

section Shows

variable {o} {sha : Text → Text} {db : TicketDB} {T : ℤ} {t : Ticket} {code : Text}

theorem shows_opening (info : Table TicketInfo ℤ TicketInfo.ticketID) :
    (opening info).Shows sha ⟨info, .empty, .empty⟩ where
  store := .init info
  offer _ _ := Table.find?_eq_some
  row h := nomatch h

/-- A code that counts has its row, and the row of a code is that of a ticket that counts. -/
theorem Shows.row_of_good (h : o.Shows sha db) (hg : o.Good code T t) :
    ∃ r ∈ db.ticket, r.validationCode = sha code ∧ r.ticketHash = sha t.serialize ∧
      r.info = t.seat ∧ (r.used = true ↔ T ∈ o.inside) := by
  obtain ⟨r, hr, hrt⟩ := h.store.exists_row hg.held
  obtain ⟨hinfo, hused⟩ := h.row hg.held r hr hrt.code
  exact ⟨r, hr, hg.code ▸ hrt.code, hrt.hash, hinfo, hused⟩

theorem Shows.find_of_good (h : o.Shows sha db) (hg : o.Good code T t) :
    ∃ r, db.ticket.find? (sha code) = some r ∧ r.ticketHash = sha t.serialize ∧ r.info = t.seat ∧
      (r.used = true ↔ T ∈ o.inside) := by
  obtain ⟨r, hr, hc, hrest⟩ := h.row_of_good hg
  exact ⟨r, Table.find?_eq_some.2 ⟨hr, hc⟩, hrest⟩

theorem Shows.find_of_not_good (h : o.Shows sha db) (hsha : Function.Injective sha)
    (hg : ∀ T t, ¬o.Good code T t) : db.ticket.find? (sha code) = none := by
  refine Table.find?_eq_none.2 fun r hr hc => ?_
  obtain ⟨T, t, ht, hrt⟩ := h.store.row hr
  exact hg T t ⟨ht, hsha (hrt.code.symm.trans hc)⟩

theorem Shows.listed_iff (h : o.Shows sha db) : db.Listed T ↔ o.offer T ≠ none := by
  constructor
  · rintro ⟨ti, hti, hT⟩ hnone
    rw [(h.offer T ti).2 ⟨hti, hT⟩] at hnone
    cases hnone
  · intro hne
    obtain ⟨ti, hti⟩ := Option.ne_none_iff_exists'.1 hne
    obtain ⟨hmem, hT⟩ := (h.offer T ti).1 hti
    exact ⟨ti, hmem, hT⟩

/-- A buyer has as many rows as seats. -/
theorem Shows.owned_eq (h : o.Shows sha db) (hsha : Function.Injective sha) (u : ℤ) :
    TicketRepository.getNrOfTicketsOwned u db = o.owned u := by
  have hrows : TicketRepository.getNrOfTicketsOwned u db =
      {r | r ∈ db.ticket ∧ r.ownerId = u}.ncard := by
    simpa [TicketRepository.getNrOfTicketsOwned] using
      Table.length_select_eq_ncard db.ticket fun r => r.ownerId = u
  rw [hrows, owned]
  -- the row of a seat
  have hrow : ∀ T ∈ {T | ∃ t, o.held T = some t ∧ t.buyerID = u},
      ∃ r ∈ db.ticket, ∃ t, o.held T = some t ∧ t.buyerID = u ∧ RowOf sha t r := by
    rintro T ⟨t, ht, hu⟩
    obtain ⟨r, hr, hrt⟩ := h.store.exists_row ht
    exact ⟨r, hr, t, ht, hu, hrt⟩
  choose row hmem t ht hu hrt using hrow
  refine (Set.ncard_congr row ?_ ?_ ?_).symm
  · intro T hT
    exact ⟨hmem T hT, (hrt T hT).owner.trans (hu T hT)⟩
  · intro T T' hT hT' heq
    have hcode : (t T hT).validationCode = (t T' hT').validationCode :=
      hsha ((hrt T hT).code.symm.trans (heq ▸ (hrt T' hT').code))
    exact h.store.code (ht T hT) (ht T' hT') hcode
  · rintro r ⟨hr, hru⟩
    obtain ⟨T, t', ht', hrt'⟩ := h.store.row hr
    have hT : T ∈ {T | ∃ t, o.held T = some t ∧ t.buyerID = u} := ⟨t', ht', hrt'.owner.symm.trans hru⟩
    refine ⟨T, hT, Table.eq_of_key (hmem T hT) hr ?_⟩
    obtain rfl : t T hT = t' := Option.some.inj ((ht T hT).symm.trans ht')
    exact (hrt T hT).code.trans hrt'.code.symm

/-! ### What a call leaves behind -/

/-- The tables after a purchase. -/
theorem Shows.buy (h : o.Shows sha db) (hsha : Function.Injective sha) {u : ℤ} {env : Env}
    {ti : TicketInfo} (hti : ti ∈ db.ticketInfo) (hT : ti.ticketID = T) {tk}
    (hi : db.ticket.insert (Buy.row sha u (issued ti u env)) = some tk) :
    (o.sell (issued ti u env)).Shows sha (Buy.retired (fun _ => false) T (Buy.sold db T tk)) where
  store := h.store.buy hsha ⟨ti, hti, hT⟩ hT hi
  offer T' ti' := by
    have hnum : (issued ti u env).ticketID = T := hT
    rw [Buy.retired_ticketInfo, Buy.mem_sold]
    by_cases hT' : T = T'
    · rw [sell_offer_of_eq (hnum.trans hT')]
      exact iff_of_false nofun fun h => h.1.2 (h.2.trans hT'.symm)
    · rw [sell_offer_of_ne (hnum.trans_ne hT'), h.offer]
      exact ⟨fun h => ⟨⟨h.1, fun hc => hT' (hc.symm.trans h.2)⟩, h.2⟩, fun h => ⟨h.1.1, h.2⟩⟩
  row {T' t'} ht' r hr hc := by
    have hnum : (issued ti u env).ticketID = T := hT
    have hfresh := Table.insert_fresh hi
    rw [mem_sell_inside, hnum]
    by_cases hT' : T = T'
    · -- the code of the ticket sold is new
      obtain rfl : issued ti u env = t' :=
        Option.some.inj ((sell_held_of_eq (hnum.trans hT')).symm.trans ht')
      rcases (Table.mem_insert hi).1 (Buy.of_mem_retired hr) with hr | rfl
      · exact absurd hc (hfresh r hr)
      · exact ⟨rfl, iff_of_false Bool.false_ne_true fun h => h.2 hT'.symm⟩
    · rw [sell_held_of_ne (hnum.trans_ne hT')] at ht'
      rcases (Table.mem_insert hi).1 (Buy.of_mem_retired hr) with hr | rfl
      · have hrow := h.row ht' r hr hc
        exact ⟨hrow.1, hrow.2.trans (and_iff_left (Ne.symm hT')).symm⟩
      · obtain ⟨r', hr', hrt'⟩ := h.store.exists_row ht'
        exact absurd (hrt'.code.trans hc.symm) (hfresh r' hr')

/-- The tables after a listing. -/
theorem Shows.list (h : o.Shows sha db) (ht : o.held T = some t) {ti : TicketInfo}
    (hti : ti.ticketID = T) {tk tk'} (hi : db.ticketInfo.insert ti = some tk)
    (hi' : db.resellTickets.insert ⟨sha t.validationCode, T⟩ = some tk') :
    (o.put ti).Shows sha { db with ticketInfo := tk, resellTickets := tk' } where
  store := h.store.list ht hti hi hi'
  offer T' ti' := by
    show _ ↔ ti' ∈ tk ∧ ti'.ticketID = T'
    rw [Table.mem_insert hi]
    by_cases hT' : T = T'
    · rw [put_offer_of_eq (hti.trans hT')]
      constructor
      · intro heq
        cases heq
        exact ⟨.inr rfl, hti.trans hT'⟩
      · rintro ⟨hmem | rfl, hnum⟩
        · exact absurd (hnum.trans (hti.trans hT').symm) (Table.insert_fresh hi ti' hmem)
        · rfl
    · rw [put_offer_of_ne (hti.trans_ne hT'), h.offer]
      refine and_congr_left fun hnum => ⟨.inl, ?_⟩
      rintro (hmem | rfl)
      · exact hmem
      · exact absurd (hti.symm.trans hnum) hT'
  row ht' := h.row ht'

/-- The tables after an admission. -/
theorem Shows.letIn (h : o.Shows sha db) (hsha : Function.Injective sha) (hg : o.Good code T t) :
    (o.letIn T).Shows sha (TicketRepository.setTicketInUse (sha code) db) where
  store := h.store.setTicketInUse _
  offer := h.offer
  row {T' t'} ht' r hr hc := by
    obtain ⟨r₀, hr₀, rfl⟩ := TicketRepository.mem_setTicketInUse.1 hr
    have hc₀ : r₀.validationCode = sha t'.validationCode := by
      rw [← hc]
      split <;> rfl
    have hrow := h.row ht' r₀ hr₀ hc₀
    split
    · next heq =>
      have hcode : t'.validationCode = t.validationCode :=
        hsha (hc₀.symm.trans (heq.trans (congrArg sha hg.code.symm)))
      obtain rfl : T' = T := h.store.code ht' hg.held hcode
      exact ⟨hrow.1, iff_of_true rfl (.inl rfl)⟩
    · next hne =>
      have hT' : T' ≠ T := by
        rintro rfl
        cases ht'.symm.trans hg.held
        exact hne (hc₀.trans (congrArg sha hg.code))
      exact ⟨hrow.1, hrow.2.trans (or_iff_right hT').symm⟩

/-! ### One call -/

/-- The call is served as the box office may serve it, and the tables show it afterwards. -/
def Served (sha : Text → Text) (o : BoxOffice) (db : TicketDB) (c : Call) : Prop :=
  ∃ o', Serves sha o c (serve sha c db).1 o' ∧ o'.Shows sha (serve sha c db).2

theorem Shows.served_tickets (h : o.Shows sha db) (e : ℤ) :
    Served sha o db (.getAllAvailableTicketsByEventId e) := by
  refine ⟨o, .tickets ((List.Nodup.of_map _ db.ticketInfo.nodup).filter _) fun ti => ?_, h⟩
  rw [h.offer]
  simp [exec, TicketRepository.getAllTicketsFromEventId, Table.select, Table.mem_def]

theorem serve_buy_full {e u : ℤ} {env : Env} (h : 6 ≤ TicketRepository.getNrOfTicketsOwned u db) :
    serve sha (.buyTicket T e u env) db =
      (.error (.invalidArgument "You already own 6 tickets. You cannot buy more."), db) := by
  rw [serve, Call.prog, Prog.run_map, Buy.buyTicket_eq, Buy.count, Prog.run_call]
  simp [exec, h, Except.map]

theorem serve_buy_missing {e u : ℤ} {env : Env} (h : TicketRepository.getNrOfTicketsOwned u db < 6)
    (hno : ∀ ti ∈ db.ticketInfo, ti.ticketID = T → ti.eventID ≠ e) :
    serve sha (.buyTicket T e u env) db =
      (.error (.invalidArgument "Ticket not found. Please revise available tickets."), db) := by
  rw [serve, Call.prog, Prog.run_map, Buy.buyTicket_eq, ← faulty_never, Buy.run_count fun _ => h,
    Buy.find, Prog.run_call]
  cases hti : TicketRepository.getTicketInfoById T db with
  | none => simp [faulty_never, exec, hti, Except.map]
  | some ti =>
    obtain ⟨hmem, hT⟩ := Table.find?_eq_some.1 hti
    simp [faulty_never, exec, hti, hno ti hmem hT, Except.map]

theorem Shows.served_buy (h : o.Shows sha db) (hsha : Function.Injective sha) {e u : ℤ} {env : Env}
    (hnew : ∀ T t, o.held T = some t →
      t.validationCode ≠ Ticket.generateValidationCode 10 env.dist) :
    Served sha o db (.buyTicket T e u env) := by
  have howned := h.owned_eq hsha u
  by_cases hfull : 6 ≤ o.owned u
  · rw [Served, serve_buy_full (howned ▸ hfull)]
    exact ⟨o, .full hfull, h⟩
  rw [not_le] at hfull
  by_cases hti : ∃ ti, o.offer T = some ti ∧ ti.eventID = e
  · obtain ⟨ti, hti, he⟩ := hti
    obtain ⟨hmem, hT⟩ := (h.offer T ti).1 hti
    have hr : Buy.Reaches (fun _ => false) db T e u ti :=
      ⟨fun _ => howned ▸ hfull, rfl, Table.find?_eq_some.2 ⟨hmem, hT⟩, he, rfl⟩
    obtain ⟨tk, hi, hs⟩ := h.store.serve_buy hsha hnew hr
    rw [Served, hs]
    exact ⟨_, .bought hfull hti he, h.buy hsha hmem hT hi⟩
  · have hno : ∀ ti, o.offer T = some ti → ti.eventID ≠ e := fun ti ho he => hti ⟨ti, ho, he⟩
    rw [Served, serve_buy_missing (howned ▸ hfull) fun ti hmem hT => hno ti ((h.offer T ti).2 ⟨hmem, hT⟩)]
    exact ⟨o, .missing hfull hno, h⟩

theorem Shows.served_validate (h : o.Shows sha db) (hsha : Function.Injective sha) (code : Text) :
    Served sha o db (.validateTicket code) := by
  rw [Served, serve, Call.prog, Prog.run_map, Validate.validateTicket_eq, Validate.look,
    Prog.run_call]
  by_cases hg : ∃ T t, o.Good code T t
  · obtain ⟨T, t, hg⟩ := hg
    obtain ⟨r, hfind, -, hinfo, hused⟩ := h.find_of_good hg
    cases hu : r.used with
    | true =>
      rw [hu] at hused
      simp only [exec, TicketRepository.existsTicketWithValidationCode, hfind, Option.map_some, hu,
        if_true, Prog.run_ret]
      exact ⟨o, .again hg (hused.1 rfl), h⟩
    | false =>
      rw [hu] at hused
      simp only [exec, TicketRepository.existsTicketWithValidationCode, hfind, Option.map_some, hu,
        Bool.false_eq_true, if_false, hinfo, Validate.mark, Prog.run_call, Prog.run_ret]
      exact ⟨_, .admitted hg fun hin => Bool.false_ne_true (hused.2 hin), h.letIn hsha hg⟩
  · have hno : ∀ T t, ¬o.Good code T t := fun T t hgood => hg ⟨T, t, hgood⟩
    simp only [exec, TicketRepository.existsTicketWithValidationCode, h.find_of_not_good hsha hno,
      Option.map_none, Prog.run_ret]
    exact ⟨o, .unknown hno, h⟩

theorem Shows.served_check (h : o.Shows sha db) (hsha : Function.Injective sha) (code ic : Text) :
    Served sha o db (.checkIntegrity code ic) := by
  rw [Served, serve, Call.prog, Prog.run_map, TicketService.checkIntegrity]
  simp only [Prog.call_bind, Prog.ret_bind, Prog.run_call, exec,
    TicketRepository.getTicketHashByValidationCode]
  by_cases hg : ∃ T t, o.Good code T t
  · obtain ⟨T, t, hg⟩ := hg
    obtain ⟨r, hfind, hhash, -⟩ := h.find_of_good hg
    have hserves : Serves sha o (.checkIntegrity code ic) (checkReply sha t ic) o := .checked hg
    unfold checkReply at hserves
    simp only [hfind, Option.map_some, hhash]
    cases hcode : TicketService.integrityCode (sha t.serialize) with
    | error x =>
      rw [hcode] at hserves
      exact ⟨o, hserves, h⟩
    | ok real =>
      rw [hcode] at hserves
      simp only [Prog.ofExcept_ok, Prog.ret_bind]
      split
      · next heq =>
        simp only [Except.map, heq, if_true] at hserves
        exact ⟨o, hserves, h⟩
      · next hne =>
        simp only [Except.map, hne, if_false] at hserves
        exact ⟨o, hserves, h⟩
  · have hno : ∀ T t, ¬o.Good code T t := fun T t hgood => hg ⟨T, t, hgood⟩
    simp only [h.find_of_not_good hsha hno, Option.map_none, Prog.run_ret, Prog.pure_eq]
    exact ⟨o, .uncheckable hno, h⟩

/-- What the service makes of a ticket that can be read. -/
theorem serve_sell_eq {data : Text} {p : Double} (hd : Ticket.deserialize data = .ok (true, t)) :
    serve sha (.sellTicket data p) db =
      (((Sell.check sha t p).run exec db).1.map Reply.sold, ((Sell.check sha t p).run exec db).2) := by
  rw [serve, Call.prog, Prog.run_map, Sell.sellTicket_eq, hd]
  rfl

theorem serve_sell_unreadable {data : Text} {p : Double} {x : Exn}
    (hd : Ticket.deserialize data = .error x) : serve sha (.sellTicket data p) db = (.error x, db) := by
  rw [serve, Call.prog, Prog.run_map, Sell.sellTicket_eq, hd]
  rfl

/-- A ticket that can be read and whose code counts. -/
theorem Shows.served_sell_good (h : o.Shows sha db) (hsha : Function.Injective sha) {data : Text}
    {p : Double} {t' : Ticket} (hd : Ticket.deserialize data = .ok (true, t))
    (hg : o.Good t.validationCode T t') : Served sha o db (.sellTicket data p) := by
  obtain ⟨r, hr, hc, hhash, -⟩ := h.row_of_good hg
  by_cases hser : t'.serialize = t.serialize
  · have hT : T = t.ticketID :=
      (h.store.number hg.held).symm.trans (Ticket.ticketID_of_serialize hser)
    subst hT
    have hcheck : (Sell.check sha t p).run exec db = _ :=
      Sell.run_of_row hr hc (hhash.trans (congrArg sha hser))
    by_cases hprice : (p.lt .zero || t.price.lt p) = true
    · rw [if_pos hprice] at hcheck
      rw [Served, serve_sell_eq hd, hcheck]
      exact ⟨o, .dear hd hg hser hprice, h⟩
    · rw [if_neg hprice] at hcheck
      rw [Bool.not_eq_true] at hprice
      by_cases hl : o.offer t.ticketID = none
      · have hnl : ¬db.Listed t.ticketID := fun hlist => h.listed_iff.1 hlist hl
        obtain ⟨tk, hi⟩ : ∃ tk, db.ticketInfo.insert (listing t p) = some tk :=
          Table.exists_insert fun x hx hxT => hnl ⟨x, hx, hxT⟩
        obtain ⟨tk', hi'⟩ := h.store.exists_record hsha hg.held hnl
        have hrun : (Sell.list sha t p).run (faulty fun _ => false) db = _ := Sell.run_list rfl hi
        have hrec : (Sell.record sha t).run (faulty fun _ => false) { db with ticketInfo := tk } =
            (.ok true, ⟨tk, db.ticket, tk'⟩) := Sell.run_record rfl (hg.code ▸ hi')
        rw [hrec, faulty_never] at hrun
        rw [Served, serve_sell_eq hd, hcheck, hrun]
        exact ⟨_, .listed hd hg hser hprice hl, h.list hg.held rfl hi hi'⟩
      · have hrefused : (Sell.list sha t p).run exec db =
            (.error (.invalidArgument "Process Failed"), db) := by
          obtain ⟨x, hx, hxT⟩ := h.listed_iff.2 hl
          have hnone : db.ticketInfo.insert (listing t p) = none := Table.insert_eq_none.2 ⟨x, hx, hxT⟩
          rw [Sell.list, Prog.run_call]
          simp [exec, TicketRepository.addTicketInfo, hnone]
        rw [Served, serve_sell_eq hd, hcheck, hrefused]
        exact ⟨o, .offered hd hg hser hprice hl, h⟩
  · have hfind : db.ticket.find? (sha t.validationCode) = some r := Table.find?_eq_some.2 ⟨hr, hc⟩
    have hne : r.ticketHash ≠ sha t.serialize := fun heq => hser (hsha (hhash.symm.trans heq))
    have hcheck : (Sell.check sha t p).run exec db = (.error (.invalidArgument
        "Ticket integrity compromised. Please revise the ticket."), db) := by
      rw [Sell.check, Prog.run_call]
      simp [exec, TicketRepository.getTicketHashByValidationCode, hfind, hne]
    rw [Served, serve_sell_eq hd, hcheck]
    exact ⟨o, .forged hd hg hser, h⟩

theorem Shows.served_sell (h : o.Shows sha db) (hsha : Function.Injective sha) (data : Text)
    (p : Double) : Served sha o db (.sellTicket data p) := by
  cases hd : Ticket.deserialize data with
  | error x =>
    rw [Served, serve_sell_unreadable hd]
    exact ⟨o, .unreadable hd, h⟩
  | ok wt =>
    obtain ⟨_ | _, t⟩ := wt
    · exact absurd hd Ticket.deserialize_ne_false
    by_cases hg : ∃ T t', o.Good t.validationCode T t'
    · obtain ⟨T, t', hg⟩ := hg
      exact h.served_sell_good hsha hd hg
    · have hno : ∀ T t', ¬o.Good t.validationCode T t' := fun T t' hgood => hg ⟨T, t', hgood⟩
      have hcheck : (Sell.check sha t p).run exec db = (.error (.invalidArgument
          "Ticket not found. Please revise the validation code."), db) := by
        rw [Sell.check, Prog.run_call]
        simp [exec, TicketRepository.getTicketHashByValidationCode, h.find_of_not_good hsha hno]
      rw [Served, serve_sell_eq hd, hcheck]
      exact ⟨o, .unsold hd hno, h⟩

/-- **The simulation step**: every call that draws no code in use is served as specified. -/
theorem Shows.served (h : o.Shows sha db) (hsha : Function.Injective sha) (c : Call)
    (hnew : ∀ T t, o.held T = some t → c.code? ≠ some t.validationCode) : Served sha o db c := by
  cases c with
  | getAllAvailableTicketsByEventId e => exact h.served_tickets e
  | buyTicket T e u env =>
    exact h.served_buy hsha fun T' t ht heq => hnew T' t ht (congrArg some heq.symm)
  | validateTicket code => exact h.served_validate hsha code
  | checkIntegrity code ic => exact h.served_check hsha code ic
  | sellTicket data p => exact h.served_sell hsha data p

end Shows

/-- The tickets that count after a call are those of the book. -/
theorem Serves.held_eq {sha : Text → Text} {o o' : BoxOffice} {c : Call} {r : Except Exn Reply}
    (h : Serves sha o c r o') : o'.held = o.held.after r := by
  cases h with
  | checked => unfold checkReply; cases TicketService.integrityCode _ with
    | error => rfl
    | ok real => simp only [Except.map]; split <;> rfl
  | _ => rfl

end BoxOffice

/-! ### Every run -/

section

variable {sha : Text → Text} {info : Table TicketInfo ℤ TicketInfo.ticketID} {h : History}
  {db : TicketDB}

/-- **The ticket service refines the box office**: every serial run that draws new codes is a run of the
box office, with the same answers, and the tables show where it has got to. -/
theorem boxOffice_of_serial (hsha : Function.Injective sha)
    (run : Serial (serve sha) NewCode ⟨info, .empty, .empty⟩ h db) :
    ∃ o, BoxOffice.Run sha info h o ∧ o.held = latest h ∧ o.Shows sha db := by
  refine run.refines (R := fun h db (o : BoxOffice) => o.held = latest h ∧ o.Shows sha db)
    ⟨rfl, BoxOffice.shows_opening info⟩ ?_
  rintro h db o c ⟨hheld, hshows⟩ hc
  obtain ⟨o', hserves, hshows'⟩ := hshows.served hsha c fun T t ht => hc.book (hheld ▸ ht)
  refine ⟨o', hserves, ?_, hshows'⟩
  rw [hserves.held_eq, hheld, latest_snoc]

theorem boxOffice_of_resale : ∃ o : BoxOffice, BoxOffice.Run sha256 twoSeats (after resale).1 o ∧
    o.held = latest (after resale).1 ∧ o.Shows sha256 (after resale).2 :=
  boxOffice_of_serial sha256_injective (serial_after (by decide +kernel))

/-- The invariant rule of the box office: what every call that draws a new code keeps. -/
theorem boxOffice_inv (hsha : Function.Injective sha)
    (run : Serial (serve sha) NewCode ⟨info, .empty, .empty⟩ h db) {I : History → BoxOffice → Prop}
    (h₀ : I [] (.opening info))
    (hI : ∀ h db o c r o', I h o → RunInv sha info h db → o.held = latest h → NewCode h db c →
      BoxOffice.Serves sha o c r o' → I (h ++ [(c, r)]) o') :
    ∃ o : BoxOffice, o.held = latest h ∧ o.Shows sha db ∧ I h o := by
  have hrun : ∃ o, BoxOffice.Run sha info h o ∧
      RunInv sha info h db ∧ o.held = latest h ∧ o.Shows sha db ∧ I h o := by
    refine run.refines (R := fun h db (o : BoxOffice) => RunInv sha info h db ∧ o.held = latest h ∧
      o.Shows sha db ∧ I h o) ⟨.of_serial hsha .nil, rfl, BoxOffice.shows_opening info, h₀⟩ ?_
    rintro h db o c ⟨hrun, hheld, hshows, hinv⟩ hc
    obtain ⟨o', hserves, hshows'⟩ := hshows.served hsha c fun T t ht => hc.book (hheld ▸ ht)
    refine ⟨o', hserves, hrun.step hsha hc, ?_, hshows', hI h db o c _ o' hinv hrun hheld hc hserves⟩
    rw [hserves.held_eq, hheld, latest_snoc]
  obtain ⟨o, -, -, hheld, hshows, hinv⟩ := hrun
  exact ⟨o, hheld, hshows, hinv⟩

end

end TicketIST
