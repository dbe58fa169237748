import TicketIST.Runs

/-!
# Everything a call can do

`Done` is the inversion of a call to the service, from any store and whichever of its statements fail:
nothing changes, or a purchase goes through or loses the seat, or a resale goes through or stays
without its record, or a ticket is admitted.  From it follow where the rows and the offers of a store
come from (`Done.rows`, `Done.offers`), and that the tables keep a book also when a purchase draws a
code that is in use and fails (`Keeps.of_serial`).
-/

namespace TicketIST

open TicketIST.Lib TicketOp

variable {sha : Text → Text} {fails : TicketOp → Bool} {db db' : TicketDB}

/-! ### One call -/

/-- The call `c` answered `r` and left `db'`. -/
inductive Done (sha : Text → Text) (fails : TicketOp → Bool) (db : TicketDB) :
    Call → Except Exn Reply → TicketDB → Prop
  | same {c r} (ht : ∀ t, r ≠ .ok (.ticket t)) (hs : ∀ ok, r ≠ .ok (.sold ok)) :
      Done sha fails db c r db
  | lost {T e u env ti x} (hr : Buy.Reaches fails db T e u ti) :
      Done sha fails db (.buyTicket T e u env) (.error x)
        (TicketRepository.makeTicketUnavailable T db).2
  | bought {T e u env ti tk} (hr : Buy.Reaches fails db T e u ti)
      (hi : db.ticket.insert (Buy.row sha u (issued ti u env)) = some tk) :
      Done sha fails db (.buyTicket T e u env) (.ok (.ticket (issued ti u env)))
        (Buy.retired fails T (Buy.sold db T tk))
  | unrecorded {data newPrice t tk x} (hd : Ticket.deserialize data = .ok (true, t))
      (hr : Sell.Reaches sha fails db t newPrice)
      (hi : db.ticketInfo.insert (listing t newPrice) = some tk)
      (hrec : fails (addTicketToResell (sha t.validationCode) t.ticketID) = true ∨
        ∃ x ∈ db.resellTickets, x.hashValCode = sha t.validationCode) :
      Done sha fails db (.sellTicket data newPrice) (.error x) { db with ticketInfo := tk }
  | listed {data newPrice t tk tk'} (hd : Ticket.deserialize data = .ok (true, t))
      (hr : Sell.Reaches sha fails db t newPrice)
      (hi : db.ticketInfo.insert (listing t newPrice) = some tk)
      (hi' : db.resellTickets.insert ⟨sha t.validationCode, t.ticketID⟩ = some tk') :
      Done sha fails db (.sellTicket data newPrice) (.ok (.sold true))
        { db with ticketInfo := tk, resellTickets := tk' }
  | admitted {code row} (hr : row ∈ db.ticket) (hc : row.validationCode = sha code)
      (hu : row.used = false) :
      Done sha fails db (.validateTicket code) (.ok (.checked true row.info))
        (faulty fails (setTicketInUse (sha code)) db).2

theorem Done.refused {c : Call} (x : Exn) : Done sha fails db c (.error x) db :=
  .same (fun _ h => by cases h) fun _ h => by cases h

theorem done_buy (T e u : ℤ) (env : Env) : Done sha fails db (.buyTicket T e u env)
    (((Call.buyTicket T e u env).prog sha).run (faulty fails) db).1
    (((Call.buyTicket T e u env).prog sha).run (faulty fails) db).2 := by
  rw [Call.prog, Prog.run_map]
  by_cases hr : ∃ ti, Buy.Reaches fails db T e u ti
  · obtain ⟨ti, hr⟩ := hr
    by_cases hins : fails (addNewTicket (sha (issued ti u env).validationCode)
        (sha (issued ti u env).serialize) (issued ti u env).seat u) = true ∨
        ∃ r ∈ db.ticket, r.validationCode = sha (issued ti u env).validationCode
    · have hins' : fails (addNewTicket (sha (issued ti u env).validationCode)
          (sha (issued ti u env).serialize) (issued ti u env).seat u) = true ∨
          ∃ r ∈ (TicketRepository.makeTicketUnavailable T db).2.ticket,
            r.validationCode = sha (issued ti u env).validationCode := hins
      obtain ⟨x, hx⟩ := Buy.run_insert_refused hins'
      rw [Buy.run_of_reaches hr, hx]
      exact .lost hr
    · rw [not_or, Bool.not_eq_true] at hins
      obtain ⟨tk, hi⟩ : ∃ tk, db.ticket.insert (Buy.row sha u (issued ti u env)) = some tk :=
        Table.exists_insert fun r hr' hc => hins.2 ⟨r, hr', hc⟩
      rw [Buy.run_sold hr hins.1 hi]
      exact .bought hr hi
  · rw [not_exists] at hr
    obtain ⟨x, hx⟩ : ∃ x, (TicketService.buyTicket sha T e u env).run (faulty fails) db =
        (.error x, db) := Buy.run_of_not_reaches hr
    rw [hx]
    exact .refused x

theorem done_sell (data : Text) (newPrice : Double) : Done sha fails db (.sellTicket data newPrice)
    (((Call.sellTicket data newPrice).prog sha).run (faulty fails) db).1
    (((Call.sellTicket data newPrice).prog sha).run (faulty fails) db).2 := by
  rw [Call.prog, Prog.run_map, Sell.sellTicket_eq]
  cases hd : Ticket.deserialize data with
  | error x => exact .refused x
  | ok wt =>
    obtain ⟨_ | _, t⟩ := wt
    · exact .refused _
    simp only [Bool.not_true, Bool.false_eq_true, if_false]
    by_cases hr : Sell.Reaches sha fails db t newPrice
    · rw [Sell.run_of_reaches hr]
      by_cases hlist : fails (addTicketInfo (listing t newPrice)) = true ∨
          ∃ ti ∈ db.ticketInfo, ti.ticketID = t.ticketID
      · obtain ⟨x, hx⟩ : ∃ x, (Sell.list sha t newPrice).run (faulty fails) db = (.error x, db) :=
          Sell.run_list_refused hlist
        rw [hx]
        exact .refused x
      · rw [not_or, Bool.not_eq_true] at hlist
        obtain ⟨tk, hi⟩ : ∃ tk, db.ticketInfo.insert (listing t newPrice) = some tk :=
          Table.exists_insert fun x hx hT => hlist.2 ⟨x, hx, hT⟩
        rw [Sell.run_list hlist.1 hi]
        by_cases hrec : fails (addTicketToResell (sha t.validationCode) t.ticketID) = true ∨
            ∃ x ∈ db.resellTickets, x.hashValCode = sha t.validationCode
        · obtain ⟨x, hx⟩ : ∃ x, (Sell.record sha t).run (faulty fails)
              { db with ticketInfo := tk } = (.error x, { db with ticketInfo := tk }) :=
            Sell.run_record_refused hrec
          rw [hx]
          exact .unrecorded hd hr hi hrec
        · rw [not_or, Bool.not_eq_true] at hrec
          obtain ⟨tk', hi'⟩ : ∃ tk', db.resellTickets.insert
              { hashValCode := sha t.validationCode, ticketId := t.ticketID } = some tk' :=
            Table.exists_insert fun x hx hc => hrec.2 ⟨x, hx, hc⟩
          have hrun : (Sell.record sha t).run (faulty fails) { db with ticketInfo := tk } =
              (.ok true, { db with ticketInfo := tk, resellTickets := tk' }) :=
            Sell.run_record hrec.1 hi'
          rw [hrun]
          exact .listed hd hr hi hi'
    · obtain ⟨x, hx⟩ := Sell.run_of_not_reaches hr
      rw [hx]
      exact .refused x

theorem done_validate (code : Text) : Done sha fails db (.validateTicket code)
    (((Call.validateTicket code).prog sha).run (faulty fails) db).1
    (((Call.validateTicket code).prog sha).run (faulty fails) db).2 := by
  rw [Call.prog, Prog.run_map]
  rcases Validate.run_cases sha fails code db with ⟨-, r, hr, hc, hu, hx⟩ | ⟨info, hx⟩
  · rw [hx]
    exact .admitted hr hc hu
  · rw [hx]
    exact .same (fun _ h => by cases h) fun _ h => by cases h

/-- **Everything a call can do**, from any store and whichever statements fail. -/
theorem done_of_run (c : Call) : Done sha fails db c ((c.prog sha).run (faulty fails) db).1
    ((c.prog sha).run (faulty fails) db).2 := by
  cases c with
  | buyTicket T e u env => exact done_buy T e u env
  | sellTicket data newPrice => exact done_sell data newPrice
  | validateTicket code => exact done_validate code
  | checkIntegrity code ic =>
    obtain ⟨o, ho⟩ : ∃ o, (TicketService.checkIntegrity sha code ic).run (faulty fails) db =
        (o, db) := checkIntegrity_run sha code ic db
    rw [Call.prog, Prog.run_map, ho]
    exact .same (fun _ h => by cases o <;> cases h) fun _ h => by cases o <;> cases h
  | getAllAvailableTicketsByEventId e =>
    have hdb : (faulty fails (getAllTicketsFromEventId e) db).2 = db := by
      rw [faulty_snd]
      split <;> rfl
    simp only [Call.prog, TicketService.getAllAvailableTicketsByEventId, Prog.map_call, Prog.map_ret,
      Prog.run_call, Prog.run_ret, hdb]
    exact .same (fun _ h => by cases h) fun _ h => by cases h

theorem done_of_serve (c : Call) :
    Done sha (fun _ => false) db c (serve sha c db).1 (serve sha c db).2 := by
  rw [serve_eq]
  exact done_of_run c

/-! ### Where rows and offers come from -/

section

variable {c : Call} {r : Except Exn Reply}

/-- Every offer after a call was there before, or resells a ticket that passed the checks. -/
theorem Done.offers (h : Done sha fails db c r db') {ti : TicketInfo} (hti : ti ∈ db'.ticketInfo) :
    ti ∈ db.ticketInfo ∨ ∃ data newPrice t, c = .sellTicket data newPrice ∧
      Ticket.deserialize data = .ok (true, t) ∧ Sell.Reaches sha fails db t newPrice ∧
      ti = listing t newPrice := by
  cases h with
  | same => exact .inl hti
  | lost hr => exact .inl (Table.mem_delete.1 hti).1
  | bought hr hi =>
    rw [Buy.retired_ticketInfo, Buy.mem_sold] at hti
    exact .inl hti.1
  | unrecorded hd hr hi hrec =>
    rcases (Table.mem_insert hi).1 hti with hti | rfl
    · exact .inl hti
    · exact .inr ⟨_, _, _, rfl, hd, hr, rfl⟩
  | listed hd hr hi hi' =>
    rcases (Table.mem_insert hi).1 hti with hti | rfl
    · exact .inl hti
    · exact .inr ⟨_, _, _, rfl, hd, hr, rfl⟩
  | @admitted code row hr hc hu =>
    rw [faulty_snd] at hti
    split at hti
    · exact .inl hti
    · exact .inl hti

/-- Every row after a call was there before, or is the row of the ticket that was returned. -/
theorem Done.rows (h : Done sha fails db c r db') {row : TicketRow} (hrow : row ∈ db'.ticket) :
    (∃ row₀ ∈ db.ticket, ∀ t, RowOf sha t row₀ → RowOf sha t row) ∨
      ∃ t, r = .ok (.ticket t) ∧ RowOf sha t row := by
  cases h with
  | same => exact .inl ⟨row, hrow, fun _ h => h⟩
  | lost hr => exact .inl ⟨row, hrow, fun _ h => h⟩
  | bought hr hi =>
    rcases (Table.mem_insert hi).1 (Buy.of_mem_retired hrow) with hrow | rfl
    · exact .inl ⟨row, hrow, fun _ h => h⟩
    · exact .inr ⟨_, rfl, rfl, rfl, rfl⟩
  | unrecorded hd hr hi hrec => exact .inl ⟨row, hrow, fun _ h => h⟩
  | listed hd hr hi hi' => exact .inl ⟨row, hrow, fun _ h => h⟩
  | admitted hr hc hu =>
    rw [faulty_snd] at hrow
    split at hrow
    · exact .inl ⟨row, hrow, fun _ h => h⟩
    · obtain ⟨row₀, hrow₀, rfl⟩ := TicketRepository.mem_setTicketInUse.1 hrow
      refine .inl ⟨row₀, hrow₀, ?_⟩
      intro t ht
      split
      · exact ⟨ht.code, ht.hash, ht.owner⟩
      · exact ht

/-- A ticket that is returned is issued for an offer. -/
theorem Done.ticket {t : Ticket} (h : Done sha fails db c (.ok (.ticket t)) db') :
    ∃ T e u env ti, c = .buyTicket T e u env ∧ ti ∈ db.ticketInfo ∧ ti.ticketID = T ∧
      t = issued ti u env := by
  cases h with
  | same ht hs => exact absurd rfl (ht t)
  | bought hr hi => exact ⟨_, _, _, _, _, rfl, hr.listed.1, hr.listed.2, rfl⟩

/-- A resale that succeeds puts the ticket that it parsed on offer. -/
theorem Done.sold {ok : Bool} (h : Done sha fails db c (.ok (.sold ok)) db') :
    ∃ data newPrice t, c = .sellTicket data newPrice ∧ Ticket.deserialize data = .ok (true, t) ∧
      Sell.Reaches sha fails db t newPrice ∧
      db.ticketInfo.insert (listing t newPrice) = some db'.ticketInfo ∧ db'.ticket = db.ticket := by
  cases h with
  | same ht hs => exact absurd rfl (hs ok)
  | listed hd hr hi hi' => exact ⟨_, _, _, rfl, hd, hr, hi, rfl⟩

end

/-! ### The book, without new codes -/

section

variable {b : Book} {c : Call} {r : Except Exn Reply}

/-- The simulation step: what is kept when a purchase may draw a code that is in use. -/
theorem Keeps.step (hK : Keeps sha b db) (hsha : Function.Injective sha)
    (h : Done sha (fun _ => false) db c r db') : Keeps sha (b.after r) db' := by
  cases h with
  | same ht hs => rwa [Book.after_of_ne ht]
  | lost hr =>
    refine ⟨hK.number, hK.row, hK.exists_row, hK.link, ?_⟩
    rintro T' t' ht' ⟨ti, hti, hT'⟩
    exact hK.linked ht' ⟨ti, (Table.mem_delete.1 hti).1, hT'⟩
  | bought hr hi => exact hK.buy hsha ⟨_, hr.listed⟩ hr.listed.2 hi
  | unrecorded hd hr hi hrec =>
    obtain ⟨t₀, ht₀, hc, -⟩ := hK.of_reaches hsha hr
    obtain ⟨x, hx, hxc⟩ := hrec.resolve_left Bool.false_ne_true
    have hxt := hK.record_exists hsha ht₀ hx (hxc.trans (congrArg sha hc.symm))
    refine hK.list ht₀ rfl hi (fun _ => .inl) ?_
    rintro y (hy | rfl)
    · exact hy
    · exact hxt ▸ hx
  | listed hd hr hi hi' =>
    obtain ⟨t₀, ht₀, hc, -⟩ := hK.of_reaches hsha hr
    rw [← hc] at hi'
    exact hK.list ht₀ rfl hi (fun x => (Table.mem_insert hi').1) fun x => (Table.mem_insert hi').2
  | admitted hr hc hu => exact hK.setTicketInUse _

/-- **The tables keep the book along every serial run**, whatever codes are drawn. -/
theorem Keeps.of_serial {allowed : History → TicketDB → Call → Prop}
    {info : Table TicketInfo ℤ TicketInfo.ticketID} {h : History} (hsha : Function.Injective sha)
    (run : Serial (serve sha) allowed ⟨info, .empty, .empty⟩ h db) : Keeps sha (latest h) db := by
  refine run.inv (I := fun h db => Keeps sha (latest h) db) (StoreInv.init info).keeps ?_
  intro h db c hK _
  rw [latest_snoc]
  exact hK.step hsha (done_of_serve c)

end

/-! ### Offers and tickets along a run -/

section

variable {info : Table TicketInfo ℤ TicketInfo.ticketID} {h : History}
  {allowed : History → TicketDB → Call → Prop}

/-- What holds of the first offers, of every ticket if of the offer it was bought from, and of every
resale if of the ticket that is resold, holds of all offers and of all tickets. -/
theorem offers_inv {A : TicketInfo → Prop} {B : Ticket → Prop} (hsha : Function.Injective sha)
    (run : Serial (serve sha) allowed ⟨info, .empty, .empty⟩ h db) (h₀ : ∀ ti ∈ info.rows, A ti)
    (hbuy : ∀ ti u env, A ti → B (issued ti u env))
    (hsell : ∀ h db data newPrice t t₀, allowed h db (.sellTicket data newPrice) →
      Ticket.deserialize data = .ok (true, t) →
      Sell.Reaches sha (fun _ => false) db t newPrice → latest h t.ticketID = some t₀ →
      t.serialize = t₀.serialize → B t₀ → A (listing t newPrice)) :
    (∀ ti ∈ db.ticketInfo, A ti) ∧ ∀ t ∈ purchases h, B t := by
  have hI : Keeps sha (latest h) db ∧ (∀ ti ∈ db.ticketInfo, A ti) ∧ ∀ t ∈ purchases h, B t := by
    refine run.inv (I := fun h db => Keeps sha (latest h) db ∧ (∀ ti ∈ db.ticketInfo, A ti) ∧
      ∀ t ∈ purchases h, B t) ⟨(StoreInv.init info).keeps, h₀, by simp [purchases]⟩ ?_
    rintro h db c ⟨hK, hA, hB⟩ hc
    have hd : Done sha (fun _ => false) db c (serve sha c db).1 (serve sha c db).2 := done_of_serve c
    refine ⟨latest_snoc h c _ ▸ hK.step hsha hd, ?_, ?_⟩
    · intro ti hti
      rcases hd.offers hti with hti | ⟨data, newPrice, t, rfl, hdes, hr, rfl⟩
      · exact hA ti hti
      · obtain ⟨t₀, ht₀, -, hser⟩ := hK.of_reaches hsha hr
        exact hsell h db data newPrice t t₀ hc hdes hr ht₀ hser (hB t₀ (mem_of_latest ht₀).1)
    · intro t ht
      rw [purchases_snoc] at ht
      rcases List.mem_append.1 ht with ht | ht
      · exact hB t ht
      · have hret : (serve sha c db).1 = .ok (.ticket t) := eq_of_boughtBy (by simpa using ht)
        rw [hret] at hd
        obtain ⟨T, e, u, env, ti, rfl, hti, -, rfl⟩ := hd.ticket
        exact hbuy ti u env (hA ti hti)
  exact hI.2

end

end TicketIST
