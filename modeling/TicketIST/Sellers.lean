import TicketIST.Authorisation
import TicketIST.Encoding
import TicketIST.Outcomes

/-!
# Who can put a ticket on sale

The controller knows who asks, the store who owns a ticket, and the listing is made out in the name
that the submitted text gives for the buyer.  The last two agree, since the hash of the row covers the
name (`owner_of_reaches`), but the first is compared with neither: whoever has the text of a ticket
can put it on sale, in the owner's name.  So a sale is by the owner exactly if the text names the user
who submits it (`sold_by_owner_iff`).
-/

namespace TicketIST

open TicketIST.Lib ServerOp

variable {coll sha : Text → Text}

/-! ### Rows and their owners -/

/-- Every row was issued for a ticket, to the buyer it names. -/
def RowsIssued (sha : Text → Text) (db : TicketDB) : Prop := ∀ r ∈ db.ticket, ∃ t, RowOf sha t r

theorem Done.rowsIssued {fails : TicketOp → Bool} {db db' : TicketDB} {c : Call}
    {r : Except Exn Reply} (h : Done sha fails db c r db') (hI : RowsIssued sha db) :
    RowsIssued sha db' := by
  intro row hrow
  rcases h.rows hrow with ⟨row₀, hrow₀, hof⟩ | ⟨t, -, ht⟩
  · obtain ⟨t, ht⟩ := hI row₀ hrow₀
    exact ⟨t, hof t ht⟩
  · exact ⟨t, ht⟩

/-- The text that a sale shows names the owner of the row that vouches for it. -/
theorem owner_of_reaches {fails : TicketOp → Bool} {db : TicketDB} {t : Ticket} {newPrice : Double}
    (hI : RowsIssued sha db) (hsha : Function.Injective sha)
    (hr : Sell.Reaches sha fails db t newPrice) :
    ∃ r ∈ db.ticket, r.validationCode = sha t.validationCode ∧ r.ownerId = t.buyerID := by
  obtain ⟨r, hr, hc, hh⟩ := hr.row
  obtain ⟨t₀, ht₀⟩ := hI r hr
  have hser : t₀.serialize = t.serialize := hsha (ht₀.hash.symm.trans hh)
  exact ⟨r, hr, hc, ht₀.owner.trans (Ticket.buyerID_of_serialize hser)⟩

/-! ### Along a run of the server -/

/-- The service behind a call leaves the tables that the call leaves. -/
theorem service_run (c : Call) (fails : TicketOp → Bool) (db : TicketDB) :
    ((c.service sha).run (faulty fails) db).2 = ((c.prog sha).run (faulty fails) db).2 := by
  cases c <;> simp only [Call.service, Call.prog, Prog.run_map]

/-- What every call of the ticket service keeps, every program of the server keeps. -/
theorem tickets_inv {P : TicketDB → Prop}
    (hP : ∀ fails c db, P db → P ((Call.prog sha c).run (faulty fails) db).2) {α : Type}
    (p : ServerProg α) {s : Server coll} (hs : P s.tickets) : P (p.run (exec sha) s).2.tickets := by
  refine p.uses_true.run_inv (I := fun s : Server coll => P s.tickets) ?_ hs
  intro op s _ hs
  cases op with
  | ticketService fails c =>
    simp only [exec, service_run]
    exact hP fails c s.tickets hs
  | _ => exact hs

theorem RowsIssued.of_run {tickets : TicketDB} {users : UserDB coll} {events : EventDB coll}
    {h : ServerHistory} {s : Server coll} (hI : RowsIssued sha tickets)
    (run : ServerRun sha (Server.start tickets users events) h s) : RowsIssued sha s.tickets := by
  refine run.inv (I := fun _ s => RowsIssued sha s.tickets) hI ?_
  intro h s c hs _
  exact tickets_inv (fun _ _ _ hI => (done_of_run _).rowsIssued hI) c.prog hs

theorem rowsIssued_empty (info : Table TicketInfo ℤ TicketInfo.ticketID)
    (resell : Table ResellRow Text ResellRow.hashValCode) : RowsIssued sha ⟨info, .empty, resell⟩ :=
  fun r hr => absurd hr (Table.not_mem_empty r)

/-! ### An accepted sale -/

section

variable {s : Server coll} {sur : Surroundings} {m : SellTicketMessage} {reply : Text}

theorem getActionType_rejectAuth (message : Text) (a : AuthenticatedMessage) :
    getActionType (RejectAuthMessage.serialize message a) = .ok .rejectAuth :=
  getActionType_writeHeader .rejectAuth a message

/-- A request that is rejected for what the service threw gets no accepting reply. -/
theorem not_accepted_of_error {r : Role} {u : Text} {x : Exn}
    (h : ((onInvalidArgument r u errorText x).run (exec sha) s).1 = .ok reply) :
    getActionType reply ≠ .ok .acceptAuth := by
  cases x with
  | invalidArgument what =>
    obtain ⟨a, ha⟩ : ∃ a, ((onInvalidArgument r u errorText (.invalidArgument what)).run (exec sha)
        s).1 = .ok (RejectAuthMessage.serialize what.toList a) := ⟨_, rfl⟩
    cases ha.symm.trans h
    rw [getActionType_rejectAuth]
    intro h
    cases h
  | outOfRange what => cases h

/-- An accepted sale has gone through in the service. -/
theorem accepted_sale (hm : Holds s .user m.toAuthenticatedMessage)
    (hrun : ((doSellTicketAction sur m).run (exec sha) s).1 = .ok reply)
    (hacc : getActionType reply = .ok .acceptAuth) :
    ∃ ok, ((TicketService.sellTicket sha m.ticket m.newPrice).run (faulty sur.ticketFails)
      s.tickets).1 = .ok ok := by
  cases hsell : ((TicketService.sellTicket sha m.ticket m.newPrice).run (faulty sur.ticketFails)
      s.tickets).1 with
  | ok ok => exact ⟨ok, rfl⟩
  | error x =>
    rw [doSellTicketAction, authenticated_run hm] at hrun
    simp only [callTickets, Prog.call_bind, Prog.tryCatch_call, Prog.run_call, exec, Call.service,
      hsell] at hrun
    exact absurd hacc (not_accepted_of_error hrun)

/-- The tickets after a sale are those that the service leaves. -/
theorem tickets_doSellTicketAction (hm : Holds s .user m.toAuthenticatedMessage) :
    ((doSellTicketAction sur m).run (exec sha) s).2.tickets =
      (((Call.sellTicket m.ticket m.newPrice).prog sha).run (faulty sur.ticketFails) s.tickets).2 := by
  rw [← service_run]
  exact tickets_authenticated errorText (.sellTicket m.ticket m.newPrice) (fun _ => trivial)
    (fun _ => uses_createAcceptAuthMessageAs (by trivial) _) hm

/-- `id` owns the ticket that was sold, and is the seller of what came on offer. -/
structure SoldBy (sha : Text → Text) (id : ℤ) (t : Ticket) (db db' : TicketDB) : Prop where
  owner : ∃ r ∈ db.ticket, r.validationCode = sha t.validationCode ∧ r.ownerId = id
  seller : ∀ ti ∈ db'.ticketInfo, ti ∉ db.ticketInfo → ti.sellerID = id

theorem soldBy_iff {fails : TicketOp → Bool} {db db' : TicketDB} {t : Ticket} {newPrice : Double}
    {id : ℤ} (hI : RowsIssued sha db) (hsha : Function.Injective sha)
    (hr : Sell.Reaches sha fails db t newPrice)
    (hi : db.ticketInfo.insert (listing t newPrice) = some db'.ticketInfo) :
    SoldBy sha id t db db' ↔ t.buyerID = id := by
  obtain ⟨r, hrow, hc, howner⟩ := owner_of_reaches hI hsha hr
  constructor
  · rintro ⟨⟨r', hrow', hc', howner'⟩, -⟩
    obtain rfl : r' = r := Table.eq_of_key hrow' hrow (hc'.trans hc.symm)
    exact howner.symm.trans howner'
  · intro hid
    refine ⟨⟨r, hrow, hc, howner.trans hid⟩, ?_⟩
    intro ti hti hnew
    rcases (Table.mem_insert hi).1 hti with hti | rfl
    · exact absurd hti hnew
    · exact hid

end

/-- **An accepted sale is by the owner exactly if the text names the user who submits it.**  The
listing is made out in the name that the text gives. -/
theorem sold_by_owner_iff (hsha : Function.Injective sha)
    {info : Table TicketInfo ℤ TicketInfo.ticketID} {users : UserDB coll} {events : EventDB coll}
    {h : ServerHistory} {s : Server coll}
    (run : ServerRun sha (Server.start ⟨info, .empty, .empty⟩ users events) h s)
    {sur : Surroundings} {m : SellTicketMessage} (hm : Holds s .user m.toAuthenticatedMessage)
    {reply : Text} (hrun : ((doSellTicketAction sur m).run (exec sha) s).1 = .ok reply)
    (hacc : getActionType reply = .ok .acceptAuth) :
    ∃ t, Ticket.deserialize m.ticket = .ok (true, t) ∧
      s.tickets.ticketInfo.insert (listing t m.newPrice) =
        some ((doSellTicketAction sur m).run (exec sha) s).2.tickets.ticketInfo ∧
      (SoldBy sha (UserRepository.getUserId m.username s.users) t s.tickets
          ((doSellTicketAction sur m).run (exec sha) s).2.tickets ↔
        t.buyerID = UserRepository.getUserId m.username s.users) := by
  obtain ⟨ok, hok⟩ := accepted_sale hm hrun hacc
  have hdone : Done sha sur.ticketFails s.tickets (.sellTicket m.ticket m.newPrice) _ _ :=
    done_of_run _
  rw [← tickets_doSellTicketAction hm, Call.prog, Prog.run_map, hok] at hdone
  obtain ⟨data, newPrice, t, hcall, hd, hr, hi, -⟩ := hdone.sold
  cases hcall
  exact ⟨t, hd, hi, soldBy_iff ((rowsIssued_empty _ _).of_run run) hsha hr hi⟩

/-! ### A ticket sold by another -/

def eve : Text := ['e', 'v', 'e']

/-- A server just opened, with two seats and two accounts. -/
def shared : Server lower :=
  .start ⟨twoSeats, .empty, .empty⟩
    { users := ⟨[{ id := 5, username := ana, isValidator := false, password := sha256 secret },
          { id := 6, username := eve, isValidator := false, password := sha256 secret }], by decide⟩
      nextId := 7
      validators := .empty }
    opened.events.events

/-- Both users log in, and user 5 buys seat 7. -/
def bothIn : ServerHistory × Server lower :=
  serveAll (serveCall sha256)
    [.message (surroundings 0) 1 logsIn, .message (surroundings 0) 1 (buys 7),
      .message (surroundings 1) 2 (LogInMessage.serialize { username := eve, password := secret })]
    [] shared

/-- The request of the user `username` to sell the ticket of user 5 for 30. -/
def sellsTicketOfUser5 (username : Text) (n : Fin 62) (used : ℤ) : SellTicketMessage :=
  { username
    sessionCookies := AuthenticatedMessage.generateCookie (surroundings n)
    nonce := AuthenticatedMessage.generateNonce (surroundings n) + 1 + used
    ticket := ticketOfUser5.serialize
    newPrice := .ofNat 30 }

theorem serverRun_bothIn : ServerRun sha256 shared bothIn.1 bothIn.2 :=
  Serial.nil.serveAll ⟨trivial, trivial, trivial, trivial⟩

/-- What user 5 sends to sell her ticket. -/
def anaSells : SellTicketMessage := sellsTicketOfUser5 ana 0 2

/-- User 5 sells the ticket that is hers. -/
theorem sold_by_owner_ana :
    ∃ t, Ticket.deserialize anaSells.ticket = .ok (true, t) ∧
      bothIn.2.tickets.ticketInfo.insert (listing t anaSells.newPrice) =
        some ((doSellTicketAction (surroundings 0) anaSells).run (exec sha256)
          bothIn.2).2.tickets.ticketInfo ∧
      (SoldBy sha256 (UserRepository.getUserId anaSells.username bothIn.2.users) t bothIn.2.tickets
          ((doSellTicketAction (surroundings 0) anaSells).run (exec sha256) bothIn.2).2.tickets ↔
        t.buyerID = UserRepository.getUserId anaSells.username bothIn.2.users) := by
  have hm : Holds bothIn.2 .user anaSells.toAuthenticatedMessage :=
    (Controller.isAuthenticationCorrect_iff _).1 (by decide +kernel)
  obtain ⟨reply, hreply, hacc⟩ : ∃ reply, ((doSellTicketAction (surroundings 0) anaSells).run
      (exec sha256) bothIn.2).1 = .ok reply ∧ getActionType reply = .ok .acceptAuth :=
    ⟨_, rfl, by decide +kernel⟩
  exact sold_by_owner_iff sha256_injective serverRun_bothIn hm hreply hacc

/-- What user 6 sends to sell it. -/
def eveSells : SellTicketMessage := sellsTicketOfUser5 eve 1 1

/-- User 6 sells the ticket of user 5. -/
theorem sold_by_another :
    Holds bothIn.2 .user eveSells.toAuthenticatedMessage ∧
      (∃ reply, ((doSellTicketAction (surroundings 0) eveSells).run (exec sha256)
        bothIn.2).1 = .ok reply ∧ getActionType reply = .ok .acceptAuth) ∧
      UserRepository.getUserId eve bothIn.2.users = 6 ∧
      Ticket.deserialize eveSells.ticket = .ok (true, ticketOfUser5) ∧
      bothIn.2.tickets.ticket.rows.map TicketRow.ownerId = [5] ∧
      ((doSellTicketAction (surroundings 0) eveSells).run (exec sha256)
        bothIn.2).2.tickets.ticketInfo.rows.map TicketInfo.sellerID = [0, 5] ∧
      ¬SoldBy sha256 6 ticketOfUser5 bothIn.2.tickets
        ((doSellTicketAction (surroundings 0) eveSells).run (exec sha256)
          bothIn.2).2.tickets := by
  have hm : Holds bothIn.2 .user eveSells.toAuthenticatedMessage :=
    (Controller.isAuthenticationCorrect_iff _).1 (by decide +kernel)
  have howner : bothIn.2.tickets.ticket.rows.map TicketRow.ownerId = [5] := by decide +kernel
  refine ⟨hm, ⟨_, rfl, by decide +kernel⟩, by decide +kernel, by decide +kernel, howner,
    by decide +kernel, ?_⟩
  rintro ⟨⟨r, hr, -, h6⟩, -⟩
  have h5 : r.ownerId ∈ [5] := by
    rw [← howner]
    exact List.mem_map.2 ⟨r, hr, rfl⟩
  rw [h6] at h5
  exact absurd h5 (by decide)

end TicketIST
