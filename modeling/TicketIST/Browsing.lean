import TicketIST.Listing
import TicketIST.Requests

/-!
# What is shown can be bought

Browsing and buying go different ways.  A list of tickets is the answer of one query by the number of an
event; a purchase finds its ticket by its own number and compares the event, and goes on to three more
tables.  Both find the event through a cache.

In every state that a run reaches, the cache agrees with the table of events and a session of a user has
an account behind it, and then the two agree: what `Server.offers` says is on offer is what every user is
shown (`shown_of_coherent`), and what every user can buy who owns fewer than six tickets
(`shown_iff_bought`).
-/

namespace TicketIST

open TicketIST.Lib ServerOp

variable {coll sha : Text → Text}

/-- No statement fails. -/
structure Surroundings.NoFailure (sur : Surroundings) : Prop where
  tickets : sur.ticketFails = fun _ => false
  users : sur.userFails = fun _ => false
  events : sur.eventFails = false

/-- What is on offer under the name of an event. -/
def Server.offers (s : Server coll) (eventName : Text) : Option (Event × List TicketInfo) :=
  (EventRepository.getEventByName eventName s.events.events).map fun event =>
    (event, TicketRepository.getAllTicketsFromEventId event.id s.tickets)

/-! ### What every run keeps -/

section Run

variable {s : Server coll} {tickets : TicketDB} {users : UserDB coll} {events : EventDB coll}
  {h : ServerHistory}

theorem coherent_run {α : Type} (p : ServerProg α) (hs : Coherent s.events) :
    Coherent (p.run (exec sha) s).2.events := by
  refine p.uses_true.run_inv (I := fun s : Server coll => Coherent s.events) ?_ hs
  intro op s _ hs
  cases op with
  | eventService fails c => exact EventCall.coherent_serve hs fails c
  | _ => exact hs

theorem coherent_of_run (run : ServerRun sha (Server.start tickets users events) h s) :
    Coherent s.events := by
  refine run.inv (I := fun _ s => Coherent s.events) (coherent_init events) ?_
  intro h s c hs _
  exact coherent_run c.prog hs

/-- What every statement on the accounts keeps, every step of the server keeps. -/
theorem users_exec {P : UserDB coll → Prop} (hP : ∀ op db, P db → P (UserOp.exec op db).2)
    (op : ServerOp) (s : Server coll) (hs : P s.users) : P (exec sha op s).2.users := by
  cases op with
  | userService fails c => exact c.serve_inv hP fails hs
  | _ => exact hs

theorem users_run {P : UserDB coll → Prop} (hP : ∀ op db, P db → P (UserOp.exec op db).2) {α : Type}
    (p : ServerProg α) (hs : P s.users) : P (p.run (exec sha) s).2.users :=
  p.uses_true.run_inv (I := fun s : Server coll => P s.users) (fun op s _ => users_exec hP op s) hs

theorem idsIssued_of_run (hI : IdsIssued users)
    (run : ServerRun sha (Server.start tickets users events) h s) : IdsIssued s.users := by
  refine run.inv (I := fun _ s => IdsIssued s.users) hI ?_
  intro h s c hs _
  exact users_run (fun op _ hdb => hdb.exec op) c.prog hs

/-- Who logs in as a user has an account then. -/
theorem LogsIn.hasAccount {text : Text} {c : ServerCall} {m : Credentials}
    (hl : LogsIn text (c.prog.trace (exec sha) s) .user m) :
    HasAccount m.username (c.prog.run (exec sha) s).2.users := by
  have hkeep : ∀ op (s : Server coll), HasAccount m.username s.users →
      HasAccount m.username (exec sha op s).2.users :=
    fun op s => users_exec (fun op _ hdb => hdb.exec op) op s
  have hpassword : ∀ db : UserDB coll, UserPassword sha m.username m.password db →
      HasAccount m.username db := fun _ ⟨r, hr, hru, _⟩ => ⟨r, hr, hru⟩
  cases hl with
  | signUp _ _ hst =>
    refine Prog.run_of_mem_trace (I := fun s : Server coll => HasAccount m.username s.users) ?_ hkeep
      hst
    exact fun s hok => hpassword _ (signUp_true hok).2
  | logIn _ _ hst =>
    refine Prog.run_of_mem_trace (I := fun s : Server coll => HasAccount m.username s.users) ?_ hkeep
      hst
    intro s hok
    have hpw := hpassword _ (loginUser_iff.1 hok).2
    exact users_exec (fun op _ hdb => hdb.exec op) _ s hpw

/-- **Behind every session of a user there is an account.** -/
theorem hasAccount_of_session (run : ServerRun sha (Server.start tickets users events) h s) {u : Text}
    {v : Text × ℤ} (hk : s.controller.sessions (.user, u) = some v) : HasAccount u s.users := by
  have hI : ∀ u v, s.controller.sessions (.user, u) = some v → HasAccount u s.users := by
    refine run.inv (I := fun _ s => ∀ u v, s.controller.sessions (.user, u) = some v →
      HasAccount u s.users) (fun _ _ h => nomatch h) ?_
    rintro h s c ih - u ⟨cookie, n⟩ hk
    rcases (Effect.of_call sha c s).session hk with hi | ⟨⟨n', hs⟩, -, -⟩
    · obtain ⟨sur, ssl, text, m, nonce, -, hl, rfl, -⟩ := hi
      exact hl.hasAccount
    · exact users_run (fun op _ hdb => hdb.exec op) c.prog (ih u _ hs)
  exact hI u v hk

end Run

/-! ### The two handlers -/

section Handlers

variable {sur : Surroundings} {s : Server coll}

/-- The server after an answer in the session of `m`, with the nonce of `m`. -/
def Server.answered (s : Server coll) (r : Role) (m : AuthenticatedMessage) : Server coll :=
  { s with controller := s.controller.set (r, m.username) (some (m.sessionCookies, m.nonce)) }

/-- The server after an event was asked for. -/
def Server.lookedUp (s : Server coll) (eventName : Text) : Server coll :=
  { s with events := (EventService.getEventByName false eventName s.events).2 }

variable {r : Role} {m : AuthenticatedMessage}

theorem advance_of_holds (hs : Holds s r m) : s.controller.advance (r, m.username) =
    ((m.sessionCookies, m.nonce), (s.answered r m).controller) := by
  rw [Controller.advance_of_sessions _ hs, Int.sub_add_cancel]
  rfl

theorem run_createAcceptAuthMessageAs (hs : Holds s r m) (message : Text) :
    (createAcceptAuthMessageAs r message m.username).run (exec sha) s =
      (.ok (AcceptAuthMessage.serialize message m), s.answered r m) := by
  simp only [createAcceptAuthMessageAs, Prog.call_bind, Prog.run_call, exec, advance_of_holds hs]
  rfl

theorem run_createRejectAuthMessageAs (hs : Holds s r m) (message : Text) :
    (createRejectAuthMessageAs r message m.username).run (exec sha) s =
      (.ok (RejectAuthMessage.serialize message m), s.answered r m) := by
  simp only [createRejectAuthMessageAs, Prog.call_bind, Prog.run_call, exec, advance_of_holds hs]
  rfl

theorem offers_eq_some {eventName : Text} {event : Event} {l : List TicketInfo} :
    s.offers eventName = some (event, l) ↔
      EventRepository.getEventByName eventName s.events.events = some event ∧
        l = TicketRepository.getAllTicketsFromEventId event.id s.tickets := by
  simp only [Server.offers, Option.map_eq_some_iff, Prod.mk.injEq]
  constructor
  · rintro ⟨event, he, rfl, rfl⟩
    exact ⟨he, rfl⟩
  · rintro ⟨he, rfl⟩
    exact ⟨event, he, rfl, rfl⟩

/-- The lookup of an event that there is, and what follows it. -/
theorem run_getEventByName (hsur : sur.NoFailure) (hc : Coherent s.events) {eventName : Text}
    {event : Event} (he : EventRepository.getEventByName eventName s.events.events = some event)
    (f : Event → ServerProg Text) :
    (callEvents sur (.getEventByName eventName) >>= f).run (exec sha) s =
      (f event).run (exec sha) (s.lookedUp eventName) := by
  have hfst : (exec sha (eventService false (.getEventByName eventName)) s).1 = .ok event := by
    have hcache := hc.getEventByName eventName
    rw [he] at hcache
    exact hcache
  rw [Prog.run_bind, callEvents, Prog.run_call, Prog.run_ofExcept, hsur.events, hfst]
  rfl

theorem run_getEventByName_none (hsur : sur.NoFailure) (hc : Coherent s.events) {eventName : Text}
    (ho : s.offers eventName = none) (f : Event → ServerProg Text) :
    (callEvents sur (.getEventByName eventName) >>= f).run (exec sha) s =
      (.error (.invalidArgument "Event not found"), s.lookedUp eventName) := by
  have hfst : (exec sha (eventService false (.getEventByName eventName)) s).1 =
      .error (.invalidArgument "Event not found") := by
    have hcache := hc.getEventByName eventName
    rw [Option.map_eq_none_iff.1 ho] at hcache
    exact hcache
  rw [Prog.run_bind, callEvents, Prog.run_call, Prog.run_ofExcept, hsur.events, hfst]
  rfl

theorem run_getUserId (hsur : sur.NoFailure) {u : Text} (ha : HasAccount u s.users)
    (hI : IdsIssued s.users) (f : ℤ → ServerProg Text) :
    (callUsers sur (.getUserId u) >>= f).run (exec sha) s =
      (f (UserRepository.getUserId u s.users)).run (exec sha) s := by
  have hexec : exec sha (userService (fun _ => false) (.getUserId u)) s =
      (.ok (UserRepository.getUserId u s.users), s) := by
    simp only [exec, getUserId_run ha hI]
  rw [Prog.run_bind, callUsers, Prog.run_call, Prog.run_ofExcept, hsur.users, hexec]

/-- A call of the ticket service, and what follows it. -/
theorem run_callTickets (hsur : sur.NoFailure) {c : Call} {o : Except Exn c.Answer}
    {tickets : TicketDB} (hcall : (c.service sha).run TicketOp.exec s.tickets = (o, tickets))
    (f : c.Answer → ServerProg Text) :
    (callTickets sur c >>= f).run (exec sha) s =
      (Prog.ofExcept o >>= f).run (exec sha) { s with tickets } := by
  have hexec : exec sha (ticketService (fun _ => false) c) s = (o, { s with tickets }) := by
    simp only [exec, faulty_never, hcall]
  rw [callTickets, hsur.tickets, Prog.call_bind, Prog.run_call, hexec]

/-- A body that ends in an answer, and one that throws what the `catch` block takes. -/
theorem run_authenticated_ok {onError : String → ServerProg Text} {body : ServerProg Text}
    (hs : Holds s r m) {reply : Text} {s' : Server coll}
    (hb : body.run (exec sha) s = (.ok reply, s')) :
    (authenticated r m onError body).run (exec sha) s = (.ok reply, s') := by
  rw [authenticated_run hs, Prog.run_tryCatch, hb]

theorem run_authenticated_error {onError : String → ServerProg Text} {body : ServerProg Text}
    (hs : Holds s r m) {what : String} {text : Text} {s' : Server coll}
    (he : (onError what).run (exec sha) s' = (.ok text, s')) (hs' : Holds s' r m)
    (hb : body.run (exec sha) s = (.error (.invalidArgument what), s')) :
    (authenticated r m onError body).run (exec sha) s =
      (.ok (RejectAuthMessage.serialize text m), s'.answered r m) := by
  rw [authenticated_run hs, Prog.run_tryCatch, hb]
  simp only [onInvalidArgument, Prog.run_bind, he]
  exact run_createRejectAuthMessageAs hs' _

/-- What a user is shown of an event that there is. -/
theorem run_doGetAvailableTicketsAction {m : GetAvailableTicketsMessage} (hsur : sur.NoFailure)
    (hc : Coherent s.events) (hs : Holds s .user m.toAuthenticatedMessage) {event : Event}
    {l : List TicketInfo} (ho : s.offers m.eventName = some (event, l)) :
    (doGetAvailableTicketsAction sur m).run (exec sha) s =
      (.ok (AcceptAuthMessage.serialize (availableTickets event l) m.toAuthenticatedMessage),
        (s.lookedUp m.eventName).answered .user m.toAuthenticatedMessage) := by
  obtain ⟨he, rfl⟩ := offers_eq_some.1 ho
  refine run_authenticated_ok hs ?_
  rw [run_getEventByName hsur hc he, run_callTickets hsur rfl]
  exact run_createAcceptAuthMessageAs (s := s.lookedUp m.eventName) hs _

/-- The answer to a user who asks for an event that there is not. -/
theorem run_doGetAvailableTicketsAction_none {m : GetAvailableTicketsMessage} (hsur : sur.NoFailure)
    (hc : Coherent s.events) (hs : Holds s .user m.toAuthenticatedMessage)
    (ho : s.offers m.eventName = none) :
    ∃ text, (doGetAvailableTicketsAction sur m).run (exec sha) s =
      (.ok (RejectAuthMessage.serialize text m.toAuthenticatedMessage),
        (s.lookedUp m.eventName).answered .user m.toAuthenticatedMessage) :=
  ⟨_, run_authenticated_error hs rfl hs (run_getEventByName_none hsur hc ho _)⟩

theorem run_doBuyTicketAction_none {m : BuyTicketMessage} (hsur : sur.NoFailure)
    (hc : Coherent s.events) (hs : Holds s .user m.toAuthenticatedMessage)
    (ho : s.offers m.eventName = none) :
    ∃ text, (doBuyTicketAction sur m).run (exec sha) s =
      (.ok (RejectAuthMessage.serialize text m.toAuthenticatedMessage),
        (s.lookedUp m.eventName).answered .user m.toAuthenticatedMessage) :=
  ⟨_, run_authenticated_error hs rfl hs (run_getEventByName_none hsur hc ho _)⟩

section Known

variable {m : BuyTicketMessage} {event : Event} {o : Except Exn Ticket} {tickets : TicketDB}

/-- The body of a purchase for an event that there is, where `o` is what the service makes of it. -/
theorem run_buy (hsur : sur.NoFailure) (hc : Coherent s.events) (ha : HasAccount m.username s.users)
    (hI : IdsIssued s.users)
    (he : EventRepository.getEventByName m.eventName s.events.events = some event)
    (hbuy : ((Call.buyTicket m.ticketId event.id (UserRepository.getUserId m.username s.users)
      sur.env).service sha).run TicketOp.exec s.tickets = (o, tickets)) :
    (callEvents sur (.getEventByName m.eventName) >>= fun event => do
        let userId ← callUsers sur (.getUserId m.username)
        let ticket ← callTickets sur (.buyTicket m.ticketId event.id userId sur.env)
        createAcceptAuthMessage ticket.serialize m.username).run (exec sha) s =
      (Prog.ofExcept o >>= fun t => createAcceptAuthMessage t.serialize m.username).run (exec sha)
        { s.lookedUp m.eventName with tickets } := by
  rw [run_getEventByName hsur hc he, run_getUserId (s := s.lookedUp m.eventName) hsur ha hI]
  exact run_callTickets (s := s.lookedUp m.eventName) hsur hbuy _

/-- A purchase that the service makes. -/
theorem run_doBuyTicketAction (hsur : sur.NoFailure) (hc : Coherent s.events)
    (hs : Holds s .user m.toAuthenticatedMessage) (ha : HasAccount m.username s.users)
    (hI : IdsIssued s.users)
    (he : EventRepository.getEventByName m.eventName s.events.events = some event) {t : Ticket}
    (hbuy : (TicketService.buyTicket sha m.ticketId event.id
      (UserRepository.getUserId m.username s.users) sur.env).run TicketOp.exec s.tickets =
        (.ok t, tickets)) :
    (doBuyTicketAction sur m).run (exec sha) s =
      (.ok (AcceptAuthMessage.serialize t.serialize m.toAuthenticatedMessage),
        Server.answered { s.lookedUp m.eventName with tickets } .user m.toAuthenticatedMessage) := by
  have hs' : Holds { s.lookedUp m.eventName with tickets } .user m.toAuthenticatedMessage := hs
  exact run_authenticated_ok hs
    ((run_buy hsur hc ha hI he hbuy).trans (run_createAcceptAuthMessageAs hs' _))

/-- A purchase that the service turns down. -/
theorem run_doBuyTicketAction_error (hsur : sur.NoFailure) (hc : Coherent s.events)
    (hs : Holds s .user m.toAuthenticatedMessage) (ha : HasAccount m.username s.users)
    (hI : IdsIssued s.users)
    (he : EventRepository.getEventByName m.eventName s.events.events = some event) {x : Exn}
    (hbuy : (TicketService.buyTicket sha m.ticketId event.id
      (UserRepository.getUserId m.username s.users) sur.env).run TicketOp.exec s.tickets =
        (.error x, tickets)) :
    ∃ text, (doBuyTicketAction sur m).run (exec sha) s =
      (.ok (RejectAuthMessage.serialize text m.toAuthenticatedMessage),
        Server.answered { s.lookedUp m.eventName with tickets } .user m.toAuthenticatedMessage) := by
  have hs' : Holds { s.lookedUp m.eventName with tickets } .user m.toAuthenticatedMessage := hs
  obtain ⟨what, rfl⟩ := (throws_buyTicket _ _ _ _).run (congrArg Prod.fst hbuy)
  exact ⟨_, run_authenticated_error hs rfl hs' (run_buy hsur hc ha hI he hbuy)⟩

end Known

end Handlers

/-! ### The two agree -/

/-- The request was answered in its session, and accepted. -/
def Accepted (o : Except Exn Text) : Prop :=
  ∃ reply, o = .ok reply ∧ getActionType reply = .ok .acceptAuth

def Rejected (o : Except Exn Text) : Prop :=
  ∃ reply, o = .ok reply ∧ getActionType reply = .ok .rejectAuth

theorem accepted_acceptAuth (text : Text) (a : AuthenticatedMessage) :
    Accepted (.ok (AcceptAuthMessage.serialize text a)) :=
  ⟨_, rfl, getActionType_writeHeader .acceptAuth a text⟩

theorem rejected_rejectAuth (text : Text) (a : AuthenticatedMessage) :
    Rejected (.ok (RejectAuthMessage.serialize text a)) :=
  ⟨_, rfl, getActionType_rejectAuth text a⟩

theorem Rejected.not_accepted {o : Except Exn Text} (h : Rejected o) : ¬Accepted o := by
  rintro ⟨reply, rfl, ha⟩
  obtain ⟨reply', heq, hr⟩ := h
  cases heq
  cases ha.symm.trans hr

section Agree

variable (sha) (sur : Surroundings) (a : AuthenticatedMessage) (T : ℤ) (eventName : Text)
  (s : Server coll)

/-- The user of `a` asks what is on offer for an event. -/
def browse : Except Exn Text × Server coll :=
  (doGetAvailableTicketsAction sur { toAuthenticatedMessage := a, eventName }).run (exec sha) s

/-- The user of `a` buys the ticket `T` for an event. -/
def buy : Except Exn Text × Server coll :=
  (doBuyTicketAction sur { toAuthenticatedMessage := a, ticketId := T, eventName }).run (exec sha) s

/-- The reply accepts the request of `a`, and its text lists the tickets `l` of the event. -/
def RepliesList (a : AuthenticatedMessage) (event : Event) (l : List TicketInfo)
    (o : Except Exn Text) : Prop :=
  ∃ text, o = .ok (AcceptAuthMessage.serialize text a) ∧ Lists text event l

/-- Every user is shown what is on offer. -/
structure Shown : Prop where
  known : ∀ {sur a eventName event l}, sur.NoFailure → Holds s .user a →
    s.offers eventName = some (event, l) → RepliesList a event l (browse sha sur a eventName s).1
  unknown : ∀ {sur a eventName}, sur.NoFailure → Holds s .user a → s.offers eventName = none →
    Rejected (browse sha sur a eventName s).1

/-- The ticket is that of the listing. -/
structure Ticket.Matches (t : Ticket) (ti : TicketInfo) : Prop where
  ticketID : t.ticketID = ti.ticketID
  eventID : t.eventID = ti.eventID
  sellerID : t.sellerID = ti.sellerID
  price : t.price = ti.price
  seat : t.seat = ti.seat

/-- The user of `a` can buy what is on offer for an event, and nothing else. -/
structure Sells : Prop where
  accepted : ∀ T, Accepted (buy sha sur a T eventName s).1 ↔
    ∃ event l, s.offers eventName = some (event, l) ∧ T ∈ l.map TicketInfo.ticketID
  unknown : s.offers eventName = none → ∀ T, Rejected (buy sha sur a T eventName s).1
  delivered : ∀ {event l}, s.offers eventName = some (event, l) → ∀ ti ∈ l, ∃ t : Ticket,
    t.Matches ti ∧ t.eventID = event.id ∧ (buy sha sur a ti.ticketID eventName s).1 =
      .ok (AcceptAuthMessage.serialize t.serialize a)
  /-- what is on offer after a purchase, for this event and for the others -/
  after : ∀ {event l}, s.offers eventName = some (event, l) → ∀ ti ∈ l, ∀ eventName',
    (buy sha sur a ti.ticketID eventName s).2.offers eventName' =
      (s.offers eventName').map fun (event', l') =>
        (event', if event'.id = event.id then l'.filter (·.ticketID ≠ ti.ticketID) else l')
  /-- and what every user is shown then -/
  shownAfter : ∀ {event l}, s.offers eventName = some (event, l) → ∀ ti ∈ l,
    ∀ {eventName' event' l'}, s.offers eventName' = some (event', l') → ∀ {sur' a'},
      sur'.NoFailure → Holds (buy sha sur a ti.ticketID eventName s).2 .user a' →
        RepliesList a' event' (if event'.id = event.id then l'.filter (·.ticketID ≠ ti.ticketID) else l')
          (browse sha sur' a' eventName' (buy sha sur a ti.ticketID eventName s).2).1

end Agree

section

variable {sur : Surroundings} {a : AuthenticatedMessage} {T : ℤ} {eventName : Text} {s : Server coll}

theorem shown_of_coherent (hc : Coherent s.events) : Shown sha s where
  known {sur a eventName event l} hsur hs ho := by
    let m : GetAvailableTicketsMessage := { toAuthenticatedMessage := a, eventName }
    have hreply : (browse sha sur a eventName s).1 = .ok (AcceptAuthMessage.serialize _ a) :=
      congrArg Prod.fst (run_doGetAvailableTicketsAction (m := m) hsur hc hs ho)
    exact ⟨_, hreply, lists_availableTickets event l⟩
  unknown {sur a eventName} hsur hs ho := by
    let m : GetAvailableTicketsMessage := { toAuthenticatedMessage := a, eventName }
    obtain ⟨text, hrun⟩ := @run_doGetAvailableTicketsAction_none _ sha _ _ m hsur hc hs ho
    rw [browse, hrun]
    exact rejected_rejectAuth text a

/-- What is on offer when a seat is taken off. -/
theorem offers_of_delete {s' : Server coll} (hevents : s'.events.events = s.events.events)
    {ti : TicketInfo} (hti : ti ∈ s.tickets.ticketInfo) (htickets : s'.tickets.ticketInfo =
      s.tickets.ticketInfo.delete fun r => r.ticketID = ti.ticketID) (eventName' : Text) :
    s'.offers eventName' = (s.offers eventName').map fun (event', l') =>
      (event', if event'.id = ti.eventID then l'.filter (·.ticketID ≠ ti.ticketID) else l') := by
  simp only [Server.offers, hevents, Option.map_map]
  refine Option.map_congr fun event' _ => ?_
  simp only [Function.comp, TicketRepository.getAllTicketsFromEventId, htickets,
    Table.select_delete]
  split
  · simp
  · next hne =>
    refine congrArg _ (List.filter_eq_self.2 fun x hx => ?_)
    obtain ⟨hx, he⟩ := List.mem_filter.1 hx
    have hxT : x.ticketID ≠ ti.ticketID := by
      intro heq
      obtain rfl : x = ti := Table.eq_of_key hx hti heq
      exact hne (of_decide_eq_true he).symm
    simpa using hxT

theorem mem_getAllTicketsFromEventId {e : ℤ} {db : TicketDB} {ti : TicketInfo} :
    ti ∈ TicketRepository.getAllTicketsFromEventId e db ↔ ti ∈ db.ticketInfo ∧ ti.eventID = e := by
  simp [TicketRepository.getAllTicketsFromEventId, Table.select, Table.mem_def]

/-- What a purchase needs: nothing fails, the code that is drawn is new, and the user is found and owns
fewer than six tickets. -/
structure CanBuy (sha : Text → Text) (sur : Surroundings) (a : AuthenticatedMessage)
    (s : Server coll) : Prop where
  noFailure : sur.NoFailure
  session : Holds s .user a
  account : HasAccount a.username s.users
  ids : IdsIssued s.users
  few : TicketRepository.getNrOfTicketsOwned (UserRepository.getUserId a.username s.users)
    s.tickets < 6
  fresh : ∀ r ∈ s.tickets.ticket,
    r.validationCode ≠ sha (Ticket.generateValidationCode 10 sur.env.dist)

variable {event : Event} {l : List TicketInfo}

/-- What is on offer is sold, and comes off. -/
theorem buy_offered (hb : CanBuy sha sur a s) (hc : Coherent s.events)
    (ho : s.offers eventName = some (event, l)) {ti : TicketInfo} (hti : ti ∈ l) :
    ∃ t : Ticket, t.Matches ti ∧
      (buy sha sur a ti.ticketID eventName s).1 = .ok (AcceptAuthMessage.serialize t.serialize a) ∧
      (buy sha sur a ti.ticketID eventName s).2.events.events = s.events.events ∧
      (buy sha sur a ti.ticketID eventName s).2.tickets.ticketInfo =
        s.tickets.ticketInfo.delete fun r => r.ticketID = ti.ticketID := by
  obtain ⟨he, rfl⟩ := offers_eq_some.1 ho
  obtain ⟨hmem, hevent⟩ := mem_getAllTicketsFromEventId.1 hti
  let u := UserRepository.getUserId a.username s.users
  have hreach : Buy.Reaches (fun _ => false) s.tickets ti.ticketID event.id u ti :=
    ⟨fun _ => hb.few, rfl, Table.find?_eq_some.2 ⟨hmem, rfl⟩, hevent, rfl⟩
  obtain ⟨tk, hi⟩ : ∃ tk, s.tickets.ticket.insert (Buy.row sha u (issued ti u sur.env)) = some tk :=
    Table.exists_insert hb.fresh
  let m : BuyTicketMessage :=
    { toAuthenticatedMessage := a, ticketId := ti.ticketID, eventName }
  have hrun := run_doBuyTicketAction (m := m) hb.noFailure hc hb.session hb.account hb.ids he
    (Buy.run_sold hreach rfl hi)
  refine ⟨issued ti u sur.env, ⟨rfl, rfl, rfl, rfl, rfl⟩, congrArg Prod.fst hrun, ?_, ?_⟩
  · refine (congrArg (fun r => r.2.events.events) hrun).trans ?_
    exact getEventByName_events false eventName s.events
  · exact (congrArg (fun r => r.2.tickets.ticketInfo) hrun).trans Buy.retired_ticketInfo

/-- What is not on offer is not sold. -/
theorem buy_not_offered (hb : CanBuy sha sur a s) (hc : Coherent s.events)
    (ho : s.offers eventName = some (event, l)) (hT : T ∉ l.map TicketInfo.ticketID) :
    Rejected (buy sha sur a T eventName s).1 := by
  obtain ⟨he, rfl⟩ := offers_eq_some.1 ho
  obtain ⟨x, hx⟩ : ∃ x, (TicketService.buyTicket sha T event.id
      (UserRepository.getUserId a.username s.users) sur.env).run (faulty fun _ => false) s.tickets =
        (.error x, s.tickets) := by
    refine Buy.run_of_not_reaches fun ti hr => hT ?_
    exact List.mem_map.2 ⟨ti, mem_getAllTicketsFromEventId.2 ⟨hr.listed.1, hr.event⟩, hr.listed.2⟩
  let m : BuyTicketMessage := { toAuthenticatedMessage := a, ticketId := T, eventName }
  obtain ⟨text, hrun⟩ := run_doBuyTicketAction_error (m := m) hb.noFailure hc hb.session hb.account
    hb.ids he hx
  rw [buy, hrun]
  exact rejected_rejectAuth text a

theorem buy_unknown (hb : CanBuy sha sur a s) (hc : Coherent s.events)
    (ho : s.offers eventName = none) : Rejected (buy sha sur a T eventName s).1 := by
  let m : BuyTicketMessage := { toAuthenticatedMessage := a, ticketId := T, eventName }
  obtain ⟨text, hrun⟩ := @run_doBuyTicketAction_none _ sha _ _ m hb.noFailure hc hb.session ho
  rw [buy, hrun]
  exact rejected_rejectAuth text a

theorem offers_of_buy (hb : CanBuy sha sur a s) (hc : Coherent s.events)
    (ho : s.offers eventName = some (event, l)) {ti : TicketInfo} (hti : ti ∈ l) (eventName' : Text) :
    (buy sha sur a ti.ticketID eventName s).2.offers eventName' =
      (s.offers eventName').map fun (event', l') =>
        (event', if event'.id = event.id then l'.filter (·.ticketID ≠ ti.ticketID) else l') := by
  obtain ⟨t, -, -, hevents, htickets⟩ := buy_offered hb hc ho hti
  obtain ⟨-, rfl⟩ := offers_eq_some.1 ho
  obtain ⟨hmem, hevent⟩ := mem_getAllTicketsFromEventId.1 hti
  rw [offers_of_delete hevents hmem htickets, hevent]

/-- What is on offer can be bought, and nothing else. -/
theorem sells_of_canBuy (hb : CanBuy sha sur a s) (hc : Coherent s.events) (eventName : Text) :
    Sells sha sur a eventName s where
  accepted T := by
    constructor
    · intro hacc
      cases ho : s.offers eventName with
      | none => exact absurd hacc (buy_unknown hb hc ho).not_accepted
      | some o =>
        obtain ⟨event, l⟩ := o
        refine ⟨event, l, rfl, ?_⟩
        by_contra hT
        exact (buy_not_offered hb hc ho hT).not_accepted hacc
    · rintro ⟨event, l, ho, hT⟩
      obtain ⟨ti, hti, rfl⟩ := List.mem_map.1 hT
      obtain ⟨t, -, hok, -⟩ := buy_offered hb hc ho hti
      rw [hok]
      exact accepted_acceptAuth _ a
  unknown ho T := buy_unknown hb hc ho
  delivered {event l} ho ti hti := by
    obtain ⟨t, ht, hok, -⟩ := buy_offered hb hc ho hti
    obtain ⟨-, rfl⟩ := offers_eq_some.1 ho
    exact ⟨t, ht, ht.eventID.trans (mem_getAllTicketsFromEventId.1 hti).2, hok⟩
  after ho ti hti eventName' := offers_of_buy hb hc ho hti eventName'
  shownAfter ho ti hti eventName' event' l' ho' sur' a' hsur' ha' := by
    have hafter := offers_of_buy hb hc ho hti eventName'
    rw [ho', Option.map_some] at hafter
    exact (shown_of_coherent (coherent_run _ hc)).known hsur' ha' hafter

end

/-- **What is shown can be bought, and only that**: in every state that a run reaches, what is on offer
is what the list lists that every user is sent, before and after a purchase, and what a user can buy who
owns fewer than six tickets. -/
theorem shown_iff_bought {tickets : TicketDB} {users : UserDB coll} {events : EventDB coll}
    {h : ServerHistory} {s : Server coll} (hids : IdsIssued users)
    (run : ServerRun sha (Server.start tickets users events) h s) {sur : Surroundings}
    (hsur : sur.NoFailure) {a : AuthenticatedMessage} (ha : Holds s .user a)
    (hfew : TicketRepository.getNrOfTicketsOwned (UserRepository.getUserId a.username s.users)
      s.tickets < 6)
    (hfresh : ∀ r ∈ s.tickets.ticket,
      r.validationCode ≠ sha (Ticket.generateValidationCode 10 sur.env.dist)) (eventName : Text) :
    Shown sha s ∧ Sells sha sur a eventName s ∧
      ∀ T, Shown sha (buy sha sur a T eventName s).2 := by
  have hc := coherent_of_run run
  refine ⟨shown_of_coherent hc, ?_, fun T => shown_of_coherent (coherent_run _ hc)⟩
  exact sells_of_canBuy ⟨hsur, ha, hasAccount_of_session run ha, idsIssued_of_run hids run, hfew,
    hfresh⟩ hc eventName

/-- The header of the first request of the session that `surroundings 0` issues. -/
def asAna : AuthenticatedMessage :=
  { username := ana
    sessionCookies := AuthenticatedMessage.generateCookie (surroundings 0)
    nonce := AuthenticatedMessage.generateNonce (surroundings 0) + 2 }

/-- User 5 is shown two seats, and can buy them. -/
theorem shown_iff_bought_ana :
    loggedIn.2.offers websummit =
        some ({ id := 1, name := websummit }, [seat 7 "86L", seat 8 "88L"]) ∧
      Shown sha256 loggedIn.2 ∧ Sells sha256 (surroundings 0) asAna websummit loggedIn.2 ∧
      ∀ T, Shown sha256 (buy sha256 (surroundings 0) asAna T websummit loggedIn.2).2 := by
  have run : ServerRun sha256 opened loggedIn.1 loggedIn.2 := Serial.nil.snoc _ trivial
  have hids : IdsIssued opened.users := ⟨by decide, by decide⟩
  have hs : Holds loggedIn.2 .user asAna :=
    (Controller.isAuthenticationCorrect_iff _).1 (by decide +kernel)
  have hfew : TicketRepository.getNrOfTicketsOwned
      (UserRepository.getUserId asAna.username loggedIn.2.users) loggedIn.2.tickets < 6 := by
    decide +kernel
  have hfresh : ∀ r ∈ loggedIn.2.tickets.ticket,
      r.validationCode ≠ sha256 (Ticket.generateValidationCode 10 (surroundings 0).env.dist) :=
    fun r hr => absurd hr (Table.not_mem_empty r)
  exact ⟨by decide +kernel, shown_iff_bought hids run ⟨rfl, rfl, rfl⟩ hs hfew hfresh websummit⟩

end TicketIST
