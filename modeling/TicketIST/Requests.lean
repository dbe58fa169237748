import TicketIST.Connections
import TicketIST.Lib.Amid
import TicketIST.Sellers

/-!
# Authenticated requests, one by one

A request that decodes is first checked against the sessions.  If it names none, the server is left as
it was, and the answer is the same for every such request (`refused_alike`).  If it names one, its nonce
is used up and the answer is made out in the name of the session, whatever the request carries, with one
exception: the `catch` blocks of the handlers take `std::invalid_argument` only, and a number in the text
of a ticket that is out of range throws `std::out_of_range` (`request_answered_iff`).

What a handler answers is stated for one among others, who may change the server between any two of its
steps but leave the sessions of its name alone (`KeepsName`).
-/

namespace TicketIST

open TicketIST.Lib ServerOp

variable {coll sha : Text → Text}

/-- What others may do: anything but with the sessions of `u`. -/
def KeepsName (u : Text) (s s' : Server coll) : Prop :=
  ∀ r, s'.controller.sessions (r, u) = s.controller.sessions (r, u)

/-! ### What a handler answers -/

/-- The call of a service. -/
def Serves : ServerOp → Prop
  | ticketService .. => True
  | userService .. => True
  | eventService .. => True
  | _ => False

/-- A program that calls services, and at last advances the session `k` and answers with it, if it does
not throw before. -/
inductive Replies (k : SessionKey) : ServerProg Text → Prop
  | throw (x : Exn) : Replies k (.throw x)
  | serve {op next} : Serves op → (∀ a, Replies k (next a)) → Replies k (.call op next)
  | answer {tag : ActionType} {message : Text} : tag = .acceptAuth ∨ tag = .rejectAuth →
      Replies k (.call (.advance k) fun v => .ret (writeHeader tag ⟨k.2, v.1, v.2⟩ ++ message))

section Replies

variable {k : SessionKey} {sur : Surroundings}

theorem replies_createAcceptAuthMessageAs (r : Role) (message u : Text) :
    Replies (r, u) (createAcceptAuthMessageAs r message u) :=
  .answer (.inl rfl)

theorem replies_createRejectAuthMessageAs (r : Role) (message u : Text) :
    Replies (r, u) (createRejectAuthMessageAs r message u) :=
  .answer (.inr rfl)

theorem replies_answer (ok : Bool) (r : Role) (accepted rejected u : Text) :
    Replies (r, u) (if ok then createAcceptAuthMessageAs r accepted u
      else createRejectAuthMessageAs r rejected u) := by
  cases ok with
  | true => exact replies_createAcceptAuthMessageAs r accepted u
  | false => exact replies_createRejectAuthMessageAs r rejected u

theorem replies_ofExcept {α : Type} {f : α → ServerProg Text} (hf : ∀ a, Replies k (f a))
    (x : Except Exn α) : Replies k (Prog.ofExcept x >>= f) := by
  cases x with
  | error e => exact .throw e
  | ok a => exact hf a

theorem replies_callTickets {c : Call} {f : c.Answer → ServerProg Text}
    (hf : ∀ a, Replies k (f a)) : Replies k (callTickets sur c >>= f) :=
  .serve trivial (replies_ofExcept hf)

theorem replies_callUsers {c : UserCall} {f : c.Answer → ServerProg Text}
    (hf : ∀ a, Replies k (f a)) : Replies k (callUsers sur c >>= f) :=
  .serve trivial (replies_ofExcept hf)

theorem replies_callEvents {c : EventCall} {f : c.Answer → ServerProg Text}
    (hf : ∀ a, Replies k (f a)) : Replies k (callEvents sur c >>= f) :=
  .serve trivial (replies_ofExcept hf)

theorem Replies.tryCatch {p : ServerProg Text} {g : Exn → ServerProg Text} (hp : Replies k p)
    (hg : ∀ x, Replies k (g x)) : Replies k (p.tryCatch g) := by
  induction hp with
  | throw x => exact hg x
  | serve hop _ ih => exact .serve hop ih
  | answer htag => exact .answer htag

/-- The `catch` block answers as well, or passes the exception on. -/
theorem replies_onInvalidArgument {r : Role} {u : Text} {onError : String → ServerProg Text}
    (he : ∀ what, Replies (r, u) (onError what >>= fun t => createRejectAuthMessageAs r t u))
    (x : Exn) : Replies (r, u) (onInvalidArgument r u onError x) := by
  cases x with
  | invalidArgument what => exact he what
  | outOfRange what => exact .throw _

end Replies

/-- A request with the header `m` was answered: the reply has this header, and its session is the one
that `m` names, with the nonce of `m`. -/
structure Answered (r : Role) (m : AuthenticatedMessage) (s s' : Server coll) (reply : Text) :
    Prop where
  reply : ∃ tag message, (tag = .acceptAuth ∨ tag = .rejectAuth) ∧
    reply = writeHeader tag m ++ message
  session : s'.controller.sessions (r, m.username) = some (m.sessionCookies, m.nonce)
  others : ∀ r', r' ≠ r →
    s'.controller.sessions (r', m.username) = s.controller.sessions (r', m.username)

section Handlers

variable {r : Role} {m : AuthenticatedMessage} {s s' : Server coll} {steps : List (Step ServerSig)}
  {reply : Text} {sur : Surroundings}

theorem Serves.controller {op : ServerOp} (h : Serves op) (s : Server coll) :
    (exec sha op s).2.controller = s.controller := by
  cases op with
  | ticketService => rfl
  | userService => rfl
  | eventService => rfl
  | _ => exact h.elim

/-- A check in the name of a session passes. -/
theorem amid_check {k : SessionKey} {cookie : Text} {nonce : ℤ} {next : Bool → ServerProg Text}
    (hs : s.controller.sessions k = some (cookie, nonce - 1))
    (h : Amid (exec sha) (KeepsName k.2) (.call (.isAuthenticationCorrect k cookie nonce) next) s
      steps (.ret reply) s') :
    ∃ s₁ steps', KeepsName k.2 s s₁ ∧
      steps = ⟨isAuthenticationCorrect k cookie nonce, true⟩ :: steps' ∧
      Amid (exec sha) (KeepsName k.2) (next true) s₁ steps' (.ret reply) s' := by
  obtain ⟨s₁, steps', hr, rfl, hk⟩ := h.of_call
  have hok : (exec sha (.isAuthenticationCorrect k cookie nonce) s₁).1 = true :=
    s₁.controller.isAuthenticationCorrect_iff.2 ((hr k.1).trans hs)
  rw [hok] at hk ⊢
  exact ⟨s₁, steps', hr, rfl, hk⟩

/-- A check fails where there is no session. -/
theorem amid_check_none {k : SessionKey} {cookie : Text} {nonce : ℤ} {next : Bool → ServerProg Text}
    (hs : s.controller.sessions k = none)
    (h : Amid (exec sha) (KeepsName k.2) (.call (.isAuthenticationCorrect k cookie nonce) next) s
      steps (.ret reply) s') :
    ∃ s₁ st steps', KeepsName k.2 s s₁ ∧ steps = st :: steps' ∧
      Amid (exec sha) (KeepsName k.2) (next false) s₁ steps' (.ret reply) s' := by
  obtain ⟨s₁, steps', hr, rfl, hk⟩ := h.of_call
  have hs₁ : s₁.controller.sessions k = none := (hr k.1).trans hs
  have hok : (exec sha (.isAuthenticationCorrect k cookie nonce) s₁).1 = false := by
    simp [exec, Controller.isAuthenticationCorrect, hs₁]
  rw [hok] at hk
  exact ⟨s₁, _, steps', hr, rfl, hk⟩

/-- A reply takes the cookie and the next nonce of its session, and leaves the other sessions of its
name alone. -/
theorem amid_advance {u cookie : Text} {n : ℤ} {text : Text × ℤ → Text}
    (hs : s.controller.sessions (r, u) = some (cookie, n))
    (h : Amid (exec sha) (KeepsName u)
      (.call (.advance (r, u)) fun v => .ret (text v) : ServerProg Text) s steps (.ret reply) s') :
    reply = text (cookie, n + 1) ∧ s'.controller.sessions (r, u) = some (cookie, n + 1) ∧
      ∀ r', r' ≠ r → s'.controller.sessions (r', u) = s.controller.sessions (r', u) := by
  obtain ⟨s₁, steps', hr, -, hk⟩ := h.of_call
  have hadv := Controller.advance_of_sessions s₁.controller ((hr r).trans hs)
  simp only [exec, hadv] at hk
  obtain ⟨rfl, -, hr'⟩ := hk.of_ret
  refine ⟨rfl, (hr' r).trans (Controller.sessions_set_self _ _ _), ?_⟩
  intro r' hne
  have hkey : (r', u) ≠ (r, u) := fun h => hne (congrArg Prod.fst h)
  exact (hr' r').trans ((Controller.sessions_set_of_ne _ hkey _).trans (hr r'))

/-- **What a handler answers in the name of a session**, among others that leave its name alone. -/
theorem Replies.answered {p : ServerProg Text} (hp : Replies (r, m.username) p) (hs : Holds s r m)
    (h : Amid (exec sha) (KeepsName m.username) p s steps (.ret reply) s') :
    Answered r m s s' reply := by
  induction hp generalizing s steps with
  | throw x => exact absurd h Amid.not_throw
  | @serve op next hop _ ih =>
    obtain ⟨s₁, steps', hr, -, hk⟩ := h.of_call
    have hctl : (exec sha op s₁).2.controller = s₁.controller := hop.controller s₁
    have hs₁ : Holds (exec sha op s₁).2 r m := by
      rw [Holds, hctl]
      exact (hr r).trans hs
    obtain ⟨hreply, hsession, hothers⟩ := ih _ hs₁ hk
    refine ⟨hreply, hsession, ?_⟩
    intro r' hr'
    rw [hothers r' hr', hctl, hr r']
  | @answer tag message htag =>
    have hn : m.nonce - 1 + 1 = m.nonce := Int.sub_add_cancel m.nonce 1
    obtain ⟨rfl, hsession, hothers⟩ := amid_advance hs h
    rw [hn] at hsession ⊢
    exact ⟨⟨tag, message, htag, rfl⟩, hsession, hothers⟩

theorem Answered.from {s₁ : Server coll} (h : Answered r m s₁ s' reply)
    (hr : KeepsName m.username s s₁) : Answered r m s s' reply :=
  ⟨h.reply, h.session, fun r' hr' => (h.others r' hr').trans (hr r')⟩

/-- The check of an authenticated request, and what follows it. -/
theorem answered_of_authenticated {onError : String → ServerProg Text} {body : ServerProg Text}
    (he : ∀ what, Replies (r, m.username)
      (onError what >>= fun t => createRejectAuthMessageAs r t m.username))
    (hb : Replies (r, m.username) body) (hs : Holds s r m)
    (h : Amid (exec sha) (KeepsName m.username) (authenticated r m onError body) s steps
      (.ret reply) s') :
    ⟨isAuthenticationCorrect (r, m.username) m.sessionCookies m.nonce, true⟩ ∈ steps ∧
      Answered r m s s' reply := by
  simp only [authenticated, Prog.call_bind, Prog.ret_bind, Prog.tryCatch_call] at h
  obtain ⟨s₁, steps', hr, rfl, hk⟩ := amid_check hs h
  have hs₁ : Holds s₁ r m := (hr r).trans hs
  have hans : Answered r m s₁ s' reply :=
    (hb.tryCatch (replies_onInvalidArgument he)).answered hs₁ hk
  exact ⟨List.mem_cons_self, hans.from hr⟩

end Handlers

/-! ### The five requests -/

/-- The authenticated requests that a handler answers in the name of a session. -/
inductive AuthRequest
  | getAvailableTickets (m : GetAvailableTicketsMessage)
  | buyTicket (m : BuyTicketMessage)
  | sellTicket (m : SellTicketMessage)
  | validateTicket (m : ValidateTicketMessage)
  | checkIntegrity (m : CheckIntegrityMessage)

namespace AuthRequest

/-- The role whose session the handler asks for. -/
def role : AuthRequest → Role
  | getAvailableTickets _ => .user
  | buyTicket _ => .user
  | sellTicket _ => .user
  | validateTicket _ => .validator
  | checkIntegrity _ => .validator

def header : AuthRequest → AuthenticatedMessage
  | getAvailableTickets m => m.toAuthenticatedMessage
  | buyTicket m => m.toAuthenticatedMessage
  | sellTicket m => m.toAuthenticatedMessage
  | validateTicket m => m.toAuthenticatedMessage
  | checkIntegrity m => m.toAuthenticatedMessage

/-- Where the session of the request is found. -/
def key (q : AuthRequest) : SessionKey := (q.role, q.header.username)

def handler (sur : Surroundings) : AuthRequest → ServerProg Text
  | getAvailableTickets m => doGetAvailableTicketsAction sur m
  | buyTicket m => doBuyTicketAction sur m
  | sellTicket m => doSellTicketAction sur m
  | validateTicket m => doValidateTicketAction sur m
  | checkIntegrity m => doCheckIntegrityAction sur m

/-- The text is of the request's type, and decodes to it. -/
def Decodes (text : Text) : AuthRequest → Prop
  | getAvailableTickets m => getActionType text = .ok .getAvailableTickets ∧
      GetAvailableTicketsMessage.deserialize text = .ok m
  | buyTicket m => getActionType text = .ok .buyTicket ∧ BuyTicketMessage.deserialize text = .ok m
  | sellTicket m => getActionType text = .ok .sellTicket ∧
      SellTicketMessage.deserialize text = .ok m
  | validateTicket m => getActionType text = .ok .validateTicket ∧
      ValidateTicketMessage.deserialize text = .ok m
  | checkIntegrity m => getActionType text = .ok .checkIntegrity ∧
      CheckIntegrityMessage.deserialize text = .ok m

variable {sur : Surroundings} {ssl : SSL} {text : Text} {q : AuthRequest} {s s' : Server coll}

theorem Decodes.messageHandler_eq (h : q.Decodes text) :
    messageHandler sur ssl text = q.handler sur := by
  cases q <;>
  · obtain ⟨haction, hm⟩ := h
    simp only [messageHandler, haction, Prog.ofExcept_ok, Prog.ret_bind, handleAction, hm, handler]

theorem answers_handler (q : AuthRequest) : (q.handler sur).Uses (Answers (· = q.key)) := by
  cases q with
  | getAvailableTickets m => exact (answers_doGetAvailableTicketsAction m).mono fun _ => And.left
  | buyTicket m => exact answers_doBuyTicketAction m
  | sellTicket m => exact answers_doSellTicketAction m
  | validateTicket m => exact answers_doValidateTicketAction m
  | checkIntegrity m => exact (answers_doCheckIntegrityAction m).mono fun _ => And.left

/-- **What a request in the name of a session gets**, if its handler does not throw. -/
theorem answered (q : AuthRequest) (hs : Holds s q.role q.header) {steps : List (Step ServerSig)}
    {reply : Text}
    (h : Amid (exec sha) (KeepsName q.header.username) (q.handler sur) s steps (.ret reply) s') :
    ⟨isAuthenticationCorrect q.key q.header.sessionCookies q.header.nonce, true⟩ ∈ steps ∧
      Answered q.role q.header s s' reply := by
  cases q with
  | getAvailableTickets m =>
    refine answered_of_authenticated ?_ ?_ hs h
    · intro what
      refine .serve trivial fun events => ?_
      cases events with
      | error x => exact .throw x
      | ok events => exact replies_createRejectAuthMessageAs _ _ _
    · exact replies_callEvents fun event => replies_callTickets fun tickets =>
        replies_createAcceptAuthMessageAs _ _ _
  | buyTicket m =>
    refine answered_of_authenticated ?_ ?_ hs h
    · intro what
      exact replies_createRejectAuthMessageAs _ _ _
    · exact replies_callEvents fun event => replies_callUsers fun userId =>
        replies_callTickets fun ticket => replies_createAcceptAuthMessageAs _ _ _
  | sellTicket m =>
    refine answered_of_authenticated ?_ ?_ hs h
    · intro what
      exact replies_createRejectAuthMessageAs _ _ _
    · exact replies_callTickets fun _ => replies_createAcceptAuthMessageAs _ _ _
  | validateTicket m =>
    refine answered_of_authenticated ?_ ?_ hs h
    · intro what
      exact replies_createRejectAuthMessageAs _ _ _
    · exact replies_callTickets fun (ok, info) => replies_answer ok _ _ _ _
  | checkIntegrity m =>
    refine answered_of_authenticated ?_ ?_ hs h
    · intro what
      exact replies_createRejectAuthMessageAs _ _ _
    · exact replies_callTickets fun (ok, message) => replies_answer ok _ _ _ _

theorem handler_refused (q : AuthRequest) (h : ¬Holds s q.role q.header) :
    (q.handler sur).run (exec sha) s = (.ok (createRejectMessage []), s) := by
  cases q <;> exact authenticated_refused h

end AuthRequest

/-! ### Requests that name no session -/

/-- The text decodes as an authenticated request, and no session of a role that its handler asks for has
its cookie and the nonce before its own. -/
inductive Unauthenticated (s : Server coll) (text : Text) : Prop
  | request {q : AuthRequest} : q.Decodes text → ¬Holds s q.role q.header → Unauthenticated s text
  | logOut {m : LogOutMessage} : getActionType text = .ok .logOut →
      LogOutMessage.deserialize text = .ok m → (∀ r, ¬Holds s r m.toAuthenticatedMessage) →
      Unauthenticated s text

section Refused

variable {s : Server coll} {text : Text}

theorem doLogoutAction_refused {m : LogOutMessage} (h : ∀ r, ¬Holds s r m.toAuthenticatedMessage) :
    (doLogoutAction m).run (exec sha) s = (.ok (createRejectMessage []), s) := by
  have hc : ∀ r, s.controller.isAuthenticationCorrect (r, m.username) m.sessionCookies m.nonce =
      false := by
    intro r
    rw [Bool.eq_false_iff]
    exact fun hc => h r (s.controller.isAuthenticationCorrect_iff.1 hc)
  simp only [doLogoutAction, Prog.call_bind, Prog.ret_bind, Prog.run_call, exec, hc,
    Bool.false_eq_true, if_false]
  rfl

theorem Unauthenticated.run (h : Unauthenticated s text) (sur : Surroundings) (ssl : SSL) :
    (messageHandler sur ssl text).run (exec sha) s = (.ok (createRejectMessage []), s) := by
  cases h with
  | request hq hno =>
    rw [hq.messageHandler_eq]
    exact AuthRequest.handler_refused _ hno
  | logOut haction hm hno =>
    simp only [messageHandler, haction, Prog.ofExcept_ok, Prog.ret_bind, handleAction, hm]
    exact doLogoutAction_refused hno

end Refused

/-- **A failed authentication changes nothing and tells nothing**: in any two states, any two requests
without a session get the same answer. -/
theorem refused_alike {coll' : Text → Text} {s : Server coll} {s' : Server coll'} {text text' : Text}
    (h : Unauthenticated s text) (h' : Unauthenticated s' text') (sur sur' : Surroundings)
    (ssl ssl' : SSL) :
    ∃ reply, (messageHandler sur ssl text).run (exec sha) s = (.ok reply, s) ∧
      (messageHandler sur' ssl' text').run (exec sha) s' = (.ok reply, s') :=
  ⟨createRejectMessage [], h.run sur ssl, h'.run sur' ssl'⟩

/-- A purchase sent a second time, and a log-out of somebody who never logged in. -/
theorem refused_alike_replay :
    ∃ reply, (messageHandler (surroundings 0) 1 (buys 7)).run (exec sha256) bothIn.2 =
        (.ok reply, bothIn.2) ∧
      (messageHandler (surroundings 0) 1 (LogOutMessage.serialize { fromAna with })).run (exec sha256)
        opened = (.ok reply, opened) := by
  have hbuys : AuthRequest.Decodes (buys 7) (.buyTicket
      { username := ana
        sessionCookies := AuthenticatedMessage.generateCookie (surroundings 0)
        nonce := AuthenticatedMessage.generateNonce (surroundings 0) + 2
        ticketId := 7
        eventName := websummit }) := ⟨by decide +kernel, by decide +kernel⟩
  have hspent : ¬Holds bothIn.2 .user
      { username := ana
        sessionCookies := AuthenticatedMessage.generateCookie (surroundings 0)
        nonce := AuthenticatedMessage.generateNonce (surroundings 0) + 2 } := by
    intro h
    exact absurd ((Controller.isAuthenticationCorrect_iff _).2 h) (by decide +kernel)
  have hstranger : ∀ r, ¬Holds opened r fromAna := fun _ h => Option.some_ne_none _ h.symm
  obtain ⟨haction, hm⟩ := LogOutMessage.arrives fromAna_sound
  exact refused_alike (.request hbuys hspent) (.logOut haction hm hstranger) _ _ _ _

/-! ### What the handlers catch -/

/-- What the `catch` blocks of the handlers take. -/
def Caught (x : Exn) : Prop := ∃ what, x = .invalidArgument what

theorem throws_buyTicket (T e u : ℤ) (env : Env) :
    (TicketService.buyTicket sha T e u env).Throws Caught := by
  have hcaught : ∀ what, Caught (.invalidArgument what) := fun what => ⟨what, rfl⟩
  simp only [TicketService.buyTicket, Prog.call_bind, Prog.ret_bind]
  intro owned
  dsimp only
  split
  · exact hcaught _
  intro response
  cases response with
  | none => exact hcaught _
  | some ti =>
    dsimp only
    split
    · exact hcaught _
    intro unavailable
    cases unavailable with
    | false => exact hcaught _
    | true =>
      intro added
      cases added with
      | false => exact hcaught _
      | true =>
        intro resold
        cases resold with
        | false => trivial
        | true => exact fun _ _ _ => trivial

theorem throws_sellTicket {data : Text} (newPrice : Double)
    (h : ∀ what, Ticket.deserialize data ≠ .error (.outOfRange what)) :
    (TicketService.sellTicket sha data newPrice).Throws Caught := by
  have hcaught : ∀ what, Caught (.invalidArgument what) := fun what => ⟨what, rfl⟩
  simp only [TicketService.sellTicket, Prog.call_bind, Prog.ret_bind]
  cases hd : Ticket.deserialize data with
  | error x =>
    cases x with
    | invalidArgument what => exact hcaught what
    | outOfRange what => exact absurd hd (h what)
  | ok wt =>
    obtain ⟨_ | _, t⟩ := wt
    · exact hcaught _
    intro stored
    cases stored with
    | none => exact hcaught _
    | some hash =>
      dsimp only
      split
      · exact hcaught _
      split
      · exact hcaught _
      intro listed
      cases listed with
      | false => exact hcaught _
      | true =>
        intro recorded
        cases recorded with
        | false => exact hcaught _
        | true => trivial

/-- Where every row was issued for a ticket, the check of integrity finds a hash to take the code of. -/
theorem checkIntegrity_ok {db : TicketDB} (hI : RowsIssued sha db)
    (hlen : ∀ t : Ticket, 5 ≤ (sha t.serialize).length) (fails : TicketOp → Bool) (c ic : Text) :
    ∃ a, ((TicketService.checkIntegrity sha c ic).run (faulty fails) db).1 = .ok a := by
  unfold TicketService.checkIntegrity
  rw [Prog.call_bind, Prog.run_call]
  dsimp only [Prog.ret_bind]
  cases ha : (faulty fails (.getTicketHashByValidationCode (sha c)) db).1 with
  | none => exact ⟨_, rfl⟩
  | some hash =>
    have hfound : TicketRepository.getTicketHashByValidationCode (sha c) db = some hash := by
      cases hf : fails (.getTicketHashByValidationCode (sha c)) with
      | true =>
        rw [faulty_of_true hf] at ha
        cases ha
      | false =>
        rw [faulty_of_false hf] at ha
        exact ha
    obtain ⟨row, hrow, rfl⟩ := Option.map_eq_some_iff.1 hfound
    obtain ⟨t, ht⟩ := hI row (Table.find?_eq_some.1 hrow).1
    have h5 : 5 ≤ row.ticketHash.length := by
      rw [ht.hash]
      exact hlen t
    have hcode : TicketService.integrityCode row.ticketHash =
        .ok (row.ticketHash.take 5 ++ row.ticketHash.drop (row.ticketHash.length - 5)) :=
      if_neg (by omega)
    simp only [hcode, Prog.ofExcept_ok, Prog.ret_bind]
    split <;> exact ⟨_, rfl⟩

/-- Run in `s`, the program throws nothing but what the `catch` blocks take. -/
def CaughtIn (sha : Text → Text) {α : Type} (p : ServerProg α) (s : Server coll) : Prop :=
  ∀ x, (p.run (exec sha) s).1 = .error x → Caught x

section CaughtIn

variable {sur : Surroundings} {s : Server coll}

theorem CaughtIn.of_ok {α : Type} {p : ServerProg α} (h : ∃ a, (p.run (exec sha) s).1 = .ok a) :
    CaughtIn sha p s := by
  intro x hx
  obtain ⟨a, ha⟩ := h
  rw [ha] at hx
  cases hx

theorem CaughtIn.bind {α β : Type} {p : ServerProg α} {f : α → ServerProg β} (hp : CaughtIn sha p s)
    (hf : ∀ a (s : Server coll), CaughtIn sha (f a) s) : CaughtIn sha (p >>= f) s := by
  intro x hx
  rw [Prog.run_bind] at hx
  cases hrun : p.run (exec sha) s with
  | mk o s' =>
    rw [hrun] at hx
    cases o with
    | error x' =>
      cases hx
      exact hp x (by rw [hrun])
    | ok a => exact hf a s' x hx

theorem caughtIn_callTickets {c : Call} (h : ∀ x,
    ((c.service sha).run (faulty sur.ticketFails) s.tickets).1 = .error x → Caught x) :
    CaughtIn sha (callTickets sur c) s := by
  intro x hx
  rw [callTickets, Prog.run_call, Prog.run_ofExcept] at hx
  exact h x hx

theorem caughtIn_getEventByName (eventName : Text) (s : Server coll) :
    CaughtIn sha (callEvents sur (.getEventByName eventName)) s := by
  intro x hx
  rw [callEvents, Prog.run_call, Prog.run_ofExcept] at hx
  have hx' : (EventService.getEventByName sur.eventFails eventName s.events).1 = .error x := hx
  unfold EventService.getEventByName at hx'
  split at hx'
  · cases hx'
  · split at hx'
    · cases hx'
    · cases hx'
      exact ⟨_, rfl⟩

theorem caughtIn_getUserId (u : Text) (s : Server coll) :
    CaughtIn sha (callUsers sur (.getUserId u)) s := by
  intro x hx
  rw [callUsers, Prog.run_call, Prog.run_ofExcept] at hx
  have hx' : ((UserService.getUserId u).run (UserOp.faulty sur.userFails) s.users).1 = .error x := hx
  have hthrows : (UserService.getUserId u).Throws Caught := by
    simp only [UserService.getUserId, Prog.call_bind, Prog.ret_bind]
    intro id
    dsimp only
    split
    · exact ⟨_, rfl⟩
    · trivial
  exact hthrows.run hx'

/-- A handler that throws nothing else answers. -/
theorem reply_of_caughtIn {r : Role} {m : AuthenticatedMessage} {onError : String → ServerProg Text}
    {body : ServerProg Text} (hs : Holds s r m) (hb : CaughtIn sha body s)
    (he : ∀ what (s : Server coll), ∃ t, ((onError what).run (exec sha) s).1 = .ok t) :
    ∃ reply, ((authenticated r m onError body).run (exec sha) s).1 = .ok reply := by
  rw [authenticated_run hs, Prog.run_tryCatch]
  cases hrun : body.run (exec sha) s with
  | mk o s' =>
    cases o with
    | ok reply => exact ⟨reply, rfl⟩
    | error x =>
      obtain ⟨what, rfl⟩ := hb x (by rw [hrun])
      obtain ⟨t, ht⟩ := he what s'
      simp only [onInvalidArgument, Prog.run_bind]
      cases hrun' : (onError what).run (exec sha) s' with
      | mk o s'' =>
        rw [hrun'] at ht
        cases ht
        exact ⟨_, rfl⟩

end CaughtIn

/-! ### Requests that are answered -/

section Consumed

variable {sur : Surroundings} {s s' : Server coll} {o : Except Exn Text} {q : AuthRequest}

/-- The request got a reply of its session, accepting or rejecting, and used up its nonce; no other
session changed. -/
structure Consumed (q : AuthRequest) (s : Server coll) (o : Except Exn Text) (s' : Server coll) :
    Prop where
  reply : ∃ tag message, (tag = .acceptAuth ∨ tag = .rejectAuth) ∧
    o = .ok (writeHeader tag q.header ++ message)
  session : s'.controller.sessions q.key = some (q.header.sessionCookies, q.header.nonce)
  others : ∀ k, k ≠ q.key → s'.controller.sessions k = s.controller.sessions k

/-- In the text of a ticket that is to be sold, a number out of range stands only behind a field that is
no number at all. -/
def AuthRequest.InRange : AuthRequest → Prop
  | .sellTicket m => Ticket.NoOverflow (m.ticket.splitOn '|')
  | _ => True

/-- A handler that returns has used up the nonce of its request. -/
theorem consumed_of_ok (hs : Holds s q.role q.header) {reply : Text}
    (h : ((q.handler sur).run (exec sha) s).1 = .ok reply) :
    Consumed q s ((q.handler sur).run (exec sha) s).1 ((q.handler sur).run (exec sha) s).2 := by
  obtain ⟨-, hans⟩ := q.answered hs (Amid.of_run (fun _ _ => rfl) (Prod.ext h rfl))
  obtain ⟨tag, message, htag, rfl⟩ := hans.reply
  exact ⟨⟨tag, message, htag, h⟩, hans.session, (answers_run q.answers_handler s).1⟩

/-- The `catch` block of a sale lets `std::out_of_range` through. -/
theorem doSellTicketAction_outOfRange {m : SellTicketMessage} {what : String}
    (hs : Holds s .user m.toAuthenticatedMessage)
    (hm : Ticket.deserialize m.ticket = .error (.outOfRange what)) :
    ((doSellTicketAction sur m).run (exec sha) s).1 = .error (.outOfRange what) := by
  have hsell : (TicketService.sellTicket sha m.ticket m.newPrice).run (faulty sur.ticketFails)
      s.tickets = (.error (.outOfRange what), s.tickets) := by
    rw [TicketService.sellTicket, hm]
    rfl
  rw [doSellTicketAction, authenticated_run hs]
  simp only [callTickets, Prog.call_bind, Prog.tryCatch_call, Prog.run_call, exec, Call.service, hsell]
  rfl

theorem errorText_ok (what : String) (s : Server coll) :
    ∃ t, ((errorText what).run (exec sha) s).1 = .ok t := ⟨what.toList, rfl⟩

/-- **Every handler answers**, if no number is out of range. -/
theorem reply_of_inRange (hI : RowsIssued sha s.tickets)
    (hlen : ∀ t : Ticket, 5 ≤ (sha t.serialize).length) (hs : Holds s q.role q.header)
    (hq : q.InRange) : ∃ reply, ((q.handler sur).run (exec sha) s).1 = .ok reply := by
  have haccept : ∀ (r : Role) (text u : Text) (s : Server coll),
      CaughtIn sha (createAcceptAuthMessageAs r text u) s :=
    fun r text u s => .of_ok ⟨_, rfl⟩
  have hanswer : ∀ (r : Role) (u : Text) (ok : Bool) (accepted rejected : Text) (s : Server coll),
      CaughtIn sha (if ok then createAcceptAuthMessageAs r accepted u
        else createRejectAuthMessageAs r rejected u) s := by
    intro r u ok accepted rejected s
    cases ok <;> exact .of_ok ⟨_, rfl⟩
  cases q with
  | getAvailableTickets m =>
    refine reply_of_caughtIn hs ?_ fun what s => ⟨_, rfl⟩
    refine (caughtIn_getEventByName _ _).bind fun event s => ?_
    refine (CaughtIn.of_ok ⟨_, rfl⟩).bind fun tickets s => ?_
    exact haccept _ _ _ _
  | buyTicket m =>
    refine reply_of_caughtIn hs ?_ errorText_ok
    refine (caughtIn_getEventByName _ _).bind fun event s => ?_
    refine (caughtIn_getUserId _ _).bind fun userId s => ?_
    refine (caughtIn_callTickets fun x hx => (throws_buyTicket _ _ _ _).run hx).bind fun t s => ?_
    exact haccept _ _ _ _
  | sellTicket m =>
    refine reply_of_caughtIn hs ?_ errorText_ok
    have hfree := (Ticket.outOfRange_free_iff m.ticket).2 hq
    refine (caughtIn_callTickets fun x hx => (throws_sellTicket _ hfree).run hx).bind fun _ s => ?_
    exact haccept _ _ _ _
  | validateTicket m =>
    refine reply_of_caughtIn hs ?_ errorText_ok
    have hthrows : (TicketService.validateTicket sha m.valCode).Throws Caught := by
      simp only [TicketService.validateTicket, Prog.call_bind, Prog.ret_bind]
      intro found
      rcases found with _ | ⟨info, _ | _⟩
      · trivial
      · exact fun _ => trivial
      · trivial
    refine (caughtIn_callTickets fun x hx => hthrows.run hx).bind fun (ok, info) s => ?_
    exact hanswer _ _ ok _ _ s
  | checkIntegrity m =>
    refine reply_of_caughtIn hs ?_ errorText_ok
    have hcheck : ∃ a, ((TicketService.checkIntegrity sha m.valCode m.integrityCode).run
        (faulty sur.ticketFails) s.tickets).1 = .ok a := checkIntegrity_ok hI hlen _ _ _
    refine CaughtIn.bind ?_ fun (ok, message) s => hanswer _ _ ok _ _ s
    refine caughtIn_callTickets fun x hx => ?_
    obtain ⟨a, ha⟩ := hcheck
    cases ha.symm.trans hx

/-- **An authenticated request uses up one nonce and is answered, exactly if it does not sell a ticket
whose text is read up to a number out of range.**  In the other case the exception leaves the handler. -/
theorem request_answered_iff {tickets : TicketDB} {users : UserDB coll} {events : EventDB coll}
    {h : ServerHistory} (hI : RowsIssued sha tickets)
    (hlen : ∀ t : Ticket, 5 ≤ (sha t.serialize).length)
    (run : ServerRun sha (Server.start tickets users events) h s) {text : Text}
    (hq : q.Decodes text) (hs : Holds s q.role q.header) (ssl : SSL) :
    Consumed q s ((messageHandler sur ssl text).run (exec sha) s).1
        ((messageHandler sur ssl text).run (exec sha) s).2 ↔ q.InRange := by
  rw [hq.messageHandler_eq]
  constructor
  · rintro ⟨⟨tag, message, -, hok⟩, -, -⟩
    cases q with
    | sellTicket m =>
      refine (Ticket.outOfRange_free_iff _).1 fun what hm => ?_
      cases hok.symm.trans (doSellTicketAction_outOfRange hs hm)
    | _ => trivial
  · intro hin
    obtain ⟨reply, hok⟩ := @reply_of_inRange _ _ sur _ _ (hI.of_run run) hlen hs hin
    exact consumed_of_ok hs hok

end Consumed

theorem decodes_anaSells :
    AuthRequest.Decodes (SellTicketMessage.serialize anaSells) (.sellTicket anaSells) :=
  ⟨by decide +kernel, by decide +kernel⟩

theorem holds_anaSells : Holds bothIn.2 .user anaSells.toAuthenticatedMessage :=
  (Controller.isAuthenticationCorrect_iff _).1 (by decide +kernel)

/-- User 5 sells the ticket that is hers. -/
theorem request_answered_sale :
    (AuthRequest.sellTicket anaSells).InRange ∧
      (Consumed (.sellTicket anaSells) bothIn.2
          ((messageHandler (surroundings 0) 1 (SellTicketMessage.serialize anaSells)).run (exec sha256)
            bothIn.2).1
          ((messageHandler (surroundings 0) 1 (SellTicketMessage.serialize anaSells)).run (exec sha256)
            bothIn.2).2 ↔ (AuthRequest.sellTicket anaSells).InRange) := by
  have hd : Ticket.deserialize anaSells.ticket = .ok (true, ticketOfUser5) := by decide +kernel
  refine ⟨?_, request_answered_iff (rowsIssued_empty _ _) five_le_sha256 serverRun_bothIn
    decodes_anaSells holds_anaSells 1⟩
  refine (Ticket.outOfRange_free_iff _).1 fun what hm => ?_
  cases hd.symm.trans hm

/-- What user 5 sends when the number of her ticket has eleven digits. -/
def anaSellsAnother : SellTicketMessage :=
  { anaSells with ticket := "99999999999|1|0|5|2024-12-30 18:5:9|40|86L|AAAAAAAAAA".toList }

/-- The ticket number does not fit an `int`: the exception leaves the handler, and nothing of the request
is answered. -/
theorem request_not_answered :
    ServerRun sha256 shared bothIn.1 bothIn.2 ∧
      AuthRequest.Decodes (SellTicketMessage.serialize anaSellsAnother) (.sellTicket anaSellsAnother) ∧
      Holds bothIn.2 .user anaSellsAnother.toAuthenticatedMessage ∧
      ((messageHandler (surroundings 0) 1 (SellTicketMessage.serialize anaSellsAnother)).run
        (exec sha256) bothIn.2).1 = .error (.outOfRange "stoi") ∧
      ¬Consumed (.sellTicket anaSellsAnother) bothIn.2
        ((messageHandler (surroundings 0) 1 (SellTicketMessage.serialize anaSellsAnother)).run
          (exec sha256) bothIn.2).1
        ((messageHandler (surroundings 0) 1 (SellTicketMessage.serialize anaSellsAnother)).run
          (exec sha256) bothIn.2).2 := by
  have hrun : ((messageHandler (surroundings 0) 1 (SellTicketMessage.serialize anaSellsAnother)).run
      (exec sha256) bothIn.2).1 = .error (.outOfRange "stoi") := by decide +kernel
  refine ⟨serverRun_bothIn, ⟨by decide +kernel, by decide +kernel⟩, holds_anaSells, hrun, ?_⟩
  rintro ⟨⟨tag, message, -, hok⟩, -, -⟩
  cases hrun.symm.trans hok

end TicketIST
