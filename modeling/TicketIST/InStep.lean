import TicketIST.Client
import TicketIST.Requests

/-!
# Client and server in step

Two counters are kept for every session: the client advances its own before it sends a request, the
server advances the other one when it builds the reply.  A request is accepted if the client is one
ahead, a reply if both are equal; so the session goes on only as long as every handler advances the
counter exactly once, whichever way it ends, and only if the numbers get through the encoders.

The runs here are those of one program, `Client` or `Validator`, from its log-in on.  Other connections
may do what they like at any moment, also between two steps of a handler, as long as they do not touch
the sessions of this name (`KeepsName`).  The step is `answered_of_request`, what a request gets from its
handler; from it follows by induction that a run never gets out of step (`in_step`).
-/

namespace TicketIST

open TicketIST.Lib ServerOp

variable {coll sha : Text → Text}

/-! ### Runs -/

/-- The ways to open a session, of `Client` and of `Validator`. -/
inductive Entry
  | signUp
  | logIn
  | logInValidator
  deriving DecidableEq

namespace Entry

def role : Entry → Role
  | signUp => .user
  | logIn => .user
  | logInValidator => .validator

def message : Entry → Credentials → Text
  | signUp => SignUpMessage.serialize
  | logIn => LogInMessage.serialize
  | logInValidator => LogInValidatorMessage.serialize

end Entry

/-- Whose menu has the choice. -/
def MenuRequest.role : MenuRequest → Role
  | getAvailableTickets _ => .user
  | buyTicket .. => .user
  | sellTicket .. => .user
  | validateTicket _ => .validator
  | checkIntegrity .. => .validator

/-- A request and its reply: the globals after `++nonce`, what the handler did and answered, and the
session that it left. -/
structure Exchange where
  client : Globals
  steps : List (Step ServerSig)
  reply : Text
  stored : Option (Text × ℤ)

/-- The runs of one program, whose session is found under `k`: a sign-up or a log-in that was accepted,
and any number of requests, each sent after the reply to the one before.  No handler throws.  The
validator's `authenticate` treats an accepted log-in as `getAndPrintAuthResponse` does; the choices of
`clientMenu` that send nothing leave the globals alone. -/
inductive ClientRun (sha : Text → Text) : SessionKey → List Exchange → Globals → Server coll → Prop
  | enter {e : Entry} {typed m : Credentials} {g₀ g : Globals} {sur ssl s steps reply s'} :
      readCredentials (e.message typed) = .ok m →
      (∀ r, s.controller.sessions (r, m.username) = none) →
      Amid (exec sha) (KeepsName m.username) (messageHandler sur ssl (e.message typed)) s steps
        (.ret reply) s' →
      Client.getAndPrintAuthResponse g₀ reply = (.acceptAuth, g) →
      ClientRun sha (e.role, m.username) [] g s'
  | request {k h g s} {q : MenuRequest} {sur ssl steps reply s'} : ClientRun sha k h g s →
      q.role = k.1 →
      Amid (exec sha) (KeepsName k.2) (messageHandler sur ssl (q.message g.next)) s steps
        (.ret reply) s' →
      ClientRun sha k (h ++ [⟨g.next, steps, reply, s'.controller.sessions k⟩]) g.next s'

/-- Both sides accept, and are left with the same nonce. -/
structure Exchange.Accepted (k : SessionKey) (x : Exchange) : Prop where
  request : ⟨isAuthenticationCorrect k x.client.cookie x.client.nonce, true⟩ ∈ x.steps
  reply : ∃ action m, Client.getActionType x.reply = .ok action ∧
    (action = .acceptAuth ∨ action = .rejectAuth) ∧
    AuthenticatedMessage.deserialize x.reply = .ok m ∧ x.client.isAuthenticationCorrect m = true
  stored : x.stored = some (x.client.cookie, x.client.nonce)

/-! ### What a decoder takes from the header -/

/-- The name and the cookie are taken as they are, the nonce is converted. -/
structure ReadAs (h : Header) (m : AuthenticatedMessage) : Prop where
  username : m.username = h.username
  sessionCookies : m.sessionCookies = h.sessionCookies
  nonce : stol h.nonce = .ok m.nonce

section Decoders

variable {data : Text}

theorem BuyTicketMessage.readAs {m : BuyTicketMessage} (hd : deserialize data = .ok m) :
    ∃ h ss, readHeader data ':' = some (h, ss) ∧ ReadAs h m.toAuthenticatedMessage := by
  simp only [deserialize, bind, Except.bind, pure, Except.pure] at hd
  repeat' split at hd
  all_goals cases hd
  exact ⟨_, _, ‹_›, rfl, rfl, ‹_›⟩

theorem CheckIntegrityMessage.readAs {m : CheckIntegrityMessage} (hd : deserialize data = .ok m) :
    ∃ h ss, readHeader data ':' = some (h, ss) ∧ ReadAs h m.toAuthenticatedMessage := by
  simp only [deserialize, bind, Except.bind, pure, Except.pure] at hd
  repeat' split at hd
  all_goals cases hd
  exact ⟨_, _, ‹_›, rfl, rfl, ‹_›⟩

theorem GetAvailableTicketsMessage.readAs {m : GetAvailableTicketsMessage}
    (hd : deserialize data = .ok m) :
    ∃ h ss, readHeader data ':' = some (h, ss) ∧ ReadAs h m.toAuthenticatedMessage := by
  simp only [deserialize, bind, Except.bind, pure, Except.pure] at hd
  repeat' split at hd
  all_goals cases hd
  exact ⟨_, _, ‹_›, rfl, rfl, ‹_›⟩

theorem SellTicketMessage.readAs {m : SellTicketMessage} (hd : deserialize data = .ok m) :
    ∃ h ss, readHeader data ':' = some (h, ss) ∧ ReadAs h m.toAuthenticatedMessage := by
  simp only [deserialize, bind, Except.bind, pure, Except.pure] at hd
  repeat' split at hd
  all_goals cases hd
  exact ⟨_, _, ‹_›, rfl, rfl, ‹_›⟩

theorem ValidateTicketMessage.readAs {m : ValidateTicketMessage} (hd : deserialize data = .ok m) :
    ∃ h ss, readHeader data ':' = some (h, ss) ∧ ReadAs h m.toAuthenticatedMessage := by
  simp only [deserialize, bind, Except.bind, pure, Except.pure] at hd
  repeat' split at hd
  all_goals cases hd
  exact ⟨_, _, ‹_›, rfl, rfl, ‹_›⟩

theorem LogOutMessage.readAs {m : LogOutMessage} (hd : deserialize data = .ok m) :
    ∃ h ss, readHeader data '\n' = some (h, ss) ∧ ReadAs h m.toAuthenticatedMessage := by
  simp only [deserialize, bind, Except.bind, pure, Except.pure] at hd
  repeat' split at hd
  all_goals cases hd
  exact ⟨_, _, ‹_›, rfl, rfl, ‹_›⟩

/-- A number that was converted was in range. -/
theorem stol_showInt_inv {n n' : ℤ} (h : stol (showInt n) = .ok n') :
    n' = n ∧ -2 ^ 63 ≤ n ∧ n < 2 ^ 63 := by
  by_cases hn : -2 ^ 63 ≤ n ∧ n < 2 ^ 63
  · rw [stol_showInt hn] at h
    cases h
    exact ⟨rfl, hn⟩
  · have hstr : strtol (showInt n) = some n := by
      have hs := strtol_numeral (t := []) (intNumeral_showInt n) (by simp)
      rwa [List.append_nil] at hs
    simp only [stol, stoInt, hstr, if_neg hn] at h
    cases h

/-- What is decoded of a header that was written is the header, and its nonce is in range. -/
theorem ReadAs.eq {tag : ActionType} {a m : AuthenticatedMessage} (h : ReadAs (a.header tag) m)
    (hu : ':' ∉ a.username) (hc : ':' ∉ a.sessionCookies) : m = a ∧ a.Sound := by
  obtain ⟨hnonce, hrange⟩ := stol_showInt_inv h.nonce
  obtain ⟨username, sessionCookies, nonce⟩ := m
  obtain rfl : username = a.username := h.username
  obtain rfl : sessionCookies = a.sessionCookies := h.sessionCookies
  obtain rfl : nonce = a.nonce := hnonce
  exact ⟨rfl, hu, hc, hrange⟩

/-- The same for a request of the menus. -/
theorem eq_of_readHeader {tag : ActionType} {a m : AuthenticatedMessage} {rest : Text}
    (hu : ':' ∉ a.username) (hc : ':' ∉ a.sessionCookies)
    (hm : ∃ h ss, readHeader (writeHeader tag a ++ rest) ':' = some (h, ss) ∧ ReadAs h m) :
    m = a ∧ a.Sound := by
  obtain ⟨h, ss, hread, hm⟩ := hm
  rw [readHeader_writeHeader hu hc] at hread
  cases hread
  exact hm.eq hu hc

end Decoders

/-! ### One exchange -/

section Exchanges

variable {g : Globals} {s s' : Server coll} {steps : List (Step ServerSig)} {reply : Text}
  {sur : Surroundings} {ssl : SSL}

theorem amid_handleAction {rely : Server coll → Server coll → Prop} {text : Text}
    (action : ActionType) (ha : getActionType text = .ok action)
    (h : Amid (exec sha) rely (messageHandler sur ssl text) s steps (.ret reply) s') :
    Amid (exec sha) rely (handleAction sur action ssl text) s steps (.ret reply) s' := by
  rw [messageHandler, ha] at h
  exact h

/-- What the server makes of a request of the menu. -/
theorem request_of_message (q : MenuRequest) (hu : ':' ∉ g.username) (hc : ':' ∉ g.cookie)
    {rely : Server coll → Server coll → Prop}
    (h : Amid (exec sha) rely (messageHandler sur ssl (q.message g)) s steps (.ret reply) s') :
    ∃ q' : AuthRequest, q'.role = q.role ∧ q'.header = g.header ∧ g.header.Sound ∧
      Amid (exec sha) rely (q'.handler sur) s steps (.ret reply) s' := by
  cases q with
  | getAvailableTickets eventName =>
    have h' := amid_handleAction .getAvailableTickets (getActionType_writeHeader _ _ _) h
    obtain ⟨m, hm, h'⟩ := h'.of_ofExcept
    obtain ⟨hma, hsound⟩ := eq_of_readHeader (a := g.header) hu hc (GetAvailableTicketsMessage.readAs hm)
    exact ⟨.getAvailableTickets m, rfl, hma, hsound, h'⟩
  | buyTicket ticketId eventName =>
    have h' := amid_handleAction .buyTicket (getActionType_writeHeader _ _ _) h
    obtain ⟨m, hm, h'⟩ := h'.of_ofExcept
    obtain ⟨hma, hsound⟩ := eq_of_readHeader (a := g.header) hu hc (BuyTicketMessage.readAs hm)
    exact ⟨.buyTicket m, rfl, hma, hsound, h'⟩
  | sellTicket ticketData newPrice =>
    have h' := amid_handleAction .sellTicket (getActionType_writeHeader _ _ _) h
    obtain ⟨m, hm, h'⟩ := h'.of_ofExcept
    obtain ⟨hma, hsound⟩ := eq_of_readHeader (a := g.header) hu hc (SellTicketMessage.readAs hm)
    exact ⟨.sellTicket m, rfl, hma, hsound, h'⟩
  | validateTicket validationCode =>
    have h' := amid_handleAction .validateTicket (getActionType_writeHeader _ _ _) h
    obtain ⟨m, hm, h'⟩ := h'.of_ofExcept
    obtain ⟨hma, hsound⟩ := eq_of_readHeader (a := g.header) hu hc (ValidateTicketMessage.readAs hm)
    exact ⟨.validateTicket m, rfl, hma, hsound, h'⟩
  | checkIntegrity valCode integrityCode =>
    have h' := amid_handleAction .checkIntegrity (getActionType_writeHeader _ _ _) h
    obtain ⟨m, hm, h'⟩ := h'.of_ofExcept
    obtain ⟨hma, hsound⟩ := eq_of_readHeader (a := g.header) hu hc (CheckIntegrityMessage.readAs hm)
    exact ⟨.checkIntegrity m, rfl, hma, hsound, h'⟩

/-- **What a request of the menu gets**, if its handler does not throw. -/
theorem answered_of_request (q : MenuRequest) (hu : ':' ∉ g.username) (hc : ':' ∉ g.cookie)
    (hs : Holds s q.role g.header)
    (h : Amid (exec sha) (KeepsName g.username) (messageHandler sur ssl (q.message g)) s steps
      (.ret reply) s') :
    g.header.Sound ∧ ⟨isAuthenticationCorrect (q.role, g.username) g.cookie g.nonce, true⟩ ∈ steps ∧
      Answered q.role g.header s s' reply := by
  obtain ⟨q', hrole, hheader, hsound, h'⟩ := request_of_message q hu hc h
  have hname : q'.header.username = g.username := by rw [hheader]; rfl
  rw [← hname] at h'
  have hs' : Holds s q'.role q'.header := by rw [hrole, hheader]; exact hs
  obtain ⟨hcheck, hans⟩ := q'.answered hs' h'
  rw [AuthRequest.key, hrole, hheader] at hcheck
  rw [hrole, hheader] at hans
  exact ⟨hsound, hcheck, hans⟩

/-! ### The log-in -/

/-- The client finds the type that an encoder wrote. -/
theorem Client.getActionType_tag (tag : ActionType) (rest : Text) :
    Client.getActionType (showInt tag.toInt ++ ':' :: rest) = .ok tag := by
  rw [Client.getActionType, cut_append (colon_not_mem_showInt _)]
  dsimp only
  rw [stoi_tag]
  exact congrArg Except.ok (ActionType.ofInt_toInt tag)

theorem Client.getActionType_writeHeader (tag : ActionType) (m : AuthenticatedMessage) (rest : Text) :
    Client.getActionType (writeHeader tag m ++ rest) = .ok tag := by
  rw [writeHeader_append]
  exact Client.getActionType_tag tag _

/-- The check of the client passes on every reply with the header of its globals. -/
theorem Globals.isAuthenticationCorrect_header (g : Globals) :
    g.isAuthenticationCorrect g.header = true := by
  simp [isAuthenticationCorrect, header]

/-- A reply with the header of the client's globals is shown, by both programs. -/
theorem shown_of_reply (hg : g.header.Sound) {tag : ActionType}
    (htag : tag = .acceptAuth ∨ tag = .rejectAuth) {message : Text} (hne : message ≠ []) :
    Client.getAndPrintServerResponse g (writeHeader tag g.header ++ message) =
        .ok (tag, message ++ ['\n']) ∧
      Validator.printServerResponse g (writeHeader tag g.header ++ message) =
        .ok (message ++ ['\n']) := by
  have haction := Client.getActionType_writeHeader tag g.header message
  have hdec := AuthenticatedMessage.deserialize_writeHeader hg tag message
  have hread := readAuthReply_writeHeader hg tag hne
  have hcheck := g.isAuthenticationCorrect_header
  rcases htag with rfl | rfl
  · simp only [Client.getAndPrintServerResponse, Validator.printServerResponse, haction, hdec, hcheck,
      AcceptAuthMessage.deserialize, hread, Functor.map, Except.map, bind, Except.bind, pure,
      Except.pure, true_or, if_true, and_self]
  · simp only [Client.getAndPrintServerResponse, Validator.printServerResponse, haction, hdec, hcheck,
      RejectAuthMessage.deserialize, hread, Functor.map, Except.map, bind, Except.bind, pure,
      Except.pure, or_true, if_true, reduceCtorEq, if_false, and_self]

/-- A rejected log-in is not taken for an accepted one. -/
theorem Client.not_acceptAuth_of_reject (g : Globals) (message : Text) :
    (getAndPrintAuthResponse g (RejectMessage.serialize message)).1 ≠ .acceptAuth := by
  have hread : RejectMessage.deserialize (RejectMessage.serialize message) = .ok message := by
    rw [RejectMessage.deserialize, readMessage, RejectMessage.serialize,
      cut_append (colon_not_mem_showInt _)]
  have htag : Client.getActionType (RejectMessage.serialize message) = .ok .reject :=
    getActionType_tag .reject message
  simp only [getAndPrintAuthResponse, htag, hread, bind, Except.bind, pure, Except.pure]
  decide

theorem Client.getAndPrintAuthResponse_of_accept {m : AuthenticatedMessage} (hm : m.Sound)
    {message : Text} (hne : message ≠ []) :
    getAndPrintAuthResponse g (AcceptAuthMessage.serialize message m) =
      (.acceptAuth, ⟨m.username, m.sessionCookies, m.nonce⟩) := by
  have htag : Client.getActionType (AcceptAuthMessage.serialize message m) = .ok .acceptAuth :=
    getActionType_writeHeader .acceptAuth m message
  simp only [getAndPrintAuthResponse, htag, AcceptAuthMessage.deserialize_serialize hm hne, bind,
    Except.bind, pure, Except.pure]

theorem AuthenticatedMessage.colon_not_mem_generateCookie : ':' ∉ generateCookie sur := by
  have hall : ∀ n : Fin 62, charset.getD n '0' ≠ ':' := by decide
  intro h
  rcases List.mem_append.1 h with h | h
  · revert h
    decide
  · obtain ⟨i, -, hi⟩ := List.mem_map.1 h
    exact hall _ hi

/-- The session that a log-in opens, as the client gets it. -/
def AuthenticatedMessage.opened (sur : Surroundings) (u : Text) : AuthenticatedMessage :=
  { username := u, sessionCookies := generateCookie sur, nonce := generateNonce sur + 1 }

theorem AuthenticatedMessage.opened_sound {u : Text} (hu : ':' ∉ u) : (opened sur u).Sound := by
  refine ⟨hu, colon_not_mem_generateCookie, ?_⟩
  simp only [opened, generateNonce]
  omega

/-- What follows the credential check of a sign-up or a log-in, among others. -/
theorem welcome_amid {r : Role} {u failure : Text} {ok : Bool}
    (h : Amid (exec sha) (KeepsName u) (welcome sur r ssl u failure ok) s steps (.ret reply) s') :
    reply = createRejectMessage failure ∨
      reply = AcceptAuthMessage.serialize ("Hello, ".toList ++ u ++ "!\n".toList) (.opened sur u) ∧
      s'.controller.sessions (r, u) =
        some (AuthenticatedMessage.generateCookie sur, AuthenticatedMessage.generateNonce sur + 1) ∧
      ∀ r', r' ≠ r → s'.controller.sessions (r', u) = s.controller.sessions (r', u) := by
  cases ok with
  | false => exact .inl h.of_ret.1
  | true =>
    simp only [welcome, if_true, Prog.call_bind, Prog.ret_bind, authenticateAs,
      createAcceptAuthMessageAs, Prog.pure_eq] at h
    obtain ⟨s₁, _, hr₁, -, h⟩ := h.of_call
    obtain ⟨s₂, _, hr₂, -, h⟩ := h.of_call
    have hs₃ : (exec sha (authenticate (r, u) (AuthenticatedMessage.generateCookie sur)
        (AuthenticatedMessage.generateNonce sur)) s₂).2.controller.sessions (r, u) =
        some (AuthenticatedMessage.generateCookie sur, AuthenticatedMessage.generateNonce sur) :=
      Controller.sessions_set_self _ _ _
    obtain ⟨rfl, hsession, hothers⟩ := amid_advance hs₃ h
    refine .inr ⟨rfl, hsession, ?_⟩
    intro r' hne
    have hkey : (r', u) ≠ (r, u) := fun h => hne (congrArg Prod.fst h)
    rw [hothers r' hne]
    exact (Controller.sessions_set_of_ne _ hkey _).trans ((hr₂ r').trans (hr₁ r'))

theorem amid_callUsers {u : Text} {c : UserCall} {f : c.Answer → ServerProg Text}
    (h : Amid (exec sha) (KeepsName u) (callUsers sur c >>= f) s steps (.ret reply) s') :
    ∃ s₁ steps' a, KeepsName u s s₁ ∧
      Amid (exec sha) (KeepsName u) (f a) s₁ steps' (.ret reply) s' := by
  simp only [callUsers, Prog.call_bind] at h
  obtain ⟨s₁, steps', hr, -, h⟩ := h.of_call
  obtain ⟨a, -, h⟩ := h.of_ofExcept
  exact ⟨(exec sha (userService sur.userFails c) s₁).2, steps', a, hr, h⟩

/-- Every way to open a session is a credential check and a welcome. -/
theorem welcome_of_enter {e : Entry} {typed m : Credentials}
    (hm : readCredentials (e.message typed) = .ok m)
    (h : Amid (exec sha) (KeepsName m.username) (messageHandler sur ssl (e.message typed)) s steps
      (.ret reply) s') :
    ∃ s₁ steps' failure ok, KeepsName m.username s s₁ ∧ Amid (exec sha) (KeepsName m.username)
      (welcome sur e.role ssl m.username failure ok) s₁ steps' (.ret reply) s' := by
  cases e with
  | signUp =>
    obtain ⟨m', hm', h⟩ := (amid_handleAction .signUp (getActionType_tag _ _) h).of_ofExcept
    obtain rfl : m = m' := Except.ok.inj (hm.symm.trans hm')
    obtain ⟨s₁, steps', ok, hr, h⟩ := amid_callUsers h
    exact ⟨s₁, steps', _, ok, hr, h⟩
  | logIn =>
    obtain ⟨m', hm', h⟩ := (amid_handleAction .logIn (getActionType_tag _ _) h).of_ofExcept
    obtain rfl : m = m' := Except.ok.inj (hm.symm.trans hm')
    obtain ⟨s₁, steps', ok, hr, h⟩ := amid_callUsers h
    exact ⟨s₁, steps', _, ok, hr, h⟩
  | logInValidator =>
    obtain ⟨m', hm', h⟩ := (amid_handleAction .logInValidator (getActionType_tag _ _) h).of_ofExcept
    obtain rfl : m = m' := Except.ok.inj (hm.symm.trans hm')
    obtain ⟨s₁, steps', ok, hr, h⟩ := amid_callUsers h
    exact ⟨s₁, steps', _, ok, hr, h⟩

theorem colon_not_mem_of_readCredentials {text : Text} {m : Credentials}
    (hm : readCredentials text = .ok m) : ':' ∉ m.username := by
  unfold readCredentials at hm
  split at hm
  · split at hm
    · next hcut =>
      cases hm
      exact (eq_of_cut hcut).2
    · cases hm
  · cases hm

/-! ### In step -/

/-- The client's globals are those of its session, the only one of its name. -/
structure InStep (k : SessionKey) (g : Globals) (s : Server coll) : Prop where
  name : k.2 = g.username
  username : ':' ∉ g.username
  cookie : ':' ∉ g.cookie
  session : s.controller.sessions k = some (g.cookie, g.nonce)
  alone : ∀ r, r ≠ k.1 → s.controller.sessions (r, k.2) = none

/-- The next request of the client names its session. -/
theorem holds_next {r : Role}
    (hs : s.controller.sessions (r, g.username) = some (g.cookie, g.nonce)) :
    Holds s r g.next.header := by
  have hn : g.next.header.nonce - 1 = g.nonce := Int.add_sub_cancel g.nonce 1
  rw [Holds, hn]
  exact hs

/-- **An accepted log-in leaves client and server in step.** -/
theorem inStep_of_enter {e : Entry} {typed m : Credentials} {g₀ : Globals}
    (hm : readCredentials (e.message typed) = .ok m)
    (halone : ∀ r, s.controller.sessions (r, m.username) = none)
    (h : Amid (exec sha) (KeepsName m.username) (messageHandler sur ssl (e.message typed)) s steps
      (.ret reply) s')
    (hg : Client.getAndPrintAuthResponse g₀ reply = (.acceptAuth, g)) :
    InStep (e.role, m.username) g s' := by
  obtain ⟨s₁, steps', failure, ok, hr, h⟩ := welcome_of_enter hm h
  rcases welcome_amid h with rfl | ⟨rfl, hsession, hothers⟩
  · exact absurd (congrArg Prod.fst hg) (Client.not_acceptAuth_of_reject g₀ failure)
  · have hu := colon_not_mem_of_readCredentials hm
    have hne : "Hello, ".toList ++ m.username ++ "!\n".toList ≠ [] := by simp
    rw [Client.getAndPrintAuthResponse_of_accept (AuthenticatedMessage.opened_sound hu) hne] at hg
    cases hg
    refine ⟨rfl, hu, AuthenticatedMessage.colon_not_mem_generateCookie, hsession, ?_⟩
    intro r hne
    rw [hothers r hne, hr r]
    exact halone r

/-- **One exchange keeps client and server in step**, and both accept. -/
theorem InStep.request {k : SessionKey} (hI : InStep k g s) {q : MenuRequest} (hq : q.role = k.1)
    (h : Amid (exec sha) (KeepsName k.2) (messageHandler sur ssl (q.message g.next)) s steps
      (.ret reply) s') :
    InStep k g.next s' ∧
      Exchange.Accepted k ⟨g.next, steps, reply, s'.controller.sessions k⟩ := by
  obtain ⟨r, u⟩ := k
  obtain ⟨rfl, hu, hc, hsession, halone⟩ := hI
  obtain rfl : q.role = r := hq
  have hs : Holds s q.role g.next.header := holds_next hsession
  obtain ⟨hsound, hcheck, hans⟩ := answered_of_request (g := g.next) q hu hc hs h
  obtain ⟨tag, message, htag, rfl⟩ := hans.reply
  refine ⟨⟨rfl, hu, hc, hans.session, ?_⟩, hcheck, ?_, hans.session⟩
  · intro r hne
    exact (hans.others r hne).trans (halone r hne)
  · refine ⟨tag, g.next.header, Client.getActionType_writeHeader _ _ _, htag,
      AuthenticatedMessage.deserialize_writeHeader hsound tag message, ?_⟩
    exact g.next.isAuthenticationCorrect_header

/-- A check of the session `k`, and then its end. -/
theorem amid_logout {k : SessionKey} {cookie : Text} {nonce : ℤ} {p : ServerProg Text}
    (hs : s.controller.sessions k = some (cookie, nonce - 1))
    (h : Amid (exec sha) (KeepsName k.2) (.call (.isAuthenticationCorrect k cookie nonce) fun ok =>
      if ok then .call (.logout k) fun _ => .ret (createAcceptMessage "Log-out successful.\n".toList)
      else p) s steps (.ret reply) s') :
    ⟨isAuthenticationCorrect k cookie nonce, true⟩ ∈ steps ∧
      reply = createAcceptMessage "Log-out successful.\n".toList ∧
      s'.controller.sessions k = none := by
  obtain ⟨s₁, steps', -, rfl, hk⟩ := amid_check hs h
  obtain ⟨s₂, steps'', -, rfl, hk'⟩ := hk.of_call
  obtain ⟨rfl, -, hr⟩ := hk'.of_ret
  exact ⟨List.mem_cons_self, rfl, (hr k.1).trans (Controller.sessions_set_self _ _ _)⟩

/-- **The log-out of a client in step is accepted**, and ends its session. -/
theorem InStep.logout {k : SessionKey} (hI : InStep k g s)
    (h : Amid (exec sha) (KeepsName k.2) (messageHandler sur ssl (Client.logout g.next)) s steps
      (.ret reply) s') :
    ⟨isAuthenticationCorrect k g.next.cookie g.next.nonce, true⟩ ∈ steps ∧
      reply = createAcceptMessage "Log-out successful.\n".toList ∧
      s'.controller.sessions k = none := by
  obtain ⟨r, u⟩ := k
  obtain ⟨rfl, hu, hc, hsession, halone⟩ := hI
  obtain ⟨m, hm, h⟩ := (amid_handleAction .logOut (getActionType_tag _ _) h).of_ofExcept
  obtain ⟨hd, ss, hread, hm⟩ := LogOutMessage.readAs hm
  have hlast : getline? { rest := showInt g.next.header.nonce } '\n' =
      some (showInt g.next.header.nonce, { rest := [], eof := true }) :=
    getline?_last (newline_not_mem_showInt _) (showInt_ne_nil _)
  have hwritten : readHeader (Client.logout g.next) '\n' =
      some ({ g.next.header.header .logOut with nonce := showInt g.next.header.nonce },
        { rest := [], eof := true }) := readHeader_append (m := g.next.header) hu hc .logOut hlast
  cases hread.symm.trans hwritten
  have hm' : ReadAs (g.next.header.header .logOut) m.toAuthenticatedMessage := hm
  obtain ⟨hma, -⟩ := hm'.eq hu hc
  obtain ⟨m⟩ := m
  obtain rfl : m = g.next.header := hma
  cases r with
  | user => exact amid_logout (holds_next hsession) h
  | validator =>
    have hnone : s.controller.sessions (.user, g.username) = none := halone .user nofun
    obtain ⟨s₁, st, steps', hr₁, rfl, hk⟩ := amid_check_none hnone h
    have hs₁ : s₁.controller.sessions (.validator, g.username) = some (g.cookie, g.nonce) :=
      (hr₁ .validator).trans hsession
    obtain ⟨hcheck, hrest⟩ := amid_logout (holds_next hs₁) hk
    exact ⟨List.mem_cons_of_mem _ hcheck, hrest⟩

end Exchanges

/-! ### Every run -/

section

variable {k : SessionKey} {h : List Exchange} {g : Globals} {s : Server coll}

theorem ClientRun.inStep (run : ClientRun sha k h g s) : InStep k g s ∧ ∀ x ∈ h, x.Accepted k := by
  induction run with
  | enter hm halone h hg => exact ⟨inStep_of_enter hm halone h hg, by simp⟩
  | request _ hq h ih =>
    obtain ⟨hI, hall⟩ := ih
    obtain ⟨hI', hx⟩ := hI.request hq h
    refine ⟨hI', ?_⟩
    intro x hmem
    rcases List.mem_append.1 hmem with hmem | hmem
    · exact hall x hmem
    · rw [List.mem_singleton.1 hmem]
      exact hx

/-- **Client and server stay in step**: in every run both sides accept every exchange and are left with
the same nonce, and the log-out is accepted at any time. -/
theorem in_step (run : ClientRun sha k h g s) :
    InStep k g s ∧ (∀ x ∈ h, x.Accepted k) ∧
      ∀ sur ssl steps reply s', Amid (exec sha) (KeepsName k.2)
          (messageHandler sur ssl (Client.logout g.next)) s steps (.ret reply) s' →
        ⟨isAuthenticationCorrect k g.next.cookie g.next.nonce, true⟩ ∈ steps ∧
          reply = createAcceptMessage "Log-out successful.\n".toList ∧
          s'.controller.sessions k = none := by
  obtain ⟨hI, hall⟩ := run.inStep
  exact ⟨hI, hall, fun _ _ _ _ _ hout => hI.logout hout⟩

/-- An exchange while nobody else uses the server. -/
theorem ClientRun.request_alone (run : ClientRun sha k h g s) {q : MenuRequest} (hq : q.role = k.1)
    {sur : Surroundings} {ssl : SSL} {reply : Text}
    (hr : ((messageHandler sur ssl (q.message g.next)).run (exec sha) s).1 = .ok reply) :
    ClientRun sha k (h ++ [⟨g.next, (messageHandler sur ssl (q.message g.next)).trace (exec sha) s,
      reply, ((messageHandler sur ssl (q.message g.next)).run (exec sha) s).2.controller.sessions k⟩])
      g.next ((messageHandler sur ssl (q.message g.next)).run (exec sha) s).2 :=
  run.request hq (Amid.of_run (fun _ _ => rfl) (Prod.ext hr rfl))

end

/-- The globals of `ana` after her log-in. -/
def anasGlobals : Globals :=
  { username := ana
    cookie := AuthenticatedMessage.generateCookie (surroundings 0)
    nonce := AuthenticatedMessage.generateNonce (surroundings 0) + 1 }

def MenuRequest.buysSeat7 : MenuRequest := buyTicket 7 websummit

/-- The server after the log-in of `ana`, and after she bought seat 7. -/
def anaIn : Server lower :=
  ((messageHandler (surroundings 0) 1 (Entry.logIn.message ⟨ana, secret⟩)).run (exec sha256) opened).2

def anaServed : Server lower :=
  ((messageHandler (surroundings 0) 1 (MenuRequest.buysSeat7.message anasGlobals.next)).run
    (exec sha256) anaIn).2

/-- User 5 logs in, buys seat 7, and tries to buy it again. -/
theorem in_step_ana : ∃ x y, ∃ s : Server lower,
    ClientRun sha256 (.user, ana) [x, y] anasGlobals.next.next s ∧
      Client.getActionType x.reply = .ok .acceptAuth ∧
      Client.getActionType y.reply = .ok .rejectAuth ∧
      InStep (.user, ana) anasGlobals.next.next s ∧
      x.Accepted (.user, ana) ∧ y.Accepted (.user, ana) := by
  have hread : readCredentials (Entry.logIn.message ⟨ana, secret⟩) = .ok ⟨ana, secret⟩ := by
    decide +kernel
  have hwelcomed : ((messageHandler (surroundings 0) 1 (Entry.logIn.message ⟨ana, secret⟩)).run
      (exec sha256) opened).1 =
        .ok (AcceptAuthMessage.serialize "Hello, ana!\n".toList anasGlobals.header) := by
    decide +kernel
  have hg : Client.getAndPrintAuthResponse ⟨[], [], 0⟩
      (AcceptAuthMessage.serialize "Hello, ana!\n".toList anasGlobals.header) =
        (.acceptAuth, anasGlobals) := by decide +kernel
  have hbought : ((messageHandler (surroundings 0) 1
      (MenuRequest.buysSeat7.message anasGlobals.next)).run (exec sha256) anaIn).1 =
        .ok (AcceptAuthMessage.serialize ticketOfUser5.serialize anasGlobals.next.header) := by
    decide +kernel
  have hrefused : ((messageHandler (surroundings 0) 1
      (MenuRequest.buysSeat7.message anasGlobals.next.next)).run (exec sha256) anaServed).1 =
        .ok (RejectAuthMessage.serialize
          "Ticket not found. Please revise available tickets.".toList
          anasGlobals.next.next.header) := by
    decide +kernel
  have run : ClientRun sha256 (.user, ana) [] anasGlobals anaIn :=
    .enter (e := .logIn) (s := opened) hread (fun _ => rfl)
      (Amid.of_run (fun _ _ => rfl) (Prod.ext hwelcomed rfl)) hg
  have run' := (run.request_alone (q := .buysSeat7) rfl hbought).request_alone (q := .buysSeat7) rfl
    hrefused
  obtain ⟨hI, hall, -⟩ := in_step run'
  exact ⟨_, _, _, run', Client.getActionType_writeHeader .acceptAuth _ _,
    Client.getActionType_writeHeader .rejectAuth _ _, hI, hall _ (by simp), hall _ (by simp)⟩

end TicketIST
