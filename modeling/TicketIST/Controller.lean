import TicketIST.Events
import TicketIST.Messages
import TicketIST.Stages
import TicketIST.Users

/-!
# The controller

`Controller` keeps the sessions, decodes what a connection sends and answers it.  A handler is a
program whose steps are the calls of the services and the single uses of the session maps; in these
steps the handlers of different connections interleave.  `handleClient` is the loop of a connection.

The controller keeps users and validators apart, in two maps and in functions that come in pairs; here
a `Role` says which of the two is meant, and each function of a pair is its common definition at one
role.
-/

namespace TicketIST

open TicketIST.Lib

/-! ### The state of the server -/

/-- The two kinds of accounts, each with a session map of its own. -/
inductive Role
  | user
  | validator
  deriving DecidableEq

/-- A session is found in the map of its role, under a username. -/
abbrev SessionKey := Role × Text

/-- The connections, by the address of their `SSL` object. -/
abbrev SSL := ℕ

structure Controller where
  /-- `auth_map` and `validator_map`: the cookie and the nonce -/
  sessions : SessionKey → Option (Text × ℤ)
  sslToUsername : SSL → Option Text

namespace Controller

variable (c : Controller)

/-- `isAuthenticationCorrect` and `isValidatorAuthenticationCorrect`. -/
def isAuthenticationCorrect (k : SessionKey) (cookie : Text) (nonce : ℤ) : Bool :=
  match c.sessions k with
  | none => false
  | some (stored, n) => stored = cookie && n + 1 = nonce

def set (k : SessionKey) (v : Option (Text × ℤ)) : Controller :=
  { c with sessions := Function.update c.sessions k v }

/-- The map entry that `authenticateUser` and `authenticateValidator` write. -/
def authenticate (k : SessionKey) (cookie : Text) (nonce : ℤ) : Controller :=
  c.set k (some (cookie, nonce))

/-- `logoutUser` and `logoutValidator`. -/
def logout (k : SessionKey) : Controller := c.set k none

/-- The two lookups of a reply's cookie and nonce.  `operator[]` enters an empty pair where there is
no session. -/
def advance (k : SessionKey) : (Text × ℤ) × Controller :=
  let (cookie, nonce) := (c.sessions k).getD ([], 0)
  ((cookie, nonce + 1), c.set k (some (cookie, nonce + 1)))

def saveSSL (ssl : SSL) (username : Text) : Controller :=
  { c with sslToUsername := Function.update c.sslToUsername ssl (some username) }

/-- `ssl_to_username[ssl]`, which enters the empty name where there is none. -/
def usernameOf (ssl : SSL) : Text × Controller :=
  let username := (c.sslToUsername ssl).getD []
  (username, c.saveSSL ssl username)

/-- `ssl_to_username.erase(ssl)` -/
def eraseSSL (ssl : SSL) : Controller :=
  { c with sslToUsername := Function.update c.sslToUsername ssl none }

theorem isAuthenticationCorrect_iff {k : SessionKey} {cookie : Text} {nonce : ℤ} :
    c.isAuthenticationCorrect k cookie nonce = true ↔
      c.sessions k = some (cookie, nonce - 1) := by
  unfold isAuthenticationCorrect
  cases c.sessions k with
  | none => simp
  | some v =>
    simp only [Bool.and_eq_true, decide_eq_true_eq, Option.some.injEq, Prod.ext_iff]
    exact and_congr_right fun _ => ⟨by omega, by omega⟩

@[simp] theorem sessions_set_self (k : SessionKey) (v) : (c.set k v).sessions k = v :=
  Function.update_self ..

theorem sessions_set_of_ne {k k' : SessionKey} (h : k' ≠ k) (v) :
    (c.set k v).sessions k' = c.sessions k' := Function.update_of_ne h ..

/-- The lookups of a reply that finds its session. -/
theorem advance_of_sessions {k : SessionKey} {cookie : Text} {n : ℤ}
    (h : c.sessions k = some (cookie, n)) :
    c.advance k = ((cookie, n + 1), c.set k (some (cookie, n + 1))) := by
  rw [advance, h]
  rfl

/-- An entry after a write is the one written, or one of another key from before. -/
theorem sessions_set_cases {c : Controller} {k k' : SessionKey} {v : Option (Text × ℤ)}
    {w : Text × ℤ} (h : (c.set k v).sessions k' = some w) :
    k' = k ∧ v = some w ∨ k' ≠ k ∧ c.sessions k' = some w := by
  by_cases hk : k' = k
  · subst hk
    rw [sessions_set_self] at h
    exact .inl ⟨rfl, h⟩
  · rw [sessions_set_of_ne c hk] at h
    exact .inr ⟨hk, h⟩

end Controller

structure Server (coll : Text → Text) where
  tickets : TicketDB
  users : UserDB coll
  events : EventState coll
  controller : Controller

/-- What handling one message takes from its surroundings: the clock and the generators' draws, and
which SQL statements fail. -/
structure Surroundings where
  env : Env
  nonceDist : Fin 9000000000
  cookieDist : ℕ → Fin 62
  ticketFails : TicketOp → Bool
  userFails : UserOp → Bool
  eventFails : Bool

namespace AuthenticatedMessage

def generateNonce (sur : Surroundings) : ℤ := 1000000000 + sur.nonceDist.val

def charset : Text :=
  ['0', '1', '2', '3', '4', '5', '6', '7', '8', '9',
   'A', 'B', 'C', 'D', 'E', 'F', 'G', 'H', 'I', 'J', 'K', 'L', 'M', 'N', 'O', 'P',
   'Q', 'R', 'S', 'T', 'U', 'V', 'W', 'X', 'Y', 'Z', 'a', 'b', 'c', 'd', 'e', 'f',
   'g', 'h', 'i', 'j', 'k', 'l', 'm', 'n', 'o', 'p', 'q', 'r', 's', 't', 'u', 'v',
   'w', 'x', 'y', 'z']

/-- 32 characters behind `COOKIE_`. -/
def generateCookie (sur : Surroundings) : Text :=
  ['C', 'O', 'O', 'K', 'I', 'E', '_'] ++
    (List.range 32).map fun i => charset.getD (sur.cookieDist i) '0'

end AuthenticatedMessage

/-! ### The steps of a handler -/

/-- A call of a service, a use of the session maps, or a reply sent. -/
inductive ServerOp
  | ticketService (fails : TicketOp → Bool) (c : Call)
  | userService (fails : UserOp → Bool) (c : UserCall)
  | eventService (fails : Bool) (c : EventCall)
  | isAuthenticationCorrect (k : SessionKey) (cookie : Text) (nonce : ℤ)
  | authenticate (k : SessionKey) (cookie : Text) (nonce : ℤ)
  | advance (k : SessionKey)
  | logout (k : SessionKey)
  | saveSSL (ssl : SSL) (username : Text)
  | usernameOf (ssl : SSL)
  | eraseSSL (ssl : SSL)
  | sendData (ssl : SSL) (data : Text)

@[reducible] def ServerOp.Ret : ServerOp → Type
  | ticketService _ c => Except Exn c.Answer
  | userService _ c => Except Exn c.Answer
  | eventService _ c => Except Exn c.Answer
  | isAuthenticationCorrect .. => Bool
  | authenticate .. => Unit
  | advance _ => Text × ℤ
  | logout _ => Unit
  | saveSSL .. => Unit
  | usernameOf _ => Text
  | eraseSSL _ => Unit
  | sendData .. => Unit

abbrev ServerSig : Sig := ⟨ServerOp, ServerOp.Ret⟩

abbrev ServerProg := Prog ServerSig Exn

variable {coll : Text → Text}

/-- The effect of each step, atomic on the whole server. -/
def ServerOp.exec (sha : Text → Text) : Machine ServerSig (Server coll)
  | .ticketService fails c, s =>
    let (a, tickets) := (c.service sha).run (faulty fails) s.tickets
    (a, { s with tickets })
  | .userService fails c, s =>
    let (a, users) := c.serve sha fails s.users
    (a, { s with users })
  | .eventService fails c, s =>
    let (a, events) := c.serve fails s.events
    (a, { s with events })
  | .isAuthenticationCorrect k cookie nonce, s =>
    (s.controller.isAuthenticationCorrect k cookie nonce, s)
  | .authenticate k cookie nonce, s =>
    ((), { s with controller := s.controller.authenticate k cookie nonce })
  | .advance k, s =>
    let (r, controller) := s.controller.advance k
    (r, { s with controller })
  | .logout k, s => ((), { s with controller := s.controller.logout k })
  | .saveSSL ssl username, s => ((), { s with controller := s.controller.saveSSL ssl username })
  | .usernameOf ssl, s =>
    let (r, controller) := s.controller.usernameOf ssl
    (r, { s with controller })
  | .eraseSSL ssl, s => ((), { s with controller := s.controller.eraseSSL ssl })
  | .sendData .., s => ((), s)

/-! ### The handlers -/

abbrev ServerOp.ask (op : ServerOp) : ServerProg op.Ret := .call op .ret

open ServerOp

section Handlers

variable (sur : Surroundings)

/-- A call of the ticket service; what it throws, the caller throws. -/
def callTickets (c : Call) : ServerProg c.Answer :=
  .call (.ticketService sur.ticketFails c) Prog.ofExcept

def callUsers (c : UserCall) : ServerProg c.Answer :=
  .call (.userService sur.userFails c) Prog.ofExcept

def callEvents (c : EventCall) : ServerProg c.Answer :=
  .call (.eventService sur.eventFails c) Prog.ofExcept

/-- `authenticateUser` and `authenticateValidator`. -/
def authenticateAs (r : Role) (username : Text) : ServerProg (Text × ℤ) := do
  let nonce := AuthenticatedMessage.generateNonce sur
  let cookie := AuthenticatedMessage.generateCookie sur
  let _ ← ask (.authenticate (r, username) cookie nonce)
  return (cookie, nonce)

def authenticateUser : Text → ServerProg (Text × ℤ) := authenticateAs sur .user
def authenticateValidator : Text → ServerProg (Text × ℤ) := authenticateAs sur .validator

def createAcceptMessage (message : Text) : Text := AcceptMessage.serialize message
def createRejectMessage (message : Text) : Text := RejectMessage.serialize message

/-- `createAcceptAuthMessage` and `createValidatorAcceptAuthMessage`. -/
def createAcceptAuthMessageAs (r : Role) (message username : Text) : ServerProg Text := do
  let (cookie, nonce) ← ask (.advance (r, username))
  return AcceptAuthMessage.serialize message { username, sessionCookies := cookie, nonce }

/-- `createRejectAuthMessage` and `createValidatorRejectAuthMessage`. -/
def createRejectAuthMessageAs (r : Role) (message username : Text) : ServerProg Text := do
  let (cookie, nonce) ← ask (.advance (r, username))
  return RejectAuthMessage.serialize message { username, sessionCookies := cookie, nonce }

def createAcceptAuthMessage : Text → Text → ServerProg Text := createAcceptAuthMessageAs .user
def createRejectAuthMessage : Text → Text → ServerProg Text := createRejectAuthMessageAs .user
def createValidatorAcceptAuthMessage : Text → Text → ServerProg Text :=
  createAcceptAuthMessageAs .validator
def createValidatorRejectAuthMessage : Text → Text → ServerProg Text :=
  createRejectAuthMessageAs .validator

/-- What follows the credential check in a sign-up and in both log-ins. -/
def welcome (r : Role) (ssl : SSL) (username failure : Text) (ok : Bool) : ServerProg Text := do
  if ok then
    let _ ← ask (.saveSSL ssl username)
    let _ ← authenticateAs sur r username
    createAcceptAuthMessageAs r ("Hello, ".toList ++ username ++ "!\n".toList) username
  else return createRejectMessage failure

def doSignUpAction (m : Credentials) (ssl : SSL) : ServerProg Text := do
  let ok ← callUsers sur (.signUp m.username m.password)
  welcome sur .user ssl m.username "Sign-up failed. Please try again.\n".toList ok

def doLogInAction (m : Credentials) (ssl : SSL) : ServerProg Text := do
  let ok ← callUsers sur (.loginUser m.username m.password)
  welcome sur .user ssl m.username "Log-in failed. Please try again.\n".toList ok

def doLogInValidatorAction (m : Credentials) (ssl : SSL) : ServerProg Text := do
  let ok ← callUsers sur (.loginValidator m.username m.password)
  welcome sur .validator ssl m.username "Log-in failed. Please try again.\n".toList ok

/-- The `catch` block of the authenticated handlers.  It takes `std::invalid_argument` only. -/
def onInvalidArgument (r : Role) (username : Text) (onError : String → ServerProg Text) :
    Exn → ServerProg Text
  | .invalidArgument what => do
    let message ← onError what
    createRejectAuthMessageAs r message username
  | .outOfRange what => .throw (.outOfRange what)

/-- The frame of the authenticated handlers: the check, and the `catch` block around it and the rest.
`isAuthenticationCorrect` gets its `message` by value, so a failed check is always answered with the
empty text. -/
def authenticated (r : Role) (m : AuthenticatedMessage) (onError : String → ServerProg Text)
    (body : ServerProg Text) : ServerProg Text :=
  Prog.tryCatch
    (do
      let ok ← ask (.isAuthenticationCorrect (r, m.username) m.sessionCookies m.nonce)
      if !ok then return createRejectMessage [] else body)
    (onInvalidArgument r m.username onError)

/-- `e.what()` -/
def errorText (what : String) : ServerProg Text := return what.toList

/-- The list that `doGetAvailableTicketsAction` sends. -/
def availableTickets (event : Event) (tickets : List TicketInfo) : Text :=
  if tickets.isEmpty then "No available tickets for ".toList ++ event.name ++ ".\n".toList
  else
    "Available tickets for ".toList ++ event.name ++ ":\n".toList ++
      "TicketID   | EventID    | SellerID   | Price       | Seat  \n".toList ++
      "-----------------------------------------------------------\n".toList ++
      tickets.flatMap (fun ticket => ticket.toString ++ ['\n']) ++
      "-----------------------------------------------------------\n".toList

def handleGetAvailableTicketsError : ServerProg Text := do
  let events ← callEvents sur .getEventCache
  let message := "Event not found. Available events are: ".toList ++
    events.flatMap fun e => e.1 ++ ", ".toList
  let message := if events.isEmpty then message else message.dropLast.dropLast
  return message ++ ['\n']

def doGetAvailableTicketsAction (m : GetAvailableTicketsMessage) : ServerProg Text :=
  authenticated .user m.toAuthenticatedMessage (fun _ => handleGetAvailableTicketsError sur) do
    let event ← callEvents sur (.getEventByName m.eventName)
    let tickets ← callTickets sur (.getAllAvailableTicketsByEventId event.id)
    createAcceptAuthMessage (availableTickets event tickets) m.username

def doBuyTicketAction (m : BuyTicketMessage) : ServerProg Text :=
  authenticated .user m.toAuthenticatedMessage errorText do
    let event ← callEvents sur (.getEventByName m.eventName)
    let userId ← callUsers sur (.getUserId m.username)
    let ticket ← callTickets sur (.buyTicket m.ticketId event.id userId sur.env)
    createAcceptAuthMessage ticket.serialize m.username

def doValidateTicketAction (m : ValidateTicketMessage) : ServerProg Text :=
  authenticated .validator m.toAuthenticatedMessage errorText do
    let (ok, info) ← callTickets sur (.validateTicket m.valCode)
    if ok then
      createValidatorAcceptAuthMessage
        ("Ticket validated successfully.\nTicket for seat:".toList ++ info ++ ['\n']) m.username
    else
      createValidatorRejectAuthMessage
        ("Ticket validation failed.\n".toList ++ info ++ ['\n']) m.username

def doCheckIntegrityAction (m : CheckIntegrityMessage) : ServerProg Text :=
  authenticated .validator m.toAuthenticatedMessage errorText do
    let (ok, message) ← callTickets sur (.checkIntegrity m.valCode m.integrityCode)
    if ok then createValidatorAcceptAuthMessage message m.username
    else createValidatorRejectAuthMessage message m.username

def doSellTicketAction (m : SellTicketMessage) : ServerProg Text :=
  authenticated .user m.toAuthenticatedMessage errorText do
    let _ ← callTickets sur (.sellTicket m.ticket m.newPrice)
    createAcceptAuthMessage "Ticket was sucessfully put on sale.\n".toList m.username

/-- `Controller::doLogoutAction`: the user of the name is tried before the validator. -/
def doLogoutAction (m : LogOutMessage) : ServerProg Text := do
  let user ← ask (.isAuthenticationCorrect (.user, m.username) m.sessionCookies m.nonce)
  if user then
    let _ ← ask (.logout (.user, m.username))
    return createAcceptMessage "Log-out successful.\n".toList
  else
    let validator ← ask
      (.isAuthenticationCorrect (.validator, m.username) m.sessionCookies m.nonce)
    if validator then
      let _ ← ask (.logout (.validator, m.username))
      return createAcceptMessage "Log-out successful.\n".toList
    else return createRejectMessage []

def handleAction (action : ActionType) (ssl : SSL) (receivedMessage : Text) : ServerProg Text :=
  match action with
  | .ticketSell => return []
  | .getAvailableTickets => do
    let m ← Prog.ofExcept (GetAvailableTicketsMessage.deserialize receivedMessage)
    doGetAvailableTicketsAction sur m
  | .buyTicket => do
    let m ← Prog.ofExcept (BuyTicketMessage.deserialize receivedMessage)
    doBuyTicketAction sur m
  | .logInValidator => do
    let m ← Prog.ofExcept (LogInValidatorMessage.deserialize receivedMessage)
    doLogInValidatorAction sur m ssl
  | .validateTicket => do
    let m ← Prog.ofExcept (ValidateTicketMessage.deserialize receivedMessage)
    doValidateTicketAction sur m
  | .checkIntegrity => do
    let m ← Prog.ofExcept (CheckIntegrityMessage.deserialize receivedMessage)
    doCheckIntegrityAction sur m
  | .logOut => do
    let m ← Prog.ofExcept (LogOutMessage.deserialize receivedMessage)
    doLogoutAction m
  | .sellTicket => do
    let m ← Prog.ofExcept (SellTicketMessage.deserialize receivedMessage)
    doSellTicketAction sur m
  | .accept => do
    let _ ← Prog.ofExcept (AcceptMessage.deserialize receivedMessage)
    return []
  | .reject => do
    let _ ← Prog.ofExcept (RejectMessage.deserialize receivedMessage)
    return []
  | .signUp => do
    let m ← Prog.ofExcept (SignUpMessage.deserialize receivedMessage)
    doSignUpAction sur m ssl
  | .logIn => do
    let m ← Prog.ofExcept (LogInMessage.deserialize receivedMessage)
    doLogInAction sur m ssl
  | .acceptAuth | .rejectAuth | .unknown => return []

end Handlers

def getActionType (message : Text) : Except Exn ActionType :=
  match cut ':' message with
  | none => .ok .unknown
  | some (actionInt, _) => ActionType.ofInt <$> stoi actionInt

def messageHandler (sur : Surroundings) (ssl : SSL) (receivedMessage : Text) : ServerProg Text := do
  let action ← Prog.ofExcept (getActionType receivedMessage)
  handleAction sur action ssl receivedMessage

def logoutUserBySSL (ssl : SSL) : ServerProg Unit := do
  let username ← ask (.usernameOf ssl)
  let _ ← ask (.logout (.user, username))
  ask (.eraseSSL ssl)

/-! ### The loop of a connection -/

/-- The `while` loop of `TLSServer::handleClient`, on the reads that succeed. -/
def clientLoop (ssl : SSL) : List (Surroundings × Text) → ServerProg Unit
  | [] => return ()
  | (sur, receivedMessage) :: reads =>
    match cut ':' receivedMessage with
    | none => ask (.sendData ssl (RejectMessage.serialize "Invalid message format.".toList))
    | some _ => do
      let response ← messageHandler sur ssl receivedMessage
      let _ ← ask (.sendData ssl response)
      clientLoop ssl reads

/-- `TLSServer::handleClient`.  Only an exception ends in the log-out: the other ways out of the loop
return before it. -/
def handleClient (ssl : SSL) (reads : List (Surroundings × Text)) : ServerProg Unit :=
  (clientLoop ssl reads).tryCatch fun _ => logoutUserBySSL ssl

/-- The server after its start: no sessions, and all events in the cache. -/
def Server.start (tickets : TicketDB) (users : UserDB coll) (events : EventDB coll) :
    Server coll where
  tickets := tickets
  users := users
  events := EventService.init events
  controller := { sessions := fun _ => none, sslToUsername := fun _ => none }

/-! ### What concrete runs use -/

def lower : Text → Text := List.map Char.toLower

def ana : Text := ['a', 'n', 'a']

def websummit : Text := ['w', 'e', 'b', 's', 'u', 'm', 'm', 'i', 't']

/-- A server just opened, with two seats and one account. -/
def opened : Server lower :=
  .start ⟨twoSeats, .empty, .empty⟩
    { users := ⟨[{ id := 5, username := ana, isValidator := false, password := sha256 secret }],
        by decide⟩
      nextId := 6
      validators := .empty }
    ⟨[{ id := 1, name := websummit }], by decide⟩

/-- Surroundings in which every draw is `n` and nothing fails. -/
def surroundings (n : Fin 62) : Surroundings :=
  { env := drawing n, nonceDist := ⟨n, by omega⟩, cookieDist := fun _ => n,
    ticketFails := fun _ => false, userFails := fun _ => false, eventFails := false }

def logsIn : Text := LogInMessage.serialize { username := ana, password := secret }

/-- The first request of the session that `surroundings 0` issues: user 5 buys seat `T`. -/
def buys (T : ℤ) : Text :=
  BuyTicketMessage.serialize
    { username := ana
      sessionCookies := AuthenticatedMessage.generateCookie (surroundings 0)
      nonce := AuthenticatedMessage.generateNonce (surroundings 0) + 2
      ticketId := T
      eventName := websummit }

end TicketIST
