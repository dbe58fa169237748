import TicketIST.Lib.Decimal

/-!
# Messages

What travels between client and server is text: fields separated by `:`, the first of them the number
of the message's type.  The decoders use `std::getline` on a string stream, or `find` and `substr`, and
turn the fields into numbers with `std::stoi`, `std::stol` and `std::stod`; each of these steps may
throw.
-/

namespace TicketIST

open TicketIST.Lib

/-- The type of a message. -/
inductive ActionType
  | signUp
  | logIn
  | logInValidator
  | ticketSell
  | getAvailableTickets
  | buyTicket
  | accept
  | reject
  | acceptAuth
  | rejectAuth
  | validateTicket
  | checkIntegrity
  | logOut
  | sellTicket
  | unknown
  deriving DecidableEq

namespace ActionType

/-- The types in the order of the enumeration. -/
def all : List ActionType :=
  [signUp, logIn, logInValidator, ticketSell, getAvailableTickets, buyTicket, accept, reject,
   acceptAuth, rejectAuth, validateTicket, checkIntegrity, logOut, sellTicket, unknown]

/-- `static_cast<int>`. -/
def toInt (a : ActionType) : ℤ := all.idxOf a

/-- `static_cast<ActionType>`.  A number that is not in the enumeration is treated as `UNKNOWN` is. -/
def ofInt : ℤ → ActionType
  | .ofNat n => all.getD n unknown
  | .negSucc _ => unknown

theorem ofInt_toInt (a : ActionType) : ofInt a.toInt = a := by cases a <;> rfl

end ActionType

/-! ### Requests -/

/-- The fields of every authenticated message. -/
structure AuthenticatedMessage where
  username : Text
  sessionCookies : Text
  nonce : ℤ
  deriving DecidableEq

structure BuyTicketMessage extends AuthenticatedMessage where
  ticketId : ℤ
  eventName : Text
  deriving DecidableEq

structure CheckIntegrityMessage extends AuthenticatedMessage where
  valCode : Text
  integrityCode : Text
  deriving DecidableEq

structure GetAvailableTicketsMessage extends AuthenticatedMessage where
  eventName : Text
  deriving DecidableEq

structure LogOutMessage extends AuthenticatedMessage where
  deriving DecidableEq

structure SellTicketMessage extends AuthenticatedMessage where
  ticket : Text
  newPrice : Double
  deriving DecidableEq

structure ValidateTicketMessage extends AuthenticatedMessage where
  valCode : Text
  deriving DecidableEq

/-- The fields of a sign-up and of both log-ins. -/
structure Credentials where
  username : Text
  password : Text
  deriving DecidableEq

/-- The fields that authenticated messages begin with, as they are read. -/
structure Header where
  action : Text
  username : Text
  sessionCookies : Text
  nonce : Text

/-- The first four reads of every authenticated message; the last of them ends at `delim`. -/
def readHeader (data : Text) (delim : Char) : Option (Header × IStream) := do
  let ss : IStream := { rest := data }
  let (action, ss) ← getline? ss ':'
  let (username, ss) ← getline? ss ':'
  let (sessionCookies, ss) ← getline? ss ':'
  let (nonce, ss) ← getline? ss delim
  return ({ action, username, sessionCookies, nonce }, ss)

/-- The check that a message has the type of its decoder. -/
def checkAction (tag : ActionType) (mismatch : String) (action : Text) : Except Exn Unit := do
  let actionType ← stoi action
  if actionType ≠ tag.toInt then throw (.invalidArgument mismatch)

def invalidFormat : Exn := .invalidArgument "Error: Invalid message format!"

def actionMismatch : String := "Error: ActionType mismatch during deserialization!"

def BuyTicketMessage.deserialize (data : Text) : Except Exn BuyTicketMessage := do
  let some (h, ss) := readHeader data ':' | throw invalidFormat
  let some (ticketIdStr, ss) := getline? ss ':' | throw invalidFormat
  let some (eventName, _) := getline? ss '\n' | throw invalidFormat
  checkAction .buyTicket actionMismatch h.action
  let nonce ← stol h.nonce
  let ticketId ← stoi ticketIdStr
  return { username := h.username, sessionCookies := h.sessionCookies, nonce, ticketId, eventName }

def CheckIntegrityMessage.deserialize (data : Text) : Except Exn CheckIntegrityMessage := do
  let some (h, ss) := readHeader data ':' | throw invalidFormat
  let some (valCode, ss) := getline? ss ':' | throw invalidFormat
  let some (integrityCode, _) := getline? ss '\n' | throw invalidFormat
  checkAction .checkIntegrity actionMismatch h.action
  let nonce ← stol h.nonce
  return { username := h.username, sessionCookies := h.sessionCookies, nonce, valCode,
           integrityCode }

/-- `GetAvailableTicketsMessage::deserialize`.  What the conversion of the nonce throws is replaced. -/
def GetAvailableTicketsMessage.deserialize (data : Text) :
    Except Exn GetAvailableTicketsMessage := do
  let missing : Exn := .invalidArgument "Error: Invalid message format! Missing fields."
  let some (h, ss) := readHeader data ':' | throw missing
  let some (eventName, _) := getline? ss '\n' | throw missing
  checkAction .getAvailableTickets actionMismatch h.action
  match stol h.nonce with
  | .ok nonce =>
    return { username := h.username, sessionCookies := h.sessionCookies, nonce, eventName }
  | .error _ => throw (.invalidArgument "Error: Invalid nonce format!")

def LogOutMessage.deserialize (data : Text) : Except Exn LogOutMessage := do
  let some (h, _) := readHeader data '\n' | throw invalidFormat
  checkAction .logOut "Error: Not a valid LogOutMessage!" h.action
  let nonce ← stol h.nonce
  return { username := h.username, sessionCookies := h.sessionCookies, nonce }

def SellTicketMessage.deserialize (data : Text) : Except Exn SellTicketMessage := do
  let some (h, ss) := readHeader data ':' | throw invalidFormat
  let some (newPriceStr, ss) := getline? ss ':' | throw invalidFormat
  let some (ticket, _) := getline? ss '\n' | throw invalidFormat
  checkAction .sellTicket "Error: Not a valid SellTicketMessage!" h.action
  let nonce ← stol h.nonce
  let newPrice ← stod newPriceStr
  return { username := h.username, sessionCookies := h.sessionCookies, nonce, ticket, newPrice }

def ValidateTicketMessage.deserialize (data : Text) : Except Exn ValidateTicketMessage := do
  let some (h, ss) := readHeader data ':' | throw invalidFormat
  let some (valCode, _) := getline? ss '\n' | throw invalidFormat
  checkAction .validateTicket actionMismatch h.action
  let nonce ← stol h.nonce
  return { username := h.username, sessionCookies := h.sessionCookies, nonce, valCode }

/-- What follows the first `:`, up to the next one and after it. -/
def readCredentials (serialized : Text) : Except Exn Credentials :=
  match cut ':' serialized with
  | some (_, rest) =>
    match cut ':' rest with
    | some (username, password) => .ok { username, password }
    | none => .error invalidFormat
  | none => .error invalidFormat

def SignUpMessage.deserialize : Text → Except Exn Credentials := readCredentials

def LogInMessage.deserialize : Text → Except Exn Credentials := readCredentials

def LogInValidatorMessage.deserialize : Text → Except Exn Credentials := readCredentials

/-- What follows the first `:`. -/
def readMessage (serialized : Text) : Except Exn Text :=
  match cut ':' serialized with
  | some (_, message) => .ok message
  | none => .error invalidFormat

def AcceptMessage.deserialize : Text → Except Exn Text := readMessage

def RejectMessage.deserialize : Text → Except Exn Text := readMessage

/-! ### Replies -/

def AcceptMessage.serialize (message : Text) : Text := showInt ActionType.accept.toInt ++ ':' :: message

def RejectMessage.serialize (message : Text) : Text := showInt ActionType.reject.toInt ++ ':' :: message

/-- A type and the fields of an authenticated message, each with its separator. -/
def writeHeader (tag : ActionType) (m : AuthenticatedMessage) : Text :=
  showInt tag.toInt ++ ':' :: (m.username ++ ':' :: (m.sessionCookies ++ ':' :: (showInt m.nonce ++
    [':'])))

def AcceptAuthMessage.serialize (message : Text) (m : AuthenticatedMessage) : Text :=
  writeHeader .acceptAuth m ++ message

def RejectAuthMessage.serialize (message : Text) (m : AuthenticatedMessage) : Text :=
  writeHeader .rejectAuth m ++ message

/-- The fields of an accepting and of a rejecting reply to an authenticated request. -/
structure AuthReply extends AuthenticatedMessage where
  message : Text
  deriving DecidableEq

/-- The decoder of both replies.  An empty message is refused. -/
def readAuthReply (tag : ActionType) (data : Text) : Except Exn AuthReply := do
  let some (actionTypeStr, data) := cut ':' data | throw invalidFormat
  checkAction tag actionMismatch actionTypeStr
  let some (username, data) := cut ':' data | throw invalidFormat
  let some (cookie, data) := cut ':' data | throw invalidFormat
  let some (nonceStr, message) := cut ':' data | throw invalidFormat
  let nonce ← stol nonceStr
  if message.isEmpty then throw invalidFormat
  return { username, sessionCookies := cookie, nonce, message }

def AcceptAuthMessage.deserialize : Text → Except Exn AuthReply := readAuthReply .acceptAuth

def RejectAuthMessage.deserialize : Text → Except Exn AuthReply := readAuthReply .rejectAuth

/-- `AuthenticatedMessage::deserialize`, which takes any type of message. -/
def AuthenticatedMessage.deserialize (data : Text) : Except Exn AuthenticatedMessage := do
  let some (h, _) := readHeader data '\n' | throw invalidFormat
  let nonce ← stol h.nonce
  return { username := h.username, sessionCookies := h.sessionCookies, nonce }

/-! ### What clients send -/

/-- A type, a username and a password. -/
def writeCredentials (tag : ActionType) (m : Credentials) : Text :=
  showInt tag.toInt ++ ':' :: (m.username ++ ':' :: m.password)

def SignUpMessage.serialize : Credentials → Text := writeCredentials .signUp

def LogInMessage.serialize (m : Credentials) : Text :=
  showInt ActionType.logIn.toInt ++ ':' :: (m.username ++ ':' :: m.password)

def LogInValidatorMessage.serialize : Credentials → Text := writeCredentials .logInValidator

def BuyTicketMessage.serialize (m : BuyTicketMessage) : Text :=
  writeHeader .buyTicket m.toAuthenticatedMessage ++ (showInt m.ticketId ++ ':' :: m.eventName)

def CheckIntegrityMessage.serialize (m : CheckIntegrityMessage) : Text :=
  writeHeader .checkIntegrity m.toAuthenticatedMessage ++ (m.valCode ++ ':' :: m.integrityCode)

def GetAvailableTicketsMessage.serialize (m : GetAvailableTicketsMessage) : Text :=
  writeHeader .getAvailableTickets m.toAuthenticatedMessage ++ m.eventName

/-- `LogOutMessage::serialize`: nothing follows the nonce, not even a separator. -/
def LogOutMessage.serialize (m : LogOutMessage) : Text :=
  showInt ActionType.logOut.toInt ++ ':' :: (m.username ++ ':' :: (m.sessionCookies ++ ':' ::
    showInt m.nonce))

def SellTicketMessage.serialize (m : SellTicketMessage) : Text :=
  writeHeader .sellTicket m.toAuthenticatedMessage ++ (showDouble m.newPrice ++ ':' :: m.ticket)

def ValidateTicketMessage.serialize (m : ValidateTicketMessage) : Text :=
  writeHeader .validateTicket m.toAuthenticatedMessage ++ m.valCode

example : BuyTicketMessage.deserialize "5:ana:COOKIE_x:1001:7:web:summit".toList =
    .ok { username := "ana".toList, sessionCookies := "COOKIE_x".toList, nonce := 1001,
          ticketId := 7, eventName := "web:summit".toList } := by decide +kernel

end TicketIST
