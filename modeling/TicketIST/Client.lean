import TicketIST.Messages
import TicketIST.TicketService

/-!
# The clients

`Client` and `Validator` keep the user's name, the cookie and the nonce of their session in globals.
This file has what they do with a reply, the messages that their menus send, and the path of a bought
ticket: out of the reply into a file, under two encryptions, and back again when its owner wants to see
its codes or to sell it.

OpenSSL and `std::hash` are parameters.  The files are not modelled: what is read from one is what was
written to it.
-/

namespace TicketIST

open TicketIST.Lib

/-! ### A session, as the client keeps it -/

/-- The globals of both programs. -/
structure Globals where
  username : Text
  cookie : Text
  nonce : ℤ
  deriving DecidableEq

namespace Globals

variable (g : Globals)

def isAuthenticationCorrect (message : AuthenticatedMessage) : Bool :=
  g.username = message.username && g.cookie = message.sessionCookies && g.nonce = message.nonce

/-- `++nonce` -/
def next : Globals := { g with nonce := g.nonce + 1 }

/-- The fields that the constructor of a request gets from the globals. -/
def header : AuthenticatedMessage :=
  { username := g.username, sessionCookies := g.cookie, nonce := g.nonce }

end Globals

namespace Client

/-- `getActionType` of the clients.  Unlike the controller's, it takes a message without `:` for a
`REJECT`. -/
def getActionType (receivedMessage : Text) : Except Exn ActionType :=
  match cut ':' receivedMessage with
  | none => .ok .reject
  | some (actionInt, _) => ActionType.ofInt <$> stoi actionInt

/-- The type of the reply to a sign-up or a log-in, and the globals after it. -/
def getAndPrintAuthResponse (g : Globals) (receivedMessage : Text) : ActionType × Globals :=
  let response : Except Exn (ActionType × Globals) := do
    match ← getActionType receivedMessage with
    | .reject =>
      let _ ← RejectMessage.deserialize receivedMessage
      return (.reject, g)
    | .acceptAuth =>
      let m ← AcceptAuthMessage.deserialize receivedMessage
      return (.acceptAuth, ⟨m.username, m.sessionCookies, m.nonce⟩)
    | action => return (action, g)
  match response with
  | .ok r => r
  | .error _ => (.unknown, g)

/-- The type of the reply to an authenticated request, and what is printed of it. -/
def getAndPrintServerResponse (g : Globals) (receivedMessage : Text) :
    Except Exn (ActionType × Text) := do
  let action ← getActionType receivedMessage
  let authenticated ←
    if action = .acceptAuth ∨ action = .rejectAuth then
      g.isAuthenticationCorrect <$> AuthenticatedMessage.deserialize receivedMessage
    else pure false
  if authenticated then
    let m ← if action = .acceptAuth then AcceptAuthMessage.deserialize receivedMessage
      else RejectAuthMessage.deserialize receivedMessage
    return (action, m.message ++ ['\n'])
  else if action = .reject then
    let message ← RejectMessage.deserialize receivedMessage
    return (action, message ++ ['\n'])
  else return (.unknown, "Invalid message received. Ignored!\n".toList)

end Client

/-- What `validatorMenu` prints of a reply. -/
def Validator.printServerResponse (g : Globals) (receivedMessage : Text) : Except Exn Text := do
  let action ← Client.getActionType receivedMessage
  let authenticated ←
    if action = .acceptAuth ∨ action = .rejectAuth then
      g.isAuthenticationCorrect <$> AuthenticatedMessage.deserialize receivedMessage
    else pure false
  if authenticated then
    let m ← if action = .acceptAuth then AcceptAuthMessage.deserialize receivedMessage
      else RejectAuthMessage.deserialize receivedMessage
    return m.message ++ ['\n']
  else return "Invalid message received. Try again!\n".toList

/-! ### What the menus send -/

/-- The choices of `clientMenu` and of `validatorMenu` that make a request. -/
inductive MenuRequest
  | getAvailableTickets (eventName : Text)
  | buyTicket (ticketId : ℤ) (eventName : Text)
  | sellTicket (ticketData : Text) (newPrice : Double)
  | validateTicket (validationCode : Text)
  | checkIntegrity (valCode integrityCode : Text)
  deriving DecidableEq

/-- The message of a choice; the globals are those after `++nonce`. -/
def MenuRequest.message (g : Globals) : MenuRequest → Text
  | getAvailableTickets eventName =>
    GetAvailableTicketsMessage.serialize { g.header with eventName }
  | buyTicket ticketId eventName => BuyTicketMessage.serialize { g.header with ticketId, eventName }
  | sellTicket ticket newPrice => SellTicketMessage.serialize { g.header with ticket, newPrice }
  | validateTicket valCode => ValidateTicketMessage.serialize { g.header with valCode }
  | checkIntegrity valCode integrityCode =>
    CheckIntegrityMessage.serialize { g.header with valCode, integrityCode }

/-- What `logout` sends; the globals are those after `++nonce`. -/
def Client.logout (g : Globals) : Text := LogOutMessage.serialize { g.header with }

/-! ### Keys and ciphers -/

/-- The ciphers of `CryptographicLibrary`. -/
inductive Cipher
  | aes128cbc
  | aes192cbc
  | aes256cbc
  deriving DecidableEq

def Cipher.keySize : Cipher → ℕ
  | aes128cbc => 16
  | aes192cbc => 24
  | aes256cbc => 32

/-- The cipher for a key of the given size. -/
def Cipher.ofKeySize (size : ℕ) : Option Cipher :=
  if size = 16 then some aes128cbc
  else if size = 24 then some aes192cbc
  else if size = 32 then some aes256cbc
  else none

/-- What the clients take from OpenSSL and from the standard library. -/
structure Primitives where
  encrypt : Cipher → (key iv data : Text) → Text
  decrypt : Cipher → (key iv data : Text) → Option Text
  /-- `PKCS5_PBKDF2_HMAC` with SHA-256 and without salt -/
  pbkdf2 : (password : Text) → (iterations keyLength : ℕ) → Text
  hash : Text → UInt64

/-- Decryption inverts encryption under the same key and IV; derived keys are as long as asked for. -/
structure Primitives.Lawful (p : Primitives) : Prop where
  decrypt_encrypt : ∀ cipher key iv data, key.length = cipher.keySize → iv.length = 16 →
    p.decrypt cipher key iv (p.encrypt cipher key iv data) = some data
  pbkdf2_length : ∀ password iterations keyLength,
    (p.pbkdf2 password iterations keyLength).length = keyLength

/-- What the client code throws: an exception of a decoder, or a `std::runtime_error`. -/
inductive Failure
  | exn (x : Exn)
  | runtimeError (what : String)
  deriving DecidableEq

section Crypto

variable (p : Primitives)

/-- `protectSymetric`, with the IV that `RAND_bytes` drew. -/
def protectSymetric (iv toEncrypt key : Text) : Text :=
  match Cipher.ofKeySize key.length with
  | none => []
  | some cipher => iv ++ p.encrypt cipher key iv toEncrypt

def unprotectSymetric (toDecrypt key : Text) : Except Failure Text :=
  if toDecrypt.length < 16 then .error (.runtimeError "Error: Encrypted data too short")
  else
    match Cipher.ofKeySize key.length with
    | none =>
      .error (.runtimeError "Error: Unsupported key size. Must be 16, 24, or 32 bytes.")
    | some cipher =>
      match p.decrypt cipher key (toDecrypt.take 16) (toDecrypt.drop 16) with
      | none => .error (.runtimeError "Error finalizing decryption")
      | some data => .ok data

def keyDerivationFunction (saltedPassword : Text) (iterations keyLength : ℕ) : Text :=
  p.pbkdf2 saltedPassword iterations keyLength

/-- The hash in hexadecimal, with leading zeros. -/
def generateSalt (input : Text) : Text :=
  let digits := Nat.toDigits 16 (p.hash input).toNat
  (List.replicate (16 - digits.length) '0' ++ digits).take 16

def saltPassword (password salt : Text) : Text := password ++ salt

/-- A client's device: who is logged in, with which password, and the contents of their `SymKey.key`. -/
structure Device where
  username : Text
  hashedPassword : Text
  symKey : Text

variable (d : Device)

/-- The loop of `generateKDFKeyToSaveTicket`, on the passwords typed, each with the answer to the
question that follows a wrong one: the password that ends it, and the key. -/
def generateKDFKeyToSaveTicket (sha : Text → Text) : List (Text × Char) → Option (Text × Text)
  | [] => none
  | (password, choice) :: rest =>
    let salted := saltPassword password (generateSalt p d.username)
    if sha salted = d.hashedPassword ∨ choice = 'Y' ∨ choice = 'y' then
      some (password, keyDerivationFunction p salted 10000 32)
    else generateKDFKeyToSaveTicket sha rest

def generateKDFKeyToDecryptTicket (password : Text) : Text :=
  keyDerivationFunction p (saltPassword password (generateSalt p d.username)) 10000 32

/-! ### The path of a ticket -/

/-- What `saveTicket` writes to the ticket file. -/
def saveTicket (iv iv' kdfKey receivedMessage : Text) : Except Failure Text := do
  let m ← (AcceptAuthMessage.deserialize receivedMessage).mapError .exn
  let encryptedTicket := protectSymetric p iv m.message d.symKey
  return protectSymetric p iv' encryptedTicket kdfKey

/-- `getAndDecryptTicket`, on the contents of the ticket file and the password typed. -/
def getAndDecryptTicket (ticketDataEncrypted password : Text) : Except Failure Text := do
  let ticketHalfDecrypted ←
    unprotectSymetric p ticketDataEncrypted (generateKDFKeyToDecryptTicket p d password)
  unprotectSymetric p ticketHalfDecrypted d.symKey

/-- The ticket of a text, or an exception. -/
def parseTicket (ticketData : Text) : Except Failure Ticket := do
  let (wellFormed, ticket) ← (Ticket.deserialize ticketData).mapError .exn
  if wellFormed then return ticket
  else throw (.runtimeError "Failed to deserialize ticket data.")

/-- What every exception is reported as. -/
def passwordIncorrect : Text := "Error: Password is incorrect. Please try again.\n".toList

/-- What `getTicketValCode` prints after the dialogue. -/
def getTicketValCode (ticketDataEncrypted password : Text) : Text :=
  match getAndDecryptTicket p d ticketDataEncrypted password >>= parseTicket with
  | .ok ticket => "Validation Code: ".toList ++ ticket.validationCode ++ ['\n']
  | .error _ => passwordIncorrect

/-- What `getIntegrityCode` prints after the dialogue. -/
def getIntegrityCode (sha : Text → Text) (ticketDataEncrypted password : Text) : Text :=
  match getAndDecryptTicket p d ticketDataEncrypted password with
  | .error _ => passwordIncorrect
  | .ok ticketData =>
    let codes : Except Failure (Ticket × Text) := do
      let integrityCode ← (TicketService.integrityCode (sha ticketData)).mapError .exn
      let ticket ← parseTicket ticketData
      return (ticket, integrityCode)
    "Computing Integrity Code...\n".toList ++
      match codes with
      | .ok (ticket, integrityCode) =>
        "Validation Code: ".toList ++ ticket.validationCode ++ ['\n'] ++
          "Integrity Code: ".toList ++ integrityCode ++ ['\n']
      | .error _ => passwordIncorrect

end Crypto

end TicketIST
