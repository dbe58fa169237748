import TicketIST.Client
import TicketIST.Lib.Contracts

/-!
# The dialogues

What `Client` and `Validator` do at the terminal, on the connection and in the user's folder, as programs
of atomic operations: logging in, the two menus, and every question on the way.  What a program reads
and receives is up to its surroundings.  A number or a word that was read is what the variable holds
afterwards, so a read that fails may leave anything in it.

The loops are unrolled `n` times, after which the operation `cut` stands for the turns that are left.
Prompts and reports of errors are left out, and so are the handler of Ctrl+C and the flag `-bypass`.
-/

namespace TicketIST

open TicketIST.Lib

/-- How it went to read a number from `std::cin`. -/
inductive Input
  | good
  | failed
  | eof
  deriving DecidableEq

/-- What the programs do. -/
inductive ClientOp
  | readInt
  | readDouble
  | readWord
  | readChar
  | print (text : Text)
  | sendData (data : Text)
  | receiveData
  | fileExists (path : Text)
  | createDirectories (path : Text)
  | listDirectory (path : Text)
  | readFile (path : Text)
  | writeFile (path content : Text)
  | generateKey
  | randBytes
  | exit
  | cut
  deriving DecidableEq

/-- A file that cannot be opened for reading gives `none`, and one that cannot be opened for writing
gives `false`.  A listing has the names of the regular files. -/
@[reducible] def ClientOp.Ret : ClientOp → Type
  | readInt => ℤ × Input
  | readDouble => Double
  | readWord => Text
  | readChar => Char
  | print _ => Unit
  | sendData _ => Except Failure Unit
  | receiveData => Except Failure Text
  | fileExists _ => Except Failure Bool
  | createDirectories _ => Except Failure Bool
  | listDirectory _ => Except Failure (List Text)
  | readFile _ => Option Text
  | writeFile _ _ => Bool
  | generateKey => Option Text
  | randBytes => Text
  | exit => Empty
  | cut => Empty

abbrev ClientSig : Sig := ⟨ClientOp, ClientOp.Ret⟩

abbrev ClientProg := Prog ClientSig Failure

abbrev ClientOp.ask (op : ClientOp) : ClientProg op.Ret := .call op .ret

open ClientOp

/-! ### Operations, and loops -/

section

variable {α σ : Type}

def TLSClient.sendData (data : Text) : ClientProg Unit := .call (.sendData data) Prog.ofExcept

def TLSClient.receiveData : ClientProg Text := .call .receiveData Prog.ofExcept

def fileExists (path : Text) : ClientProg Bool := .call (.fileExists path) Prog.ofExcept

def createDirectories (path : Text) : ClientProg Bool := .call (.createDirectories path) Prog.ofExcept

/-- `std::cout << text << std::endl` -/
def printLine (text : Text) : ClientProg Unit := ask (.print (text ++ ['\n']))

/-- What a decoder makes of a text. -/
def decoded (x : Except Exn α) : ClientProg α := Prog.ofExcept (x.mapError .exn)

def runtimeError (what : String) : ClientProg α := .throw (.runtimeError what)

/-- Throw unless it went well. -/
def require (ok : Bool) (what : String) : ClientProg Unit :=
  if ok then return else runtimeError what

/-- `while (true)` -/
def whileTrue (n : ℕ) (body : σ → ClientProg (σ ⊕ α)) (s : σ) : ClientProg α :=
  Prog.loop (.call .cut Empty.elim) body n s

/-- Ask until an answer will do. -/
def askUntil (n : ℕ) (ok : α → Bool) (question : ClientProg α) : ClientProg α :=
  whileTrue n (fun _ : Unit => do
    let a ← question
    return if ok a then .inr a else .inl ()) ()

end

/-- The loop of `askForCredentials`, and of the validator's log-in. -/
def askForCredentials (n : ℕ) : ClientProg (Text × Text) :=
  askUntil n (fun (username, password) => !username.isEmpty && !password.isEmpty) do
    let username ← ask readWord
    let password ← ask readWord
    return (username, password)

/-- `logout`, which does not return. -/
def Globals.logout {α : Type} (g : Globals) : ClientProg α := do
  TLSClient.sendData (Client.logout g.next)
  let receivedMessage ← TLSClient.receiveData
  let action ← decoded (Client.getActionType receivedMessage)
  if action = .accept then printLine "Logged out successfully.".toList
  .call .exit Empty.elim

/-! ### The client's files -/

/-- The globals of `Client`. -/
structure ClientGlobals extends Globals where
  hashedPassword : Text
  deriving DecidableEq

namespace ClientGlobals

variable (g : ClientGlobals)

/-- `++nonce` -/
def next : ClientGlobals := { g with toGlobals := g.toGlobals.next }

def folderPath : Text := "clients/".toList ++ g.username ++ "/".toList

def symKeyPath : Text := g.folderPath ++ "SymKey.key".toList

/-- The file of a ticket. -/
def ticketPath (name : Text) : Text := g.folderPath ++ name ++ ".txt".toList

def device (symKey : Text) : Device :=
  { username := g.username, hashedPassword := g.hashedPassword, symKey }

end ClientGlobals

namespace Client

section Questions

variable (n : ℕ)

def askForEventName : ClientProg Text := askUntil n (fun eventName => !eventName.isEmpty) (ask readWord)

def askForTicketId : ClientProg ℤ :=
  askUntil n (fun ticketId => 0 ≤ ticketId) do
    let (ticketId, _) ← ask readInt
    return ticketId

def askForPrice : ClientProg Double := askUntil n (fun price => !price.lt .zero) (ask readDouble)

end Questions

section Files

variable (p : Primitives) (sha : Text → Text) (n : ℕ) (g : ClientGlobals)

def generateSymetricKey : ClientProg Unit := do
  if ← fileExists g.symKeyPath then return
  let some key ← ask generateKey | return
  let _ ← createDirectories g.folderPath
  let _ ← ask (writeFile g.symKeyPath key)

/-- `KeyGenerator::readKey`, on the user's `SymKey.key`. -/
def readKey : ClientProg Text := do
  let some key ← ask (readFile g.symKeyPath)
    | runtimeError ("Failed to open key file: " ++ String.ofList g.symKeyPath)
  return key

/-- The passwords and the answers of the user go to the function of the same name as they come. -/
def generateKDFKeyToSaveTicket : ClientProg Text :=
  whileTrue n (fun _ : Unit => do
    let password ← ask readWord
    let salted := saltPassword password (generateSalt p g.username)
    let key := keyDerivationFunction p salted 10000 32
    if sha salted = g.hashedPassword then return .inr key
    let choice ← ask readChar
    return if choice = 'Y' ∨ choice = 'y' then .inr key else .inl ()) ()

/-- The characters that `find_first_not_of` looks beyond. -/
def isFileNameChar (c : Char) : Bool := c.isAlphanum || c = '_' || c = '-'

/-- The name of a ticket file that does not exist. -/
def askNewFileName : ClientProg Text :=
  whileTrue n (fun _ : Unit => do
    let fileName ← ask readWord
    if !fileName.all isFileNameChar then return .inl ()
    if ← fileExists (g.ticketPath fileName) then return .inl ()
    return .inr fileName) ()

/-- The folder of the user, made if there is none. -/
def makeFolder : ClientProg Unit := do
  if ← fileExists g.folderPath then return
  require (← createDirectories g.folderPath)
    ("Failed to create directory: " ++ String.ofList g.folderPath)

/-- What `saveTicket` does inside its `try`. -/
def storeTicket (receivedMessage : Text) : ClientProg Unit := do
  let _ ← decoded (AcceptAuthMessage.deserialize receivedMessage)
  makeFolder g
  require (← fileExists g.symKeyPath) "Something went wrong. Please log in again."
  let symKey ← readKey g
  let kdfKey ← generateKDFKeyToSaveTicket p sha n g
  let iv ← ask randBytes
  let iv' ← ask randBytes
  let content ← Prog.ofExcept (TicketIST.saveTicket p (g.device symKey) iv iv' kdfKey receivedMessage)
  let fileName ← askNewFileName n g
  require (← ask (writeFile (g.ticketPath fileName) content))
    ("Failed to open file for writing: " ++ String.ofList (g.ticketPath fileName))

def saveTicket (receivedMessage : Text) : ClientProg Unit :=
  (storeTicket p sha n g receivedMessage).tryCatch fun _ => return

/-- The part of a file's name before its last dot. -/
def ticketName (fileName : Text) : Text :=
  ((fileName.reverse.dropWhile (· ≠ '.')).drop 1).reverse

/-- What `getOwnedTickets` prints, one name on a line. -/
def ownedTickets (fileNames : List Text) : Text :=
  let ticketNames := (fileNames.filter fun name => ".txt".toList <:+: name).map ticketName
  "You have ".toList ++ showInt ticketNames.length ++ " ticket(s):\n".toList ++
    ticketNames.flatMap fun ticket => " - ".toList ++ ticket ++ ['\n']

def getOwnedTickets : ClientProg Unit :=
  Prog.tryCatch (do
    if ← fileExists g.folderPath then
      let fileNames ← .call (.listDirectory g.folderPath) Prog.ofExcept
      ask (print (ownedTickets fileNames)))
    fun _ => return

/-- The path of a ticket file that exists. -/
def askFileName : ClientProg Text :=
  whileTrue n (fun _ : Unit => do
    let ticketName ← ask readWord
    if ← fileExists (g.ticketPath ticketName) then return .inr (g.ticketPath ticketName)
    getOwnedTickets g
    return .inl ()) ()

/-- What `getAndDecryptTicket` reads before it decrypts: the ticket file, which counts as empty if it
cannot be opened, the key and the password. -/
def openTicket (filePath : Text) : ClientProg (Text × Device × Text) := do
  let ticketDataEncrypted ← ask (readFile filePath)
  let symKey ← readKey g
  let password ← askUntil n (fun password => !password.isEmpty) (ask readWord)
  return (ticketDataEncrypted.getD [], g.device symKey, password)

def getAndDecryptTicket (filePath : Text) : ClientProg Text := do
  let (ticketDataEncrypted, d, password) ← openTicket n g filePath
  Prog.ofExcept (TicketIST.getAndDecryptTicket p d ticketDataEncrypted password)

/-- What `getTicket`, `getTicketValCode` and `getIntegrityCode` have in common: what they print of a
ticket file, or what they report of any exception. -/
def showFile (shown : Device → (ticketDataEncrypted password : Text) → Text) : ClientProg Unit := do
  let filePath ← askFileName n g
  Prog.tryCatch (do
    let (ticketDataEncrypted, d, password) ← openTicket n g filePath
    ask (print (shown d ticketDataEncrypted password)))
    fun _ => ask (print passwordIncorrect)

/-- A line of the table that `printTicket` prints, filled with blanks to its width. -/
def printRow (field value : Text) : Text :=
  let left (width : ℕ) (text : Text) : Text := text ++ List.replicate (width - text.length) ' '
  "| ".toList ++ left 20 field ++ " | ".toList ++ left 30 value ++ " |\n".toList

/-- `Ticket::printTicket` -/
def printTicket (ticket : Ticket) : Text :=
  let separator :=
    '+' :: List.replicate 22 '-' ++ '+' :: List.replicate 32 '-' ++ "+\n".toList
  separator ++ printRow "Field".toList "Value".toList ++ separator ++
    printRow "Ticket ID".toList (showInt ticket.ticketID) ++
    printRow "Event ID".toList (showInt ticket.eventID) ++
    printRow "Seller ID".toList (showInt ticket.sellerID) ++
    printRow "Buyer ID".toList (showInt ticket.buyerID) ++
    printRow "Purchase Date".toList ticket.purchaseDate ++
    printRow "Price".toList (showFixed2 ticket.price) ++
    printRow "Seat".toList ticket.seat ++
    printRow "Validation Code".toList ticket.validationCode ++ separator

def getTicket : ClientProg Unit :=
  showFile n g fun d ticketDataEncrypted password =>
    match TicketIST.getAndDecryptTicket p d ticketDataEncrypted password >>= parseTicket with
    | .ok ticket => printTicket ticket
    | .error _ => passwordIncorrect

def getTicketValCode : ClientProg Unit := showFile n g (TicketIST.getTicketValCode p)

def getIntegrityCode : ClientProg Unit :=
  showFile n g fun d => TicketIST.getIntegrityCode p d sha

end Files

/-! ### The client's loops -/

/-- What `getAndPrintAuthResponse` prints, which is nothing of a reply that cannot be decoded. -/
def authResponseText (receivedMessage : Text) : Text :=
  let response : Except Exn Text := do
    match ← getActionType receivedMessage with
    | .reject => return (← RejectMessage.deserialize receivedMessage) ++ ['\n']
    | .acceptAuth => return (← AcceptAuthMessage.deserialize receivedMessage).message ++ ['\n']
    | _ => return []
  match response with
  | .ok text => text
  | .error _ => []

/-- `return EXIT_FAILURE`, which is 1, from a function whose result is a `bool`. -/
def exitFailure : Bool := (1 : ℤ) ≠ 0

section Loops

variable (p : Primitives) (sha : Text → Text) (n : ℕ)

/-- What `authenticate` does with a reply: it leaves the loop, or goes on with it. -/
def onAuthReply (g : ClientGlobals) (receivedMessage : Text) :
    ClientProg (ClientGlobals ⊕ (Bool × ClientGlobals)) := do
  let (action, globals) := getAndPrintAuthResponse g.toGlobals receivedMessage
  ask (print (authResponseText receivedMessage))
  let g : ClientGlobals := { g with toGlobals := globals }
  if action = .acceptAuth then
    Prog.tryCatch (do
      generateSymetricKey g
      return .inr (true, g)) fun _ => return .inr (exitFailure, g)
  else return .inl g

/-- The end of a turn of `authenticate`, which has a message.  The `try` of the source is two here: what
its handler returns with depends on whether the reply has set the globals. -/
def awaitAuth (g : ClientGlobals) (message : Text) :
    ClientProg (ClientGlobals ⊕ (Bool × ClientGlobals)) := do
  let received ← Prog.tryCatch (do
    TLSClient.sendData message
    let receivedMessage ← TLSClient.receiveData
    return some receivedMessage) fun _ => return none
  match received with
  | none => return .inr (exitFailure, g)
  | some receivedMessage => onAuthReply g receivedMessage

/-- `SIGN_UP` and `LOG_IN`: the fields of the message are read, and the password is remembered. -/
def enter (serialize : Credentials → Text) (g : ClientGlobals) :
    ClientProg (ClientGlobals ⊕ (Bool × ClientGlobals)) := do
  let (username, password) ← askForCredentials n
  let salted := saltPassword password (generateSalt p username)
  awaitAuth { g with hashedPassword := sha salted } (serialize { username, password := salted })

/-- A turn of `authenticate`. -/
def authenticateTurn (g : ClientGlobals) : ClientProg (ClientGlobals ⊕ (Bool × ClientGlobals)) := do
  let (action, input) ← ask readInt
  if input ≠ .good then return .inl g
  match action with
  | 1 => enter p sha n SignUpMessage.serialize g
  | 2 => enter p sha n LogInMessage.serialize g
  | _ => return .inl g

/-- The result, and the globals that it is returned with. -/
def authenticate : ClientGlobals → ClientProg (Bool × ClientGlobals) :=
  whileTrue n (authenticateTurn p sha n)

/-- What `clientMenu` does with the reply to a request of the type `pending`. -/
def handleReply (g : ClientGlobals) (pending : ActionType) (receivedMessage : Text) :
    ClientProg Unit := do
  let action ← decoded (getActionType receivedMessage)
  if pending = .buyTicket ∧ action = .acceptAuth then saveTicket p sha n g receivedMessage
  else
    let (_, text) ← decoded (getAndPrintServerResponse g.toGlobals receivedMessage)
    ask (print text)

/-- The end of a turn of `clientMenu` that has a message; `g` has the nonce of the message. -/
def exchange (g : ClientGlobals) (pending : ActionType) (q : MenuRequest) :
    ClientProg (ClientGlobals ⊕ ClientGlobals) :=
  Prog.tryCatch (do
    TLSClient.sendData (q.message g.toGlobals)
    let receivedMessage ← TLSClient.receiveData
    handleReply p sha n g pending receivedMessage
    return .inl g) fun _ => return .inr g

/-- A turn of `clientMenu`. -/
def clientMenuTurn (g : ClientGlobals) : ClientProg (ClientGlobals ⊕ ClientGlobals) := do
  let (action, input) ← ask readInt
  match input with
  | .eof => g.toGlobals.logout
  | .failed => return .inl g
  | .good =>
    match action with
    | 1 =>
      let eventName ← askForEventName n
      exchange p sha n g.next .getAvailableTickets (.getAvailableTickets eventName)
    | 2 =>
      let ticketId ← askForTicketId n
      let eventName ← askForEventName n
      exchange p sha n g.next .buyTicket (.buyTicket ticketId eventName)
    | 3 =>
      getOwnedTickets g
      return .inl g
    | 4 =>
      getTicket p n g
      return .inl g
    | 5 =>
      getTicketValCode p n g
      return .inl g
    | 6 =>
      getIntegrityCode p sha n g
      return .inl g
    | 7 =>
      let filePath ← askFileName n g
      let ticketData ← getAndDecryptTicket p n g filePath
      let newPrice ← askForPrice n
      exchange p sha n g.next .sellTicket (.sellTicket ticketData newPrice)
    | 8 => g.toGlobals.logout
    | _ => return .inl g

def clientMenu : ClientGlobals → ClientProg ClientGlobals := whileTrue n (clientMenuTurn p sha n)

/-- The loop of `main`. -/
def main : ClientGlobals → ClientProg Unit :=
  whileTrue n fun g => do
    let (loggedIn, g) ← authenticate p sha n g
    if !loggedIn then return .inr ()
    let g ← clientMenu p sha n g
    return .inl g

end Loops

end Client

/-! ### The validator's -/

namespace Validator

/-- The last statement of `authenticate` calls it again.  The result of the call is dropped, and control
reaches the end of the function, which has no `return` there: the outer result is not defined. -/
def callAgain (call : ClientProg (Option Bool × Globals)) : ClientProg (Option Bool × Globals) := do
  let (_, g) ← call
  return (none, g)

/-- What `authenticate` does with a reply; `call` is the next attempt. -/
def onAuthReply (call : ClientProg (Option Bool × Globals)) (receivedMessage : Text) :
    ClientProg (Option Bool × Globals) := do
  match ← decoded (Client.getActionType receivedMessage) with
  | .acceptAuth =>
    let m ← decoded (AcceptAuthMessage.deserialize receivedMessage)
    printLine m.message
    return (some true, ⟨m.username, m.sessionCookies, m.nonce⟩)
  | .reject =>
    let message ← decoded (RejectMessage.deserialize receivedMessage)
    printLine message
    callAgain call
  | _ => callAgain call

/-- `authenticate`, with the globals that it leaves.  A result that is not defined is `none`. -/
def authenticate (p : Primitives) : ℕ → Globals → ClientProg (Option Bool × Globals)
  | 0, _ => .call .cut Empty.elim
  | n + 1, g => do
    let (username, password) ← askForCredentials (n + 1)
    let salted := saltPassword password (generateSalt p username)
    TLSClient.sendData (LogInValidatorMessage.serialize { username, password := salted })
    let receivedMessage ← TLSClient.receiveData
    onAuthReply (authenticate p n g) receivedMessage

/-- What follows the `switch` of `validatorMenu`. -/
def showReply (g : Globals) : ClientProg (Globals ⊕ Unit) := do
  let receivedMessage ← TLSClient.receiveData
  let text ← decoded (printServerResponse g receivedMessage)
  ask (print text)
  return .inl g

/-- A turn of `validatorMenu`.  After a number without a case of its own nothing is sent. -/
def validatorMenuTurn (g : Globals) : ClientProg (Globals ⊕ Unit) := do
  let (choice, input) ← ask readInt
  if input ≠ .good then return .inl g
  match choice with
  | 1 =>
    let validationCode ← ask readWord
    TLSClient.sendData ((MenuRequest.validateTicket validationCode).message g.next)
    showReply g.next
  | 2 =>
    let valCode ← ask readWord
    let integrityCode ← ask readWord
    TLSClient.sendData ((MenuRequest.checkIntegrity valCode integrityCode).message g.next)
    showReply g.next
  | 3 => g.logout
  | _ => showReply g

def validatorMenu (n : ℕ) : Globals → ClientProg Unit := whileTrue n validatorMenuTurn

end Validator

/-! ### What does not touch the connection -/

def ClientOp.Offline : ClientOp → Prop
  | .sendData _ => False
  | .receiveData => False
  | _ => True

/-- It neither goes over the connection nor writes to a file. -/
def ClientOp.Passive : ClientOp → Prop
  | .sendData _ => False
  | .receiveData => False
  | .writeFile _ _ => False
  | _ => True

section Uses

variable {α σ : Type} {φ : ClientOp → Prop} {op : ClientOp}

theorem uses_ask (h : φ op) : (ask op).Uses φ := ⟨h, fun _ => trivial⟩

theorem uses_ask_bind {f : op.Ret → ClientProg α} (h : φ op) (hf : ∀ r, (f r).Uses φ) :
    (ask op >>= f).Uses φ := ⟨h, hf⟩

theorem uses_require (ok : Bool) (what : String) : (require ok what).Uses φ := .ite trivial trivial

theorem offline_of_passive {p : ClientProg α} (h : p.Uses Passive) : p.Uses Offline := by
  refine h.mono fun op hop => ?_
  cases op with
  | sendData | receiveData => exact hop
  | _ => trivial

theorem passive_fileExists (path : Text) : (fileExists path).Uses Passive :=
  ⟨trivial, Prog.uses_ofExcept _⟩

theorem passive_createDirectories (path : Text) : (createDirectories path).Uses Passive :=
  ⟨trivial, Prog.uses_ofExcept _⟩

theorem passive_whileTrue {body : σ → ClientProg (σ ⊕ α)} (hbody : ∀ s, (body s).Uses Passive) (n : ℕ)
    (s : σ) : (whileTrue n body s).Uses Passive := by
  refine Prog.uses_loop ?_ hbody n s
  exact ⟨trivial, nofun⟩

theorem passive_askUntil {n : ℕ} {ok : α → Bool} {question : ClientProg α}
    (h : question.Uses Passive) : (askUntil n ok question).Uses Passive := by
  refine passive_whileTrue (fun _ => h.bind fun a => ?_) n ()
  trivial

theorem passive_askForCredentials (n : ℕ) : (askForCredentials n).Uses Passive := by
  refine passive_askUntil ?_
  refine uses_ask_bind ?_ fun username => uses_ask_bind ?_ fun password => ?_
  all_goals trivial

end Uses

namespace Client

section Uses

variable (p : Primitives) (sha : Text → Text) (n : ℕ) (g : ClientGlobals)

theorem passive_askForEventName : (askForEventName n).Uses Passive := by
  refine passive_askUntil (uses_ask ?_)
  trivial

theorem passive_askForTicketId : (askForTicketId n).Uses Passive := by
  refine passive_askUntil (uses_ask_bind ?_ fun answer => ?_)
  all_goals trivial

theorem passive_askForPrice : (askForPrice n).Uses Passive := by
  refine passive_askUntil (uses_ask ?_)
  trivial

theorem passive_readKey : (readKey g).Uses Passive := by
  refine uses_ask_bind trivial fun key => ?_
  cases key <;> trivial

theorem passive_generateKDFKeyToSaveTicket :
    (generateKDFKeyToSaveTicket p sha n g).Uses Passive := by
  refine passive_whileTrue (fun _ => ?_) n ()
  refine uses_ask_bind trivial fun password => .ite trivial ?_
  exact uses_ask_bind trivial fun choice => trivial

theorem passive_askNewFileName : (askNewFileName n g).Uses Passive := by
  refine passive_whileTrue (fun _ => ?_) n ()
  refine uses_ask_bind trivial fun fileName => .ite trivial ?_
  exact (passive_fileExists _).bind fun found => .ite trivial trivial

theorem passive_makeFolder : (makeFolder g).Uses Passive := by
  refine (passive_fileExists _).bind fun found => .ite trivial ?_
  exact (passive_createDirectories _).bind fun made => uses_require made _

theorem passive_getOwnedTickets : (getOwnedTickets g).Uses Passive := by
  refine Prog.Uses.tryCatch ?_ fun _ => trivial
  refine (passive_fileExists _).bind fun found => .ite ?_ trivial
  refine ⟨trivial, fun listed => (Prog.uses_ofExcept _ listed).bind fun fileNames => ?_⟩
  exact uses_ask trivial

theorem passive_askFileName : (askFileName n g).Uses Passive := by
  refine passive_whileTrue (fun _ => ?_) n ()
  refine uses_ask_bind trivial fun ticketName => ?_
  refine (passive_fileExists _).bind fun found => .ite trivial ?_
  exact (passive_getOwnedTickets g).bind fun _ => trivial

theorem passive_openTicket (filePath : Text) : (openTicket n g filePath).Uses Passive := by
  refine uses_ask_bind trivial fun ticketDataEncrypted => ?_
  refine (passive_readKey g).bind fun symKey => ?_
  refine (passive_askUntil ?_).bind fun password => trivial
  exact uses_ask trivial

theorem passive_getAndDecryptTicket (filePath : Text) :
    (getAndDecryptTicket p n g filePath).Uses Passive :=
  (passive_openTicket n g filePath).bind fun _ => Prog.uses_ofExcept _ _

theorem passive_showFile (shown : Device → Text → Text → Text) :
    (showFile n g shown).Uses Passive := by
  refine (passive_askFileName n g).bind fun filePath => ?_
  refine Prog.Uses.tryCatch ((passive_openTicket n g filePath).bind fun opened => ?_) fun _ => ?_
  · exact uses_ask trivial
  · exact uses_ask trivial

-- The rest of what is done without the server writes a key or a ticket.

theorem offline_generateSymetricKey : (generateSymetricKey g).Uses Offline := by
  refine (offline_of_passive (passive_fileExists _)).bind fun found => .ite trivial ?_
  refine uses_ask_bind trivial fun key => ?_
  cases key with
  | none => trivial
  | some key =>
    refine (offline_of_passive (passive_createDirectories _)).bind fun _ => ?_
    exact uses_ask_bind trivial fun _ => trivial

theorem offline_onAuthReply (receivedMessage : Text) : (onAuthReply g receivedMessage).Uses Offline := by
  refine uses_ask_bind trivial fun _ => .ite ?_ trivial
  exact Prog.Uses.tryCatch ((offline_generateSymetricKey _).bind fun _ => trivial) fun _ => trivial

theorem offline_storeTicket (receivedMessage : Text) :
    (storeTicket p sha n g receivedMessage).Uses Offline := by
  refine (Prog.uses_ofExcept _ _).bind fun m => ?_
  refine (offline_of_passive (passive_makeFolder g)).bind fun _ => ?_
  refine (offline_of_passive (passive_fileExists _)).bind fun found => ?_
  refine (uses_require found _).bind fun _ => ?_
  refine (offline_of_passive (passive_readKey g)).bind fun symKey => ?_
  refine (offline_of_passive (passive_generateKDFKeyToSaveTicket p sha n g)).bind fun kdfKey => ?_
  refine uses_ask_bind trivial fun iv => uses_ask_bind trivial fun iv' => ?_
  refine (Prog.uses_ofExcept _ _).bind fun content => ?_
  refine (offline_of_passive (passive_askNewFileName n g)).bind fun fileName => ?_
  exact uses_ask_bind trivial fun written => uses_require written _

theorem offline_saveTicket (receivedMessage : Text) :
    (saveTicket p sha n g receivedMessage).Uses Offline :=
  (offline_storeTicket p sha n g receivedMessage).tryCatch fun _ => trivial

theorem offline_handleReply (pending : ActionType) (receivedMessage : Text) :
    (handleReply p sha n g pending receivedMessage).Uses Offline := by
  refine (Prog.uses_ofExcept _ _).bind fun action => .ite (offline_saveTicket p sha n g _) ?_
  refine (Prog.uses_ofExcept _ _).bind fun response => ?_
  exact uses_ask trivial

end Uses

end Client

end TicketIST
