import TicketIST.TicketRepository

/-!
# The ticket service

`TicketService` as programs over the repository: every repository call is one atomic operation, and
everything between two calls is computed from the answers so far.  OpenSSL's SHA-256, as lower-case
hexadecimal, is the parameter `sha`.  The service's `ticketsInfoCache` is written and never read, and
is left out.

`Call` is a request to the service and `serve` its effect when it is served alone.
-/

namespace TicketIST

open TicketIST.Lib

abbrev TicketProg := Prog TicketSig Exn

abbrev TicketOp.ask (op : TicketOp) : TicketProg op.Ret := .call op .ret

open TicketOp

namespace TicketService

variable (sha : Text → Text)

def getAllAvailableTicketsByEventId (eventId : ℤ) : TicketProg (List TicketInfo) :=
  ask (getAllTicketsFromEventId eventId)

def buyTicket (ticketId eventId userID : ℤ) (env : Env) : TicketProg Ticket := do
  let ticketOwned ← ask (getNrOfTicketsOwned userID)
  if ticketOwned ≥ 6 then
    .throw (.invalidArgument "You already own 6 tickets. You cannot buy more.")
  else
    let dbResponse ← ask (getTicketInfoById ticketId)
    match dbResponse with
    | none => .throw (.invalidArgument "Ticket not found. Please revise available tickets.")
    | some ticketInfo =>
      if ticketInfo.eventID ≠ eventId then
        .throw (.invalidArgument "Ticket not found. Please revise available tickets.")
      else
        let valCode := Ticket.generateValidationCode 10 env.dist
        let ticket := Ticket.issue env.now ticketInfo.ticketID ticketInfo.eventID
          ticketInfo.sellerID userID ticketInfo.price ticketInfo.seat valCode
        let valCodeHash := sha valCode
        let ticketHash := sha ticket.serialize
        let unavailable ← ask (makeTicketUnavailable ticketId)
        if !unavailable then
          .throw (.invalidArgument
            "Ticket is no longer available. Please revise available tickets.")
        else
          let added ← ask (addNewTicket valCodeHash ticketHash ticket.seat userID)
          if !added then
            .throw (.invalidArgument "Something went wrong. Please try again.")
          else
            let resold ← ask (isTicketInResell ticket.ticketID)
            if resold then
              let oldValCodeHash ← ask (getOldTicketValCodeHash ticket.ticketID)
              let _ ← ask (removeTicketFromResell ticket.ticketID)
              let _ ← ask (removeTicket oldValCodeHash)
              return ticket
            else
              return ticket

/-- `TicketService::validateTicket`: its result, and `info` as it leaves it. -/
def validateTicket (validationCode : Text) : TicketProg (Bool × Text) := do
  let hashValCode := sha validationCode
  let found ← ask (existsTicketWithValidationCode hashValCode)
  match found with
  | some (info, used) =>
    if used then return (false, "Ticket is already in use.".toList)
    else
      let _ ← ask (setTicketInUse hashValCode)
      return (true, info)
  | none => return (false, "Ticket not found. Please revise the validation code.".toList)

/-- The first and the last five characters of a hash.  On a shorter text the position `size() - 5`
wraps around and the second `substr` throws. -/
def integrityCode (hash : Text) : Except Exn Text :=
  if hash.length < 5 then .error (.outOfRange "basic_string::substr")
  else .ok (hash.take 5 ++ hash.drop (hash.length - 5))

/-- `TicketService::checkIntegrity`: its result, and `info` as it leaves it. -/
def checkIntegrity (validationCode integrityCode : Text) : TicketProg (Bool × Text) := do
  let hashValCode := sha validationCode
  let dbResponse ← ask (getTicketHashByValidationCode hashValCode)
  match dbResponse with
  | none => return (false, "Ticket not found. Please revise the validation code.".toList)
  | some hashTicket =>
    let realIntegrityCode ← Prog.ofExcept (TicketService.integrityCode hashTicket)
    if realIntegrityCode = integrityCode then
      return (true, "Integrity check successful.".toList)
    else
      return (false,
        "Integrity check failed. Integrity of the ticket has been compromised.".toList)

def sellTicket (ticket : Text) (newPrice : Double) : TicketProg Bool := do
  let (wellFormed, t) ← Prog.ofExcept (Ticket.deserialize ticket)
  if !wellFormed then
    .throw (.invalidArgument "Invalid ticket format.")
  else
    let hashValCode := sha t.validationCode
    let dbResponse ← ask (getTicketHashByValidationCode hashValCode)
    match dbResponse with
    | none => .throw (.invalidArgument "Ticket not found. Please revise the validation code.")
    | some trueHashTicket =>
      let receivedHashTicket := sha t.serialize
      if trueHashTicket ≠ receivedHashTicket then
        .throw (.invalidArgument "Ticket integrity compromised. Please revise the ticket.")
      else if newPrice.lt .zero || t.price.lt newPrice then
        .throw (.invalidArgument
          "Invalid price. Please provide a price greater than 0 and the current price.")
      else
        let ticketInfo : TicketInfo :=
          { ticketID := t.ticketID, eventID := t.eventID, sellerID := t.buyerID, price := newPrice,
            seat := t.seat }
        let listed ← ask (addTicketInfo ticketInfo)
        if !listed then .throw (.invalidArgument "Process Failed")
        else
          let recorded ← ask (addTicketToResell hashValCode t.ticketID)
          if !recorded then .throw (.invalidArgument "Process Failed")
          else return true

end TicketService

/-! ### The records a call makes -/

/-- The ticket that the purchase of a listing issues. -/
def issued (ti : TicketInfo) (userID : ℤ) (env : Env) : Ticket :=
  Ticket.issue env.now ti.ticketID ti.eventID ti.sellerID userID ti.price ti.seat
    (Ticket.generateValidationCode 10 env.dist)

/-- The listing that a resale publishes. -/
def listing (t : Ticket) (newPrice : Double) : TicketInfo :=
  { ticketID := t.ticketID, eventID := t.eventID, sellerID := t.buyerID, price := newPrice,
    seat := t.seat }

/-! ### Requests to the service -/

inductive Call
  | getAllAvailableTicketsByEventId (eventId : ℤ)
  | buyTicket (ticketId eventId userID : ℤ) (env : Env)
  | validateTicket (validationCode : Text)
  | checkIntegrity (validationCode integrityCode : Text)
  | sellTicket (ticket : Text) (newPrice : Double)

inductive Reply
  | tickets (l : List TicketInfo)
  | ticket (t : Ticket)
  | checked (ok : Bool) (info : Text)
  | sold (ok : Bool)
  deriving DecidableEq

def Call.prog (sha : Text → Text) : Call → TicketProg Reply
  | getAllAvailableTicketsByEventId e =>
    Reply.tickets <$> TicketService.getAllAvailableTicketsByEventId e
  | buyTicket t e u env => Reply.ticket <$> TicketService.buyTicket sha t e u env
  | validateTicket c => (fun r => .checked r.1 r.2) <$> TicketService.validateTicket sha c
  | checkIntegrity c ic => (fun r => .checked r.1 r.2) <$> TicketService.checkIntegrity sha c ic
  | sellTicket t p => Reply.sold <$> TicketService.sellTicket sha t p

/-- A call served alone, every statement succeeding. -/
def serve (sha : Text → Text) (c : Call) (db : TicketDB) : Except Exn Reply × TicketDB :=
  (c.prog sha).run TicketOp.exec db

/-- What a call returns, as the caller gets it. -/
@[reducible] def Call.Answer : Call → Type
  | getAllAvailableTicketsByEventId _ => List TicketInfo
  | buyTicket .. => Ticket
  | validateTicket _ => Bool × Text
  | checkIntegrity .. => Bool × Text
  | sellTicket .. => Bool

def Call.service (sha : Text → Text) : (c : Call) → TicketProg c.Answer
  | getAllAvailableTicketsByEventId e => TicketService.getAllAvailableTicketsByEventId e
  | buyTicket t e u env => TicketService.buyTicket sha t e u env
  | validateTicket c => TicketService.validateTicket sha c
  | checkIntegrity c ic => TicketService.checkIntegrity sha c ic
  | sellTicket t p => TicketService.sellTicket sha t p

/-! ### What concrete runs use -/

def seat (T : ℤ) (name : String) : TicketInfo :=
  { ticketID := T, eventID := 1, sellerID := 0, price := .ofNat 40, seat := name.toList }

def twoSeats : Table TicketInfo ℤ TicketInfo.ticketID := ⟨[seat 7 "86L", seat 8 "88L"], by decide⟩

/-- Surroundings in which every draw of the generator is `n`. -/
def drawing (n : Fin 62) : Env :=
  ⟨{ tmYear := 124, tmMon := 11, tmMday := 30, tmHour := 18, tmMin := 5, tmSec := 9 }, fun _ => n⟩

/-- The codes drawn by `drawing 0` and `drawing 1`. -/
def codeA : Text := List.replicate 10 'A'
def codeB : Text := List.replicate 10 'B'

def secret : Text := ['s', 'e', 'c', 'r', 'e', 't']

/-- The ticket that user 5 gets for seat 7. -/
def ticketOfUser5 : Ticket := issued (seat 7 "86L") 5 (drawing 0)

/-- The ticket that user 6 gets for seat 7 when user 5 puts it on sale for 30. -/
def ticketOfUser6 : Ticket := issued (listing ticketOfUser5 (.ofNat 30)) 6 (drawing 1)

example : ticketOfUser5.serialize = "7|1|0|5|2024-12-30 18:5:9|40|86L|AAAAAAAAAA".toList := by
  decide +kernel

def hex (n : ℕ) : Text := Nat.toDigits 16 n

/-- Texts with their SHA-256 digests. -/
def digests : List (Text × Text) :=
  [(codeA, hex 0x1d65bf29403e4fb1767522a107c827b8884d16640cf0e3b18c4c1dd107e0d49d),
   (codeB, hex 0x4e5d54f50370b936533dfcb2f3540a242b5df12fc0631cde1c290492f7bd9bfe),
   (secret, hex 0x2bb80d537b1da3e38bd30361aa855686bde0eacd7162fef6a25fe97bf527a25b),
   (ticketOfUser5.serialize,
    hex 0xc20300b370b20723f4ef2ea13f23ce69d24940646945ca4edf243456e407873d),
   (ticketOfUser6.serialize,
    hex 0xd6417ed164984a790bc49a560ad38a05ad15a845dc8ab5b93e5615fdb7be689a),
   ((issued (seat 7 "86L") 6 (drawing 1)).serialize,
    hex 0xbdd2098baf0abc35593026017bd580e08c6f9b44e0e1bd0cf727841f07fc67aa),
   ((issued (seat 8 "88L") 5 (drawing 1)).serialize,
    hex 0x37a206e285dfd8840e682c85d8dbcda96e801c43e54b8f0cf2a5ef7f54a0cf3b)]

/-- SHA-256 on the texts of `digests`. -/
def sha256 : Text → Text := extend digests

theorem sha256_injective : Function.Injective sha256 :=
  extend_injective (by decide +kernel) (by decide +kernel)

theorem sha256_ne_nil : ∀ s, sha256 s ≠ [] := extend_ne_nil (by decide +kernel)

/-- The digest of a ticket is long enough for an integrity code. -/
theorem five_le_sha256 (t : Ticket) : 5 ≤ (sha256 t.serialize).length := by
  refine le_length_extend (by decide +kernel) ?_
  simp only [Ticket.serialize, List.length_append, List.length_cons]
  omega

end TicketIST
