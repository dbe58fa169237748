import TicketIST.Holders
import TicketIST.Lib.Parts
import TicketIST.Phantoms

/-!
# The counters of the box office

The connections share the ticket service and call it in the order in which their handlers come to it.
Whatever the clients send and however the handlers interleave, the tables go through a serial run of the
service, and so the server as a whole is a box office with many counters (`boxOffice_of_connections`).
-/

namespace TicketIST

open TicketIST.Lib ServerOp

variable {ι : Type} {coll sha : Text → Text}

/-! ### The ticket service as a part of the server -/

/-- What the service answered, as the history of the service has it. -/
def Call.reply : (c : Call) → c.Answer → Reply
  | .getAllAvailableTicketsByEventId _, l => .tickets l
  | .buyTicket .., t => .ticket t
  | .validateTicket _, r => .checked r.1 r.2
  | .checkIntegrity .., r => .checked r.1 r.2
  | .sellTicket .., ok => .sold ok

theorem Call.prog_eq (c : Call) : c.prog sha = c.reply <$> c.service sha := by
  cases c <;> rfl

/-- The calls of the ticket service. -/
def ticketCall : (op : ServerOp) → op.Ret → Option (Call × Except Exn Reply)
  | .ticketService _ c, a => some (c, a.map c.reply)
  | _, _ => none

/-- The history of the ticket service. -/
def ticketHistory (tr : List (Firing ι ServerSig)) : History := callsOf ticketCall tr

def NoTicketCall : ServerOp → Prop
  | .ticketService .. => False
  | _ => True

/-- The step is not a call of the ticket service with statements that fail. -/
def NoTicketFails : ServerOp → Prop
  | .ticketService fails _ => fails = fun _ => false
  | _ => True

theorem isPart_tickets : IsPart (exec sha) NoTicketFails (serve sha)
    (Server.tickets : Server coll → TicketDB) ticketCall where
  idle op s _ hrec := by
    cases op with
    | ticketService fails c => cases hrec
    | _ => rfl
  answered op s c r hφ hrec := by
    cases op with
    | ticketService fails c' =>
      obtain rfl : fails = fun _ => false := hφ
      cases hrec
      rw [serve, Call.prog_eq, Prog.run_map, exec, faulty_never]
    | _ => cases hrec
  made op s c r hφ hrec := by
    cases op with
    | ticketService fails c' =>
      obtain rfl : fails = fun _ => false := hφ
      cases hrec
      rw [serve, Call.prog_eq, Prog.run_map, exec, faulty_never]
    | _ => cases hrec

/-! ### What a connection asks of it -/

/-- The handler of an action makes calls of this kind. -/
def ActionType.Calls : ActionType → Call → Prop
  | .getAvailableTickets, .getAllAvailableTicketsByEventId _ => True
  | .buyTicket, .buyTicket .. => True
  | .validateTicket, .validateTicket _ => True
  | .checkIntegrity, .checkIntegrity .. => True
  | .sellTicket, .sellTicket .. => True
  | _, _ => False

section Handlers

variable {sur : Surroundings} {φ : ServerOp → Prop}

theorem uses_welcome (hφ : ∀ op, NoTicketCall op → φ op) (r : Role) (ssl : SSL)
    (u failure : Text) (ok : Bool) : (welcome sur r ssl u failure ok).Uses φ := by
  cases ok with
  | false => trivial
  | true =>
    refine ⟨hφ _ (by trivial), fun _ => ⟨hφ _ (by trivial), fun _ => ?_⟩⟩
    exact ⟨hφ _ (by trivial), fun _ => trivial⟩

theorem uses_doLogoutAction (hφ : ∀ op, NoTicketCall op → φ op)
    (m : LogOutMessage) : (doLogoutAction m).Uses φ := by
  refine ⟨hφ _ (by trivial), fun user => ?_⟩
  cases user with
  | true => exact ⟨hφ _ (by trivial), fun _ => trivial⟩
  | false =>
    refine ⟨hφ _ (by trivial), fun validator => ?_⟩
    cases validator with
    | true => exact ⟨hφ _ (by trivial), fun _ => trivial⟩
    | false => trivial

/-- A handler calls the ticket service as its action says, with the failures of its surroundings. -/
theorem uses_handleAction (hφ : ∀ op, NoTicketCall op → φ op)
    {action : ActionType} (ht : ∀ c, action.Calls c → φ (ticketService sur.ticketFails c)) (ssl : SSL)
    (text : Text) : (handleAction sur action ssl text).Uses φ := by
  have hauth : ∀ (r : Role) (m : AuthenticatedMessage) (onError : String → ServerProg Text)
      (body : ServerProg Text), (∀ what, (onError what).Uses φ) → body.Uses φ →
      (authenticated r m onError body).Uses φ :=
    fun r m onError body he hb => uses_authenticated (hφ _ (by trivial)) (hφ _ (by trivial)) he hb
  cases action with
  | getAvailableTickets =>
    refine (Prog.uses_ofExcept _ _).bind fun m => hauth _ _ _ _ (fun _ => ?_) ?_
    · exact uses_handleGetAvailableTicketsError (hφ _ (by trivial))
    · refine (uses_callEvents (hφ _ (by trivial))).bind fun event => ?_
      refine (uses_callTickets (ht _ (by trivial))).bind fun tickets => ?_
      exact uses_createAcceptAuthMessageAs (hφ _ (by trivial)) _
  | buyTicket =>
    refine (Prog.uses_ofExcept _ _).bind fun m => hauth _ _ _ _ (fun _ => trivial) ?_
    refine (uses_callEvents (hφ _ (by trivial))).bind fun event => ?_
    refine (uses_callUsers (hφ _ (by trivial))).bind fun userId => ?_
    refine (uses_callTickets (ht _ (by trivial))).bind fun ticket => ?_
    exact uses_createAcceptAuthMessageAs (hφ _ (by trivial)) _
  | validateTicket =>
    refine (Prog.uses_ofExcept _ _).bind fun m => hauth _ _ _ _ (fun _ => trivial) ?_
    refine (uses_callTickets (ht _ (by trivial))).bind fun ⟨ok, info⟩ => ?_
    exact uses_answer (hφ _ (by trivial)) ok _ _
  | checkIntegrity =>
    refine (Prog.uses_ofExcept _ _).bind fun m => hauth _ _ _ _ (fun _ => trivial) ?_
    refine (uses_callTickets (ht _ (by trivial))).bind fun ⟨ok, message⟩ => ?_
    exact uses_answer (hφ _ (by trivial)) ok _ _
  | sellTicket =>
    refine (Prog.uses_ofExcept _ _).bind fun m => hauth _ _ _ _ (fun _ => trivial) ?_
    refine (uses_callTickets (ht _ (by trivial))).bind fun _ => ?_
    exact uses_createAcceptAuthMessageAs (hφ _ (by trivial)) _
  | signUp =>
    exact (Prog.uses_ofExcept _ _).bind fun m => (uses_callUsers (hφ _ (by trivial))).bind fun ok =>
      uses_welcome hφ .user ssl m.username _ ok
  | logIn =>
    exact (Prog.uses_ofExcept _ _).bind fun m => (uses_callUsers (hφ _ (by trivial))).bind fun ok =>
      uses_welcome hφ .user ssl m.username _ ok
  | logInValidator =>
    exact (Prog.uses_ofExcept _ _).bind fun m => (uses_callUsers (hφ _ (by trivial))).bind fun ok =>
      uses_welcome hφ .validator ssl m.username _ ok
  | logOut => exact (Prog.uses_ofExcept _ _).bind (uses_doLogoutAction hφ)
  | accept | reject => exact (Prog.uses_ofExcept _ _).bind fun _ => trivial
  | ticketSell | acceptAuth | rejectAuth | unknown => trivial

theorem uses_clientLoop (hφ : ∀ op, NoTicketCall op → φ op) {ssl : SSL}
    {reads : List (Surroundings × Text)}
    (ht : ∀ read ∈ reads, ∀ c, φ (ticketService read.1.ticketFails c)) :
    (clientLoop ssl reads).Uses φ := by
  induction reads with
  | nil => trivial
  | cons read reads ih =>
    unfold clientLoop
    split
    · exact ⟨hφ _ (by trivial), fun _ => trivial⟩
    · have hread := ht read List.mem_cons_self
      have hrest := ih fun read' h => ht read' (List.mem_cons_of_mem _ h)
      refine Prog.Uses.bind ?_ fun response => ⟨hφ _ (by trivial), fun _ => hrest⟩
      exact (Prog.uses_ofExcept _ _).bind fun action => uses_handleAction hφ (fun c _ => hread c) ssl _

theorem uses_handleClient (hφ : ∀ op, NoTicketCall op → φ op) {ssl : SSL}
    {reads : List (Surroundings × Text)}
    (ht : ∀ read ∈ reads, ∀ c, φ (ticketService read.1.ticketFails c)) :
    (handleClient ssl reads).Uses φ :=
  (uses_clientLoop hφ ht).tryCatch fun _ => ⟨hφ _ (by trivial), fun _ => ⟨hφ _ (by trivial), fun _ =>
    ⟨hφ _ (by trivial), fun _ => trivial⟩⟩⟩

theorem noTicketFails_handleClient {ssl : SSL} {reads : List (Surroundings × Text)}
    (hsur : ∀ read ∈ reads, read.1.ticketFails = fun _ => false) :
    (handleClient ssl reads).Uses NoTicketFails := by
  refine uses_handleClient (fun op hop => ?_) fun read hread c => hsur read hread
  cases op with
  | ticketService fails c => exact hop.elim
  | _ => trivial

end Handlers

/-! ### Every interleaving -/

section Run

variable [DecidableEq ι] {ssl : ι → SSL} {reads : ι → List (Surroundings × Text)}
  {info : Table TicketInfo ℤ TicketInfo.ticketID} {users : UserDB coll} {events : EventDB coll}
  {tr : List (Firing ι ServerSig)} {c : Config ι ServerSig Exn Unit (Server coll)}

/-- A purchase draws a code that was not issued before. -/
def NewCodes (tr : List (Firing ι ServerSig)) (c : Config ι ServerSig Exn Unit (Server coll)) (i : ι) :
    Prop :=
  match (c.pool i).next with
  | some (.ticketService _ call) => NewCode (ticketHistory tr) c.st.tickets call
  | _ => True

instance (i : ι) (tr : List (Firing ι ServerSig)) (c : Config ι ServerSig Exn Unit (Server coll)) :
    Decidable (NewCodes tr c i) := by
  unfold NewCodes
  split
  · exact instDecidableNewCode ..
  · exact instDecidableTrue

/-- The calls that the connections make of the ticket service are a serial run of it. -/
theorem serial_of_connections (hsur : ∀ i, ∀ read ∈ reads i, read.1.ticketFails = fun _ => false)
    {s₀ : Server coll} (run : Runs (exec sha) NewCodes (serving ssl reads s₀) tr c) :
    Serial (serve sha) NewCode s₀.tickets (ticketHistory tr) c.st.tickets := by
  refine run.serial isPart_tickets (fun i => noTicketFails_handleClient (hsur i)) ?_
  intro tr c i op k call r hp ha hrec
  cases op with
  | ticketService fails call' =>
    cases hrec
    unfold NewCodes at ha
    rw [hp] at ha
    exact ha
  | _ => cases hrec

/-- **The server is a box office with many counters**: whatever the connections send and however their
handlers interleave, the ticket service has answered as one box office would, serving its calls in the
order in which they came, and the tables show where it has got to. -/
theorem boxOffice_of_connections (hsha : Function.Injective sha)
    (hsur : ∀ i, ∀ read ∈ reads i, read.1.ticketFails = fun _ => false)
    (run : Runs (exec sha) NewCodes
      (serving ssl reads (.start ⟨info, .empty, .empty⟩ users events)) tr c) :
    ∃ o, BoxOffice.Run sha info (ticketHistory tr) o ∧ o.held = latest (ticketHistory tr) ∧
      o.Shows sha c.st.tickets ∧ (admitted (ticketHistory tr)).Nodup ∧
      ∀ T, Provenance info (ticketHistory tr) c.st.tickets T ∧
        admissions (ticketHistory tr) T ≤ (ticketsFor (ticketHistory tr) T).length := by
  have hserial := serial_of_connections hsur run
  obtain ⟨o, hrun, hheld, hshows⟩ := boxOffice_of_serial hsha hserial
  obtain ⟨hnodup, hle⟩ := admissions_le_purchases hsha hserial
  exact ⟨o, hrun, hheld, hshows, hnodup, fun T => ⟨provenance_of_serial hsha hserial T, hle T⟩⟩

end Run

/-- User 5 logs in and buys seat 7, and her log-out on the other counter comes in between. -/
theorem boxOffice_of_loggedOut : ∃ tr c o, Runs (exec sha256) NewCodes loggedOut tr c ∧
    ticketsFor (ticketHistory tr) 7 = [ticketOfUser5] ∧
    BoxOffice.Run sha256 twoSeats (ticketHistory tr) o ∧ o.held = latest (ticketHistory tr) ∧
    o.Shows sha256 c.st.tickets ∧ (admitted (ticketHistory tr)).Nodup ∧
    ∀ T, Provenance twoSeats (ticketHistory tr) c.st.tickets T ∧
      admissions (ticketHistory tr) T ≤ (ticketsFor (ticketHistory tr) T).length := by
  have run := Runs.nil.replay (by decide +kernel : Admits (exec sha256) NewCodes
    [false, false, false, false, false, false, true, true, false, false, false, false] [] loggedOut)
  obtain ⟨o, h⟩ := boxOffice_of_connections sha256_injective (by
    rintro (_ | _) read hread
    · obtain rfl | rfl : read = (surroundings 0, logsIn) ∨ read = (surroundings 0, buys 7) := by
        simpa using hread
      all_goals rfl
    · rw [List.mem_singleton.1 hread]
      rfl) run
  exact ⟨_, _, o, run, by decide +kernel, h⟩

end TicketIST
