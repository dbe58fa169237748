import TicketIST.Controller
import TicketIST.Lib.Serial

/-!
# Only authorised requests touch tickets

A serial run of the server handles messages one after another, on any connections, together with the
log-outs of connections that ended in an exception.  Its history keeps the steps of every call, so
that a session can be traced back: `Live k cookie h` says that the latest successful sign-up or log-in
under `k` issued `cookie`, and that no log-out came after it.

The one step that decides is `Effect`, the inversion of everything a call can do: open one session,
close one, or leave all of them with their cookies.  From it follow the invariant of all runs, that
every entry of the session maps is live (`live_of_session`), and the main result
(`tickets_change_entitled`).
-/

namespace TicketIST

open TicketIST.Lib ServerOp

variable {coll sha : Text → Text}

/-! ### Serial runs of the server -/

/-- A message received, or the log-out that follows an exception of its handler. -/
inductive ServerCall
  | message (sur : Surroundings) (ssl : SSL) (receivedMessage : Text)
  | cleanup (ssl : SSL)

def ServerCall.prog : ServerCall → ServerProg Text
  | message sur ssl m => messageHandler sur ssl m
  | cleanup ssl => (fun _ => []) <$> logoutUserBySSL ssl

/-- What a call leaves behind: its reply, and the steps it took. -/
structure Outcome where
  reply : Except Exn Text
  steps : List (Step ServerSig)

def serveCall (sha : Text → Text) (c : ServerCall) (s : Server coll) : Outcome × Server coll :=
  ({ reply := (c.prog.run (exec sha) s).1, steps := c.prog.trace (exec sha) s },
    (c.prog.run (exec sha) s).2)

abbrev ServerHistory := List (ServerCall × Outcome)

abbrev ServerRun (sha : Text → Text) (s₀ : Server coll) : ServerHistory → Server coll → Prop :=
  Serial (serveCall sha) (fun _ _ _ => True) s₀

/-! ### Sessions in the history -/

/-- The message was a sign-up or a log-in, and its credential check succeeded. -/
inductive LogsIn (text : Text) (steps : List (Step ServerSig)) : Role → Credentials → Prop
  | signUp {m fails} : getActionType text = .ok .signUp → SignUpMessage.deserialize text = .ok m →
      ⟨userService fails (.signUp m.username m.password), .ok true⟩ ∈ steps → LogsIn text steps .user m
  | logIn {m fails} : getActionType text = .ok .logIn → LogInMessage.deserialize text = .ok m →
      ⟨userService fails (.loginUser m.username m.password), .ok true⟩ ∈ steps →
      LogsIn text steps .user m
  | logInValidator {m fails} : getActionType text = .ok .logInValidator →
      LogInValidatorMessage.deserialize text = .ok m →
      ⟨userService fails (.loginValidator m.username m.password), .ok true⟩ ∈ steps →
      LogsIn text steps .validator m

/-- The call was a successful sign-up or log-in under `k` that issued `cookie`. -/
def Issues (k : SessionKey) (cookie : Text) (e : ServerCall × Outcome) : Prop :=
  ∃ sur ssl text m nonce, e.1 = .message sur ssl text ∧ LogsIn text e.2.steps k.1 m ∧
    m.username = k.2 ∧ ⟨authenticate k cookie nonce, ()⟩ ∈ e.2.steps

/-- The call ended the session of `k`: an accepted log-out (`accept_iff_logsOut`), or a clean-up. -/
def LogsOut (k : SessionKey) (e : ServerCall × Outcome) : Prop := ⟨logout k, ()⟩ ∈ e.2.steps

/-- The latest successful sign-up or log-in under `k` issued `cookie`, with no log-out since. -/
def Live (k : SessionKey) (cookie : Text) (h : ServerHistory) : Prop :=
  ∃ h₁ e h₂, h = h₁ ++ e :: h₂ ∧ Issues k cookie e ∧
    ∀ e' ∈ h₂, (∀ cookie', ¬Issues k cookie' e') ∧ ¬LogsOut k e'

variable {k : SessionKey} {cookie : Text} {h : ServerHistory} {e : ServerCall × Outcome}

theorem Live.of_issues (h : ServerHistory) (he : Issues k cookie e) : Live k cookie (h ++ [e]) :=
  ⟨h, e, [], rfl, he, fun _ h => absurd h List.not_mem_nil⟩

theorem Live.snoc (hl : Live k cookie h) (hi : ∀ cookie', ¬Issues k cookie' e)
    (ho : ¬LogsOut k e) : Live k cookie (h ++ [e]) := by
  obtain ⟨h₁, e₀, h₂, rfl, he₀, hrest⟩ := hl
  refine ⟨h₁, e₀, h₂ ++ [e], by simp, he₀, ?_⟩
  intro e' he'
  rcases List.mem_append.1 he' with he' | he'
  · exact hrest e' he'
  · rw [List.mem_singleton.1 he']
    exact ⟨hi, ho⟩

/-! ### What the steps can do -/

/-- The step opens no session and ends none, and advances nonces of `K` only. -/
def Quiet (K : SessionKey → Prop) : ServerOp → Prop
  | authenticate .. => False
  | logout _ => False
  | advance k => K k
  | _ => True

/-- The step asks a service or checks a session, or advances a nonce of `K`. -/
def Answers (K : SessionKey → Prop) : ServerOp → Prop
  | ticketService .. => True
  | userService .. => True
  | eventService .. => True
  | isAuthenticationCorrect .. => True
  | advance k => K k
  | _ => False

def Call.ReadOnly : Call → Prop
  | getAllAvailableTicketsByEventId _ => True
  | checkIntegrity .. => True
  | _ => False

def Harmless : ServerOp → Prop
  | ticketService _ c => c.ReadOnly
  | _ => True

/-- Every session has its cookie in both states, or is in neither. -/
def KeepsCookies (s s' : Server coll) : Prop :=
  ∀ k, (s'.controller.sessions k).map Prod.fst = (s.controller.sessions k).map Prod.fst

variable {s s' : Server coll} {K : SessionKey → Prop} {op : ServerOp}

theorem Answers.quiet (h : Answers K op) : Quiet K op := by
  cases op with
  | advance k => exact h
  | authenticate => exact h
  | logout => exact h
  | _ => trivial

theorem Call.run_readOnly {c : Call} (h : c.ReadOnly) (fails : TicketOp → Bool) (db : TicketDB) :
    ((c.service sha).run (faulty fails) db).2 = db := by
  cases c with
  | getAllAvailableTicketsByEventId e =>
    simp only [Call.service, TicketService.getAllAvailableTicketsByEventId, Prog.run_call,
      Prog.run_ret, faulty_snd]
    split <;> rfl
  | checkIntegrity c ic =>
    obtain ⟨o, ho⟩ : ∃ o, (TicketService.checkIntegrity sha c ic).run (faulty fails) db = (o, db) :=
      checkIntegrity_run sha c ic db
    simp only [Call.service, ho]
  | _ => exact h.elim

theorem Harmless.exec (h : Harmless op) (s : Server coll) : (exec sha op s).2.tickets = s.tickets := by
  cases op with
  | ticketService fails c => exact Call.run_readOnly h fails s.tickets
  | _ => rfl

/-- A quiet step keeps the cookies, where the sessions it advances are there. -/
theorem Quiet.exec (h : Quiet K op) (hK : ∀ k, K k → (s.controller.sessions k).isSome = true) :
    KeepsCookies s (exec sha op s).2 := by
  intro k
  cases op with
  | authenticate => exact h.elim
  | logout => exact h.elim
  | advance k' =>
    by_cases hk : k = k'
    · subst hk
      obtain ⟨⟨cookie, n⟩, hv⟩ := Option.isSome_iff_exists.1 (hK k h)
      simp [ServerOp.exec, Controller.advance_of_sessions _ hv, hv]
    · simp only [ServerOp.exec, Controller.advance]
      rw [Controller.sessions_set_of_ne _ hk]
  | _ => rfl

theorem quiet_run {α : Type} {p : ServerProg α} (h : p.Uses (Quiet K))
    (hK : ∀ k, K k → (s.controller.sessions k).isSome = true) :
    KeepsCookies s (p.run (exec sha) s).2 := by
  refine h.run_inv (I := KeepsCookies s) ?_ fun _ => rfl
  intro op s' hop hs' k
  have hK' : ∀ k, K k → (s'.controller.sessions k).isSome = true := by
    intro k hk
    rw [← Option.isSome_map (f := Prod.fst), hs' k, Option.isSome_map]
    exact hK k hk
  exact (hop.exec hK' k).trans (hs' k)

theorem harmless_run {α : Type} {p : ServerProg α} (h : p.Uses Harmless) (s : Server coll) :
    (p.run (exec sha) s).2.tickets = s.tickets :=
  h.run_inv (M := exec sha) (I := fun s' => s'.tickets = s.tickets)
    (fun _ s' hop hs' => (hop.exec s').trans hs') rfl

/-! ### The parts of the handlers -/

section Parts

variable {sur : Surroundings} {r : Role} {u : Text}

theorem uses_callTickets {φ : ServerOp → Prop} {c : Call} (h : φ (.ticketService sur.ticketFails c)) :
    (callTickets sur c).Uses φ :=
  ⟨h, fun x => by cases x <;> trivial⟩

theorem uses_callUsers {φ : ServerOp → Prop} {c : UserCall} (h : φ (.userService sur.userFails c)) :
    (callUsers sur c).Uses φ :=
  ⟨h, fun x => by cases x <;> trivial⟩

theorem uses_callEvents {φ : ServerOp → Prop} {c : EventCall}
    (h : φ (.eventService sur.eventFails c)) : (callEvents sur c).Uses φ :=
  ⟨h, fun x => by cases x <;> trivial⟩

theorem uses_createAcceptAuthMessageAs {φ : ServerOp → Prop} (h : φ (advance (r, u))) (m : Text) :
    (createAcceptAuthMessageAs r m u).Uses φ := ⟨h, fun _ => trivial⟩

theorem uses_createRejectAuthMessageAs {φ : ServerOp → Prop} (h : φ (advance (r, u))) (m : Text) :
    (createRejectAuthMessageAs r m u).Uses φ := ⟨h, fun _ => trivial⟩

theorem uses_handleGetAvailableTicketsError {φ : ServerOp → Prop}
    (h : φ (.eventService sur.eventFails .getEventCache)) :
    (handleGetAvailableTicketsError sur).Uses φ := (uses_callEvents h).bind fun _ => trivial

variable {m : AuthenticatedMessage} {onError : String → ServerProg Text} {body : ServerProg Text}

theorem uses_onInvalidArgument {φ : ServerOp → Prop} (ha : φ (advance (r, u)))
    (he : ∀ what, (onError what).Uses φ) (x : Exn) : (onInvalidArgument r u onError x).Uses φ := by
  cases x with
  | invalidArgument what => exact (he what).bind fun _ => uses_createRejectAuthMessageAs ha _
  | outOfRange what => trivial

theorem uses_authenticated {φ : ServerOp → Prop}
    (hc : φ (isAuthenticationCorrect (r, m.username) m.sessionCookies m.nonce))
    (ha : φ (advance (r, m.username))) (he : ∀ what, (onError what).Uses φ) (hb : body.Uses φ) :
    (authenticated r m onError body).Uses φ := by
  refine Prog.Uses.tryCatch ⟨hc, fun ok => ?_⟩ (uses_onInvalidArgument ha he)
  cases ok with
  | true => exact hb
  | false => trivial

/-- A handler that answers an accepted or a rejected request in the name of `u`. -/
theorem uses_answer {φ : ServerOp → Prop} (h : φ (advance (r, u))) (ok : Bool) (accepted rejected : Text) :
    (if ok then createAcceptAuthMessageAs r accepted u
      else createRejectAuthMessageAs r rejected u).Uses φ := by
  cases ok with
  | true => exact uses_createAcceptAuthMessageAs h _
  | false => exact uses_createRejectAuthMessageAs h _

theorem answers_doGetAvailableTicketsAction (m : GetAvailableTicketsMessage) :
    (doGetAvailableTicketsAction sur m).Uses
      fun op => Answers (· = (.user, m.username)) op ∧ Harmless op := by
  refine uses_authenticated ⟨trivial, trivial⟩ (by exact ⟨rfl, trivial⟩) (fun _ => ?_) ?_
  · exact uses_handleGetAvailableTicketsError ⟨trivial, trivial⟩
  · exact (uses_callEvents ⟨trivial, trivial⟩).bind fun event =>
      (uses_callTickets ⟨trivial, trivial⟩).bind fun tickets =>
      uses_createAcceptAuthMessageAs (by exact ⟨rfl, trivial⟩) _

theorem answers_doCheckIntegrityAction (m : CheckIntegrityMessage) :
    (doCheckIntegrityAction sur m).Uses
      fun op => Answers (· = (.validator, m.username)) op ∧ Harmless op := by
  refine uses_authenticated ⟨trivial, trivial⟩ (by exact ⟨rfl, trivial⟩) (fun _ => trivial) ?_
  exact (uses_callTickets ⟨trivial, trivial⟩).bind fun ⟨ok, message⟩ =>
    uses_answer (by exact ⟨rfl, trivial⟩) ok _ _

theorem answers_doBuyTicketAction (m : BuyTicketMessage) :
    (doBuyTicketAction sur m).Uses (Answers (· = (.user, m.username))) := by
  refine uses_authenticated trivial (by exact rfl) (fun _ => trivial) ?_
  exact (uses_callEvents trivial).bind fun event => (uses_callUsers trivial).bind fun userId =>
    (uses_callTickets trivial).bind fun ticket => uses_createAcceptAuthMessageAs (by exact rfl) _

theorem answers_doSellTicketAction (m : SellTicketMessage) :
    (doSellTicketAction sur m).Uses (Answers (· = (.user, m.username))) := by
  refine uses_authenticated trivial (by exact rfl) (fun _ => trivial) ?_
  exact (uses_callTickets trivial).bind fun _ => uses_createAcceptAuthMessageAs (by exact rfl) _

theorem answers_doValidateTicketAction (m : ValidateTicketMessage) :
    (doValidateTicketAction sur m).Uses (Answers (· = (.validator, m.username))) := by
  refine uses_authenticated trivial (by exact rfl) (fun _ => trivial) ?_
  exact (uses_callTickets trivial).bind fun ⟨ok, info⟩ => uses_answer (by exact rfl) ok _ _

/-- The session that an authenticated request names. -/
def Holds (s : Server coll) (r : Role) (m : AuthenticatedMessage) : Prop :=
  s.controller.sessions (r, m.username) = some (m.sessionCookies, m.nonce - 1)

/-- A request that names no session is turned down, and nothing changes. -/
theorem authenticated_refused (h : ¬Holds s r m) :
    (authenticated r m onError body).run (exec sha) s = (.ok (createRejectMessage []), s) := by
  have hc : s.controller.isAuthenticationCorrect (r, m.username) m.sessionCookies m.nonce = false :=
    Bool.eq_false_iff.2 fun hc => h (s.controller.isAuthenticationCorrect_iff.1 hc)
  simp only [authenticated, Prog.call_bind, Prog.tryCatch_call, Prog.run_call, exec, hc]
  rfl

/-- A request that names a session goes on to its body. -/
theorem authenticated_run (h : Holds s r m) :
    (authenticated r m onError body).run (exec sha) s =
      (body.tryCatch (onInvalidArgument r m.username onError)).run (exec sha) s := by
  have hc := s.controller.isAuthenticationCorrect_iff.2 h
  simp only [authenticated, Prog.call_bind, Prog.tryCatch_call, Prog.run_call, exec, hc]
  rfl

end Parts

/-! ### What a call can do -/

/-- One row's `used` goes from 0 to 1, and nothing else changes. -/
def Admitted (db db' : TicketDB) : Prop :=
  db'.ticketInfo = db.ticketInfo ∧ db'.resellTickets = db.resellTickets ∧
    ∃ l₁ row l₂, db.ticket.rows = l₁ ++ row :: l₂ ∧ row.used = false ∧
      db'.ticket.rows = l₁ ++ { row with used := true } :: l₂

/-- The call is a message that may change the tables, and the session it names satisfies `P`. -/
inductive Entitled (P : Role → AuthenticatedMessage → Prop) (db db' : TicketDB) : ServerCall → Prop
  | buyTicket {sur ssl text m} : getActionType text = .ok .buyTicket →
      BuyTicketMessage.deserialize text = .ok m → P .user m.toAuthenticatedMessage →
      Entitled P db db' (.message sur ssl text)
  | sellTicket {sur ssl text m} : getActionType text = .ok .sellTicket →
      SellTicketMessage.deserialize text = .ok m → P .user m.toAuthenticatedMessage →
      Entitled P db db' (.message sur ssl text)
  | validateTicket {sur ssl text m} : getActionType text = .ok .validateTicket →
      ValidateTicketMessage.deserialize text = .ok m → P .validator m.toAuthenticatedMessage →
      Admitted db db' → Entitled P db db' (.message sur ssl text)

theorem Entitled.mono {P Q : Role → AuthenticatedMessage → Prop} {db db' : TicketDB}
    {c : ServerCall} (h : Entitled P db db' c) (hPQ : ∀ r m, P r m → Q r m) : Entitled Q db db' c := by
  cases h with
  | buyTicket ha hm hP => exact .buyTicket ha hm (hPQ _ _ hP)
  | sellTicket ha hm hP => exact .sellTicket ha hm (hPQ _ _ hP)
  | validateTicket ha hm hP hadm => exact .validateTicket ha hm (hPQ _ _ hP) hadm

theorem validateTicket_admits (fails : TicketOp → Bool) (code : Text) (db : TicketDB) :
    ((TicketService.validateTicket sha code).run (faulty fails) db).2 = db ∨
      Admitted db ((TicketService.validateTicket sha code).run (faulty fails) db).2 := by
  rcases Validate.run_cases sha fails code db with ⟨-, row, hrow, hc, hu, hrun⟩ | ⟨info, hrun⟩
  · rw [hrun]
    cases hset : fails (.setTicketInUse (sha code)) with
    | true => rw [faulty_of_true hset]; exact .inl rfl
    | false =>
      rw [faulty_of_false hset]
      obtain ⟨l₁, l₂, hl, hl'⟩ := Table.update_rows_of_key hrow hc
        (fun r => { r with used := true }) fun _ => rfl
      exact .inr ⟨rfl, rfl, l₁, row, l₂, hl, hu, hl'⟩
  · rw [hrun]
    exact .inl rfl

/-- **Everything a call can do** to the sessions and to the tickets. -/
inductive Effect (s : Server coll) (e : ServerCall × Outcome) (s' : Server coll) : Prop
  | opened {k : SessionKey} {cookie : Text} {nonce : ℤ} (issues : Issues k cookie e)
      (steps : ∀ st ∈ e.2.steps, Quiet (fun _ => True) st.1 ∨ ∃ n, st.1 = authenticate k cookie n)
      (sessions : s'.controller.sessions =
        Function.update s.controller.sessions k (some (cookie, nonce)))
      (tickets : s'.tickets = s.tickets)
  | closed {k : SessionKey} (steps : ∀ st ∈ e.2.steps, Quiet (fun _ => True) st.1 ∨ st.1 = logout k)
      (sessions : s'.controller.sessions = Function.update s.controller.sessions k none)
      (tickets : s'.tickets = s.tickets)
  | kept (steps : ∀ st ∈ e.2.steps, Quiet (fun _ => True) st.1) (cookies : KeepsCookies s s')
      (tickets : s'.tickets ≠ s.tickets → Entitled (Holds s) s.tickets s'.tickets e.1)

theorem LogsIn.mono {text : Text} {steps steps' : List (Step ServerSig)} {r : Role} {m : Credentials}
    (h : LogsIn text steps r m) (hs : steps ⊆ steps') : LogsIn text steps' r m := by
  cases h with
  | signUp ha hm hst => exact .signUp ha hm (hs hst)
  | logIn ha hm hst => exact .logIn ha hm (hs hst)
  | logInValidator ha hm hst => exact .logInValidator ha hm (hs hst)

theorem Quiet.mono {K' : SessionKey → Prop} (h : Quiet K op) (hK : ∀ k, K k → K' k) : Quiet K' op := by
  cases op with
  | advance k => exact hK k h
  | authenticate => exact h
  | logout => exact h
  | _ => trivial

section Calls

variable {c : ServerCall} {p : ServerProg Text}

/-- A call that uses neither sessions nor tickets. -/
theorem Effect.of_idle (hp : c.prog = p) (hq : p.Uses (Quiet fun _ => False))
    (hh : p.Uses Harmless) (s : Server coll) :
    Effect s (c, (serveCall sha c s).1) (serveCall sha c s).2 := by
  subst hp
  exact .kept (fun st hst => (hq.trace hst).mono fun _ => False.elim)
    (quiet_run hq fun _ => False.elim) fun hne => absurd (harmless_run hh s) hne

theorem Effect.of_authenticated {r : Role} {m : AuthenticatedMessage}
    {onError : String → ServerProg Text} {body : ServerProg Text}
    (hp : c.prog = authenticated r m onError body)
    (ha : (authenticated r m onError body).Uses (Answers (· = (r, m.username)))) {s : Server coll}
    (ht : Holds s r m → (serveCall sha c s).2.tickets ≠ s.tickets →
      Entitled (Holds s) s.tickets (serveCall sha c s).2.tickets c) :
    Effect s (c, (serveCall sha c s).1) (serveCall sha c s).2 := by
  have hq : c.prog.Uses (Quiet (· = (r, m.username))) := hp ▸ ha.mono fun _ => Answers.quiet
  refine .kept (fun st hst => (hq.trace hst).mono fun _ _ => trivial) ?_ ?_
  · by_cases h : Holds s r m
    · refine quiet_run hq ?_
      rintro k rfl
      rw [h]
      rfl
    · simp only [serveCall, hp, authenticated_refused h]
      exact fun _ => rfl
  · intro hne
    by_cases h : Holds s r m
    · exact ht h hne
    · simp only [serveCall, hp, authenticated_refused h] at hne
      exact absurd rfl hne

/-- A welcome opens one session, with a cookie drawn for it. -/
theorem welcome_run (sha : Text → Text) (sur : Surroundings) (r : Role) (ssl : SSL)
    (u failure : Text) (s : Server coll) : ∃ cookie nonce s',
      ((welcome sur r ssl u failure true).run (exec sha) s).2 = s' ∧
      (welcome sur r ssl u failure true).trace (exec sha) s =
        [⟨saveSSL ssl u, ()⟩, ⟨authenticate (r, u) cookie nonce, ()⟩,
          ⟨advance (r, u), (cookie, nonce + 1)⟩] ∧
      s'.controller =
        (s.controller.saveSSL ssl u).set (r, u) (some (cookie, nonce + 1)) ∧
      s'.tickets = s.tickets := by
  refine ⟨AuthenticatedMessage.generateCookie sur, AuthenticatedMessage.generateNonce sur, _, rfl,
    ?_, ?_, ?_⟩
  · simp [welcome, authenticateAs, createAcceptAuthMessageAs, exec, Controller.authenticate,
      Controller.advance]
  · simp [welcome, authenticateAs, createAcceptAuthMessageAs, exec, Controller.authenticate,
      Controller.advance, Controller.set, Controller.saveSSL]
  · rfl

/-- A sign-up or a log-in, where `op` is its credential check. -/
theorem Effect.of_welcome {sur : Surroundings} {ssl : SSL} {text : Text} {op : ServerOp}
    {k : op.Ret → ServerProg Bool} {r : Role} {m : Credentials} {failure : Text} {s : Server coll}
    (hp : (ServerCall.message sur ssl text).prog =
      Prog.call op k >>= welcome sur r ssl m.username failure)
    (hq : Quiet (fun _ => True) op) (hh : Harmless op)
    (hc : (exec sha op s).2.controller = s.controller)
    (hk : (∃ x, k (exec sha op s).1 = .throw x) ∨ k (exec sha op s).1 = .ret false ∨
      k (exec sha op s).1 = .ret true ∧ LogsIn text [⟨op, (exec sha op s).1⟩] r m) :
    Effect s (.message sur ssl text, (serveCall sha (.message sur ssl text) s).1)
      (serveCall sha (.message sur ssl text) s).2 := by
  have htickets : (exec sha op s).2.tickets = s.tickets := hh.exec s
  have hcookies : KeepsCookies s (exec sha op s).2 := by
    intro k
    rw [hc]
  simp only [serveCall, hp, Prog.call_bind, Prog.run_call, Prog.trace_call]
  rcases hk with ⟨x, hx⟩ | hx | ⟨hx, hlog⟩
  · rw [hx]
    exact .kept (by simpa using hq) hcookies fun hne => absurd htickets hne
  · rw [hx]
    exact .kept (by simpa [welcome] using hq) hcookies fun hne => absurd htickets hne
  · obtain ⟨cookie, nonce, s', hs', htr, hctl, htick⟩ :=
      welcome_run sha sur r ssl m.username failure (exec sha op s).2
    have hsess : s'.controller.sessions =
        Function.update s.controller.sessions (r, m.username) (some (cookie, nonce + 1)) := by
      rw [hctl, hc]
      rfl
    rw [hx, Prog.ret_bind, hs', htr]
    have hissues : ∀ reply, Issues (r, m.username) cookie (.message sur ssl text, { reply, steps :=
        [⟨op, (exec sha op s).1⟩, ⟨saveSSL ssl m.username, ()⟩,
          ⟨authenticate (r, m.username) cookie nonce, ()⟩,
          ⟨advance (r, m.username), (cookie, nonce + 1)⟩] }) := by
      intro reply
      exact ⟨sur, ssl, text, m, nonce, rfl, hlog.mono (by simp), rfl, by simp⟩
    refine .opened (hissues _) ?_ hsess (htick.trans htickets)
    intro st hst
    simp only [List.mem_cons, List.not_mem_nil, or_false] at hst
    rcases hst with rfl | rfl | rfl | rfl
    · exact .inl hq
    · exact .inl trivial
    · exact .inr ⟨nonce, rfl⟩
    · exact .inl trivial

/-- A log-out ends the session that it names, and is accepted, or it names none. -/
theorem doLogoutAction_cases (sha : Text → Text) (m : LogOutMessage) (s : Server coll) :
    (∃ r, Holds s r m.toAuthenticatedMessage ∧ (doLogoutAction m).run (exec sha) s =
        (.ok (createAcceptMessage "Log-out successful.\n".toList), (exec sha (logout (r, m.username)) s).2) ∧
      ∃ checks, (∀ st ∈ checks, Quiet (fun _ => True) st.1) ∧
        (doLogoutAction m).trace (exec sha) s = checks ++ [⟨logout (r, m.username), ()⟩]) ∨
    (doLogoutAction m).run (exec sha) s = (.ok (createRejectMessage []), s) ∧
      ∀ st ∈ (doLogoutAction m).trace (exec sha) s, Quiet (fun _ => True) st.1 := by
  simp only [doLogoutAction, Prog.call_bind, Prog.ret_bind, Prog.run_call, Prog.trace_call, exec]
  by_cases hu : s.controller.isAuthenticationCorrect (.user, m.username) m.sessionCookies m.nonce
  · simp only [hu, if_true]
    refine .inl ⟨.user, s.controller.isAuthenticationCorrect_iff.1 hu, rfl,
      [⟨isAuthenticationCorrect (.user, m.username) m.sessionCookies m.nonce, true⟩], ?_, rfl⟩
    exact List.forall_mem_singleton.2 trivial
  · by_cases hv : s.controller.isAuthenticationCorrect (.validator, m.username) m.sessionCookies
        m.nonce
    · simp only [hu, if_false, Bool.false_eq_true, Prog.run_call, Prog.trace_call, exec, hv, if_true]
      refine .inl ⟨.validator, s.controller.isAuthenticationCorrect_iff.1 hv, rfl,
        [⟨isAuthenticationCorrect (.user, m.username) m.sessionCookies m.nonce, false⟩,
          ⟨isAuthenticationCorrect (.validator, m.username) m.sessionCookies m.nonce, true⟩], ?_, rfl⟩
      exact List.forall_mem_cons.2 ⟨trivial, List.forall_mem_singleton.2 trivial⟩
    · simp only [hu, if_false, Bool.false_eq_true, Prog.run_call, Prog.trace_call, exec, hv]
      exact .inr ⟨rfl, by simp [Quiet]⟩

theorem Effect.of_logOut {m : LogOutMessage} (hp : c.prog = doLogoutAction m) (s : Server coll) :
    Effect s (c, (serveCall sha c s).1) (serveCall sha c s).2 := by
  simp only [serveCall, hp]
  rcases doLogoutAction_cases sha m s with ⟨r, -, hrun, checks, hchecks, htrace⟩ | ⟨hrun, hsteps⟩
  · rw [hrun, htrace]
    refine .closed (k := (r, m.username)) ?_ rfl rfl
    intro st hst
    rcases List.mem_append.1 hst with hst | hst
    · exact .inl (hchecks st hst)
    · exact .inr (congrArg Sigma.fst (List.mem_singleton.1 hst))
  · rw [hrun]
    exact .kept hsteps (fun _ => rfl) fun hne => absurd rfl hne

/-- **A log-out is answered with an accept message** exactly when it ended a session that it names. -/
theorem accept_iff_logsOut {sur : Surroundings} {ssl : SSL} {text : Text} {m : LogOutMessage}
    (ha : getActionType text = .ok .logOut) (hm : LogOutMessage.deserialize text = .ok m) (s : Server coll) :
    (serveCall sha (.message sur ssl text) s).1.reply =
        .ok (createAcceptMessage "Log-out successful.\n".toList) ↔
      ∃ r, Holds s r m.toAuthenticatedMessage ∧
        LogsOut (r, m.username) (.message sur ssl text, (serveCall sha (.message sur ssl text) s).1) := by
  have hprog : (ServerCall.message sur ssl text).prog = doLogoutAction m := by
    rw [ServerCall.prog, messageHandler, ha, Prog.ofExcept_ok, Prog.ret_bind, handleAction, hm,
      Prog.ofExcept_ok, Prog.ret_bind]
  simp only [serveCall, hprog, LogsOut]
  rcases doLogoutAction_cases sha m s with ⟨r, hr, hrun, checks, -, htrace⟩ | ⟨hrun, hsteps⟩
  · refine iff_of_true (congrArg Prod.fst hrun) ⟨r, hr, ?_⟩
    rw [htrace]
    exact List.mem_append_right _ (List.mem_singleton_self _)
  · have hne : createRejectMessage [] ≠ createAcceptMessage "Log-out successful.\n".toList := by decide
    refine iff_of_false ?_ ?_
    · rw [hrun]
      exact fun heq => hne (Except.ok.inj heq)
    · rintro ⟨r, -, ho⟩
      exact hsteps _ ho

theorem Effect.of_cleanup (ssl : SSL) (s : Server coll) :
    Effect s (.cleanup ssl, (serveCall sha (.cleanup ssl) s).1)
      (serveCall sha (.cleanup ssl) s).2 := by
  simp only [serveCall, ServerCall.prog, logoutUserBySSL, Prog.call_bind, Prog.ret_bind,
    Prog.map_call, Prog.map_ret, Prog.run_call, Prog.run_ret, Prog.trace_call, Prog.trace_ret, exec]
  refine .closed (k := (.user, (s.controller.sslToUsername ssl).getD [])) ?_ rfl rfl
  simp [Quiet, Controller.usernameOf]

/-- What an authenticated request makes of the tickets that calls their service first and leaves them
alone afterwards. -/
theorem tickets_authenticated {sur : Surroundings} {r : Role} {m : AuthenticatedMessage}
    (onError : String → ServerProg Text) (call : Call) {f : call.Answer → ServerProg Text}
    (he : ∀ what, (onError what).Uses Harmless) (hf : ∀ a, (f a).Uses Harmless) {s : Server coll}
    (h : Holds s r m) :
    ((authenticated r m onError (callTickets sur call >>= f)).run (exec sha) s).2.tickets =
      ((call.service sha).run (faulty sur.ticketFails) s.tickets).2 := by
  rw [authenticated_run h]
  simp only [callTickets, Prog.call_bind, Prog.tryCatch_call, Prog.run_call]
  refine (harmless_run (Prog.Uses.tryCatch ?_ (uses_onInvalidArgument trivial he)) _).trans rfl
  refine Prog.Uses.bind ?_ hf
  cases (exec sha (ticketService sur.ticketFails call) s).1 <;> trivial

theorem Effect.of_decode {α : Type} {x : Except Exn α} {f : α → ServerProg Text}
    (hp : c.prog = Prog.ofExcept x >>= f) {s : Server coll}
    (h : ∀ m, x = .ok m → c.prog = f m →
      Effect s (c, (serveCall sha c s).1) (serveCall sha c s).2) :
    Effect s (c, (serveCall sha c s).1) (serveCall sha c s).2 := by
  cases hx : x with
  | error e => exact of_idle (p := .throw e) (by rw [hp, hx]; rfl) trivial trivial s
  | ok m => exact h m hx (by rw [hp, hx]; rfl)

/-- An authenticated request that only reads the tickets. -/
theorem Effect.of_reading {r : Role} {m : AuthenticatedMessage} {onError : String → ServerProg Text}
    {body : ServerProg Text} (hp : c.prog = authenticated r m onError body)
    (hu : (authenticated r m onError body).Uses
      fun op => Answers (· = (r, m.username)) op ∧ Harmless op) (s : Server coll) :
    Effect s (c, (serveCall sha c s).1) (serveCall sha c s).2 := by
  have hh : c.prog.Uses Harmless := hp ▸ hu.mono fun _ => And.right
  refine of_authenticated hp (hu.mono fun _ => And.left) ?_
  intro _ hne
  exact absurd (harmless_run hh s) hne

theorem tickets_doValidateTicketAction {sur : Surroundings} {m : ValidateTicketMessage}
    {s : Server coll} (h : Holds s .validator m.toAuthenticatedMessage) :
    ((doValidateTicketAction sur m).run (exec sha) s).2.tickets =
      ((TicketService.validateTicket sha m.valCode).run (faulty sur.ticketFails) s.tickets).2 := by
  exact tickets_authenticated errorText (.validateTicket m.valCode) (fun _ => trivial)
    (fun (ok, info) => uses_answer (by trivial) ok _ _) h

theorem credentials_cases {P : Except Exn Bool → Prop} (h : P (.ok true)) (a : Except Exn Bool) :
    (∃ x, (Prog.ofExcept a : ServerProg Bool) = .throw x) ∨
      (Prog.ofExcept a : ServerProg Bool) = .ret false ∨
      (Prog.ofExcept a : ServerProg Bool) = .ret true ∧ P a := by
  rcases a with x | _ | _
  · exact .inl ⟨x, rfl⟩
  · exact .inr (.inl rfl)
  · exact .inr (.inr ⟨rfl, h⟩)

theorem Effect.of_message (sur : Surroundings) (ssl : SSL) (text : Text) (s : Server coll) :
    Effect s (.message sur ssl text, (serveCall sha (.message sur ssl text) s).1)
      (serveCall sha (.message sur ssl text) s).2 := by
  refine of_decode (x := getActionType text) rfl ?_
  intro action ha hp
  cases action with
  | getAvailableTickets =>
    exact of_decode hp fun m _ hp => of_reading hp (answers_doGetAvailableTicketsAction m) s
  | checkIntegrity =>
    exact of_decode hp fun m _ hp => of_reading hp (answers_doCheckIntegrityAction m) s
  | buyTicket =>
    exact of_decode hp fun m hm hp =>
      of_authenticated hp (answers_doBuyTicketAction m) fun hh _ => .buyTicket ha hm hh
  | sellTicket =>
    exact of_decode hp fun m hm hp =>
      of_authenticated hp (answers_doSellTicketAction m) fun hh _ => .sellTicket ha hm hh
  | validateTicket =>
    refine of_decode hp ?_
    intro m hm hp
    refine of_authenticated hp (answers_doValidateTicketAction m) fun hh hne =>
      .validateTicket ha hm hh ?_
    have ht : ((doValidateTicketAction sur m).run (exec sha) s).2.tickets = _ :=
      tickets_doValidateTicketAction hh
    simp only [serveCall, hp, ht] at hne ⊢
    exact (validateTicket_admits _ _ _).resolve_left hne
  | signUp =>
    refine of_decode hp ?_
    intro m hm hp
    refine of_welcome hp trivial trivial rfl ?_
    exact credentials_cases (P := fun a => LogsIn text
      [⟨userService sur.userFails (.signUp m.username m.password), a⟩] .user m)
      (.signUp ha hm List.mem_cons_self) _
  | logIn =>
    refine of_decode hp ?_
    intro m hm hp
    refine of_welcome hp trivial trivial rfl ?_
    exact credentials_cases (P := fun a => LogsIn text
      [⟨userService sur.userFails (.loginUser m.username m.password), a⟩] .user m)
      (.logIn ha hm List.mem_cons_self) _
  | logInValidator =>
    refine of_decode hp ?_
    intro m hm hp
    refine of_welcome hp trivial trivial rfl ?_
    exact credentials_cases (P := fun a => LogsIn text
      [⟨userService sur.userFails (.loginValidator m.username m.password), a⟩] .validator m)
      (.logInValidator ha hm List.mem_cons_self) _
  | logOut => exact of_decode hp fun m _ hp => of_logOut hp s
  | accept => exact of_decode hp fun _ _ hp => of_idle hp trivial trivial s
  | reject => exact of_decode hp fun _ _ hp => of_idle hp trivial trivial s
  | ticketSell | acceptAuth | rejectAuth | unknown => exact of_idle hp trivial trivial s

end Calls

/-! ### Every run -/

/-- **What a call can do**, message or not. -/
theorem Effect.of_call (sha : Text → Text) (c : ServerCall) (s : Server coll) :
    Effect s (c, (serveCall sha c s).1) (serveCall sha c s).2 := by
  cases c with
  | message sur ssl text => exact of_message sur ssl text s
  | cleanup ssl => exact of_cleanup ssl s

theorem Issues.step (h : Issues k cookie e) : ∃ nonce, ⟨authenticate k cookie nonce, ()⟩ ∈ e.2.steps := by
  obtain ⟨sur, ssl, text, m, nonce, -, -, -, hst⟩ := h
  exact ⟨nonce, hst⟩

/-- A session after a call was opened by it, or was there before and is not touched. -/
theorem Effect.session (he : Effect s e s') {n : ℤ}
    (hk : s'.controller.sessions k = some (cookie, n)) : Issues k cookie e ∨
      (∃ n, s.controller.sessions k = some (cookie, n)) ∧ (∀ cookie', ¬Issues k cookie' e) ∧
        ¬LogsOut k e := by
  cases he with
  | @opened k₀ cookie₀ nonce issues steps sessions tickets =>
    by_cases hkk : k = k₀
    · subst hkk
      rw [sessions, Function.update_self] at hk
      cases hk
      exact .inl issues
    · rw [sessions, Function.update_of_ne hkk] at hk
      refine .inr ⟨⟨n, hk⟩, ?_, ?_⟩
      · intro cookie' hi
        obtain ⟨n', hst⟩ := hi.step
        rcases steps _ hst with hq | ⟨n'', heq⟩
        · exact hq
        · cases heq
          exact hkk rfl
      · intro ho
        rcases steps _ ho with hq | ⟨n'', heq⟩
        · exact hq
        · cases heq
  | @closed k₀ steps sessions tickets =>
    by_cases hkk : k = k₀
    · rw [sessions, hkk, Function.update_self] at hk
      cases hk
    · rw [sessions, Function.update_of_ne hkk] at hk
      refine .inr ⟨⟨n, hk⟩, ?_, ?_⟩
      · intro cookie' hi
        obtain ⟨n', hst⟩ := hi.step
        rcases steps _ hst with hq | heq
        · exact hq
        · cases heq
      · intro ho
        rcases steps _ ho with hq | heq
        · exact hq
        · cases heq
          exact hkk rfl
  | kept steps cookies tickets =>
    have hc := cookies k
    rw [hk] at hc
    obtain ⟨⟨c', n'⟩, hs, hcc⟩ := Option.map_eq_some_iff.1 hc.symm
    obtain rfl : c' = cookie := hcc
    refine .inr ⟨⟨n', hs⟩, ?_, fun ho => steps _ ho⟩
    intro cookie' hi
    obtain ⟨n'', hst⟩ := hi.step
    exact steps _ hst

variable {tickets : TicketDB} {users : UserDB coll} {events : EventDB coll}

/-- **Every entry of the session maps is live**: put there by the latest successful credential check
under its name, and not logged out since. -/
theorem live_of_session (run : ServerRun sha (Server.start tickets users events) h s) {n : ℤ}
    (hk : s.controller.sessions k = some (cookie, n)) : Live k cookie h := by
  have hI : ∀ k cookie n, s.controller.sessions k = some (cookie, n) → Live k cookie h := by
    refine run.inv (I := fun h s => ∀ k cookie n, s.controller.sessions k = some (cookie, n) →
      Live k cookie h) (fun _ _ _ h => nomatch h) ?_
    intro h s c ih _ k cookie n hk
    rcases (Effect.of_call sha c s).session hk with hi | ⟨⟨n', hs⟩, hi, ho⟩
    · exact .of_issues h hi
    · exact (ih k cookie n' hs).snoc hi ho
  exact hI k cookie n hk

/-- The session that `m` names was issued by the latest log-in under its name, with no log-out since,
and `m` has the nonce that comes next. -/
def Authorised (h : ServerHistory) (s : Server coll) (r : Role) (m : AuthenticatedMessage) : Prop :=
  Live (r, m.username) m.sessionCookies h ∧
    ∃ n, s.controller.sessions (r, m.username) = some (m.sessionCookies, n) ∧ m.nonce = n + 1

def loggedIn : ServerHistory × Server lower :=
  serveAll (serveCall sha256) [.message (surroundings 0) 1 logsIn] [] opened

/-- **Only authorised requests touch tickets.** -/
theorem tickets_change_entitled (run : ServerRun sha (Server.start tickets users events) h s)
    (c : ServerCall) (hne : (serveCall sha c s).2.tickets ≠ s.tickets) :
    Entitled (Authorised h s) s.tickets (serveCall sha c s).2.tickets c := by
  cases Effect.of_call sha c s with
  | opened _ _ _ tickets => exact absurd tickets hne
  | closed _ _ tickets => exact absurd tickets hne
  | kept _ _ tickets =>
    refine (tickets hne).mono ?_
    intro r m hm
    exact ⟨live_of_session run hm, m.nonce - 1, hm, (Int.sub_add_cancel ..).symm⟩

theorem tickets_change_purchase :
    (serveCall sha256 (.message (surroundings 0) 1 (buys 7)) loggedIn.2).2.tickets ≠
      loggedIn.2.tickets ∧
    Entitled (Authorised loggedIn.1 loggedIn.2) loggedIn.2.tickets
      (serveCall sha256 (.message (surroundings 0) 1 (buys 7)) loggedIn.2).2.tickets
      (.message (surroundings 0) 1 (buys 7)) := by
  have run : ServerRun sha256 opened loggedIn.1 loggedIn.2 := Serial.nil.snoc _ trivial
  have hne : (serveCall sha256 (.message (surroundings 0) 1 (buys 7)) loggedIn.2).2.tickets ≠
      loggedIn.2.tickets := by
    intro h
    exact absurd (congrArg (fun db => db.ticketInfo.rows.length) h) (by decide +kernel)
  exact ⟨hne, tickets_change_entitled run _ hne⟩

end TicketIST
