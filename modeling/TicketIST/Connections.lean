import TicketIST.Authorisation

/-!
# The end of a connection

`handleClient` answers what a connection sends until a read fails, a message has no colon or a handler
throws, and logs the connection out by its handle in the last case only.  The handle stands for the
name that was saved last, and that name for a session of a user.

So a connection that was served alone leaves nothing behind exactly if it either opened no session, or
ended in an exception with no session open but that of the user who logged in last
(`ends_clean_iff`).
-/

namespace TicketIST

open TicketIST.Lib ServerOp

variable {coll sha : Text → Text}

/-! ### What requests make of the sessions -/

/-- One of the steps opens a session of `k`: a sign-up or a log-in that succeeds. -/
def OpenedIn (steps : List (Step ServerSig)) (k : SessionKey) : Prop :=
  ∃ cookie nonce, ⟨authenticate k cookie nonce, ()⟩ ∈ steps

/-- One of the steps is the check of an authenticated request of `k`, and it passes. -/
def RequestedIn (steps : List (Step ServerSig)) (k : SessionKey) : Prop :=
  ∃ cookie nonce, ⟨isAuthenticationCorrect k cookie nonce, true⟩ ∈ steps

/-- What the requests of the connection `ssl` leave alone when they take the server from `s` to `s'` in
the given steps. -/
structure Kept (ssl : SSL) (s : Server coll) (steps : List (Step ServerSig)) (s' : Server coll) :
    Prop where
  /-- who opens a session is entered for the handle -/
  entered : ∀ k, OpenedIn steps k → s'.controller.sslToUsername ssl ≠ none
  /-- the entry of the handle changes in no other way -/
  handle : (∀ k, ¬OpenedIn steps k) →
    s'.controller.sslToUsername ssl = s.controller.sslToUsername ssl
  /-- a session that was not opened does not come into being -/
  absent : ∀ k, ¬OpenedIn steps k → s.controller.sessions k = none →
    s'.controller.sessions k = none
  /-- a session changes only through requests of its own -/
  alone : ∀ k, ¬OpenedIn steps k → ¬RequestedIn steps k →
    s'.controller.sessions k = s.controller.sessions k

section Kept

variable {ssl : SSL} {s s' s'' : Server coll} {steps steps' : List (Step ServerSig)} {k : SessionKey}

theorem not_openedIn_nil (k : SessionKey) : ¬OpenedIn [] k :=
  fun ⟨_, _, h⟩ => absurd h List.not_mem_nil

theorem openedIn_append :
    OpenedIn (steps ++ steps') k ↔ OpenedIn steps k ∨ OpenedIn steps' k := by
  simp only [OpenedIn, List.mem_append, exists_or]

theorem requestedIn_append :
    RequestedIn (steps ++ steps') k ↔ RequestedIn steps k ∨ RequestedIn steps' k := by
  simp only [RequestedIn, List.mem_append, exists_or]

theorem Kept.trans (h : Kept ssl s steps s') (h' : Kept ssl s' steps' s'') :
    Kept ssl s (steps ++ steps') s'' where
  entered k hk := by
    by_cases hlater : ∃ k, OpenedIn steps' k
    · obtain ⟨k', hk'⟩ := hlater
      exact h'.entered k' hk'
    · rw [not_exists] at hlater
      rw [h'.handle hlater]
      exact h.entered k ((openedIn_append.1 hk).resolve_right (hlater k))
  handle hno := by
    simp only [openedIn_append, not_or] at hno
    rw [h'.handle fun k => (hno k).2, h.handle fun k => (hno k).1]
  absent k hno hnone := by
    rw [openedIn_append, not_or] at hno
    exact h'.absent k hno.2 (h.absent k hno.1 hnone)
  alone k hno hreq := by
    rw [openedIn_append, not_or] at hno
    rw [requestedIn_append, not_or] at hreq
    rw [h'.alone k hno.2 hreq.2, h.alone k hno.1 hreq.1]

/-- Steps that leave the sessions and the handles as they were. -/
theorem Kept.of_sessions (hno : ∀ k, ¬OpenedIn steps k)
    (hs : ∀ k, s'.controller.sessions k = s.controller.sessions k)
    (hssl : s'.controller.sslToUsername = s.controller.sslToUsername) : Kept ssl s steps s' where
  entered k hk := absurd hk (hno k)
  handle _ := by rw [hssl]
  absent k _ hnone := by rw [hs, hnone]
  alone k _ _ := hs k

theorem Kept.of_controller (hno : ∀ k, ¬OpenedIn steps k) (hc : s'.controller = s.controller) :
    Kept ssl s steps s' := .of_sessions hno (fun _ => by rw [hc]) (by rw [hc])

/-- A log-in. -/
theorem Kept.of_opened {u : Text} {v : Text × ℤ} (hk : OpenedIn steps k)
    (hc : s'.controller = (s.controller.saveSSL ssl u).set k (some v)) : Kept ssl s steps s' := by
  have hne : ∀ k', ¬OpenedIn steps k' →
      s'.controller.sessions k' = s.controller.sessions k' := by
    intro k' hno
    have hkk : k' ≠ k := by
      rintro rfl
      exact hno hk
    rw [hc, Controller.sessions_set_of_ne _ hkk]
    rfl
  constructor
  · intro _ _
    rw [hc]
    simp [Controller.set, Controller.saveSSL]
  · exact fun hno => absurd hk (hno k)
  · exact fun k' hno hnone => (hne k' hno).trans hnone
  · exact fun k' hno _ => hne k' hno

/-- A request in the session of `k`. -/
theorem Kept.of_requested (hno : ∀ k, ¬OpenedIn steps k) (hreq : RequestedIn steps k)
    (hk : s.controller.sessions k ≠ none)
    (hs : ∀ k', k' ≠ k → s'.controller.sessions k' = s.controller.sessions k')
    (hssl : s'.controller.sslToUsername = s.controller.sslToUsername) : Kept ssl s steps s' where
  entered k hk := absurd hk (hno k)
  handle _ := by rw [hssl]
  absent k' _ hnone := by
    have hkk : k' ≠ k := by
      rintro rfl
      exact hk hnone
    rw [hs k' hkk, hnone]
  alone k' _ hreq' := by
    refine hs k' ?_
    rintro rfl
    exact hreq' hreq

theorem not_openedIn {α : Type} {K : SessionKey → Prop} {p : ServerProg α} (h : p.Uses (Answers K))
    (s : Server coll) (k : SessionKey) : ¬OpenedIn (p.trace (exec sha) s) k := by
  rintro ⟨cookie, nonce, hst⟩
  exact h.trace hst

/-- Answering changes the sessions of `K` only, and no handle. -/
theorem answers_run {α : Type} {K : SessionKey → Prop} {p : ServerProg α} (h : p.Uses (Answers K))
    (s : Server coll) :
    (∀ k, ¬K k → (p.run (exec sha) s).2.controller.sessions k = s.controller.sessions k) ∧
      (p.run (exec sha) s).2.controller.sslToUsername = s.controller.sslToUsername := by
  refine h.run_inv (I := fun s' : Server coll =>
    (∀ k, ¬K k → s'.controller.sessions k = s.controller.sessions k) ∧
      s'.controller.sslToUsername = s.controller.sslToUsername) ?_ ⟨fun _ _ => rfl, rfl⟩
  rintro op s' hop ⟨hs', hssl⟩
  cases op with
  | advance k₀ =>
    refine ⟨fun k hk => ?_, hssl⟩
    have hkk : k ≠ k₀ := by
      rintro rfl
      exact hk hop
    exact (Controller.sessions_set_of_ne _ hkk _).trans (hs' k hk)
  | ticketService | userService | eventService | isAuthenticationCorrect => exact ⟨hs', hssl⟩
  | _ => exact hop.elim

end Kept

/-! ### The handlers -/

section Handlers

variable {ssl : SSL} {sur : Surroundings}

theorem Kept.bind {α β : Type} {p : ServerProg α} {f : α → ServerProg β} {s : Server coll}
    (hp : Kept ssl s (p.trace (exec sha) s) (p.run (exec sha) s).2)
    (hf : ∀ a (s : Server coll), Kept ssl s ((f a).trace (exec sha) s) ((f a).run (exec sha) s).2) :
    Kept ssl s ((p >>= f).trace (exec sha) s) ((p >>= f).run (exec sha) s).2 := by
  rw [Prog.trace_bind, Prog.run_bind]
  generalize p.run (exec sha) s = res at hp
  obtain ⟨x | a, s'⟩ := res
  · rwa [List.append_nil]
  · exact hp.trans (hf a s')

theorem kept_ofExcept {α : Type} (x : Except Exn α) (s : Server coll) :
    Kept ssl s ((Prog.ofExcept x : ServerProg α).trace (exec sha) s)
      ((Prog.ofExcept x : ServerProg α).run (exec sha) s).2 := by
  cases x <;> exact .of_controller not_openedIn_nil rfl

theorem kept_authenticated {r : Role} {m : AuthenticatedMessage}
    {onError : String → ServerProg Text} {body : ServerProg Text}
    (ha : (authenticated r m onError body).Uses (Answers (· = (r, m.username)))) (s : Server coll) :
    Kept ssl s ((authenticated r m onError body).trace (exec sha) s)
      ((authenticated r m onError body).run (exec sha) s).2 := by
  by_cases h : Holds s r m
  · refine .of_requested (not_openedIn ha s) (k := (r, m.username)) ?_ ?_ ?_ ?_
    · have hc := s.controller.isAuthenticationCorrect_iff.2 h
      refine ⟨m.sessionCookies, m.nonce, ?_⟩
      simp only [authenticated, Prog.call_bind, Prog.tryCatch_call, Prog.trace_call, exec, hc]
      exact List.mem_cons_self
    · rw [h]
      exact Option.some_ne_none _
    · exact (answers_run ha s).1
    · exact (answers_run ha s).2
  · exact .of_controller (not_openedIn ha s) (by rw [authenticated_refused h])

/-- A sign-up or a log-in, where `c` is its credential check. -/
theorem kept_logIn {c : UserCall} {r : Role} {u failure : Text} {f : c.Answer → Bool}
    (s : Server coll) :
    Kept ssl s ((callUsers sur c >>= fun a => welcome sur r ssl u failure (f a)).trace (exec sha) s)
      ((callUsers sur c >>= fun a => welcome sur r ssl u failure (f a)).run (exec sha) s).2 := by
  refine Kept.bind ?_ fun a s => ?_
  · have ha : (callUsers sur c).Uses (Answers fun _ => False) := uses_callUsers trivial
    have hrun : (∀ k, ¬False → ((callUsers sur c).run (exec sha) s).2.controller.sessions k =
        s.controller.sessions k) ∧ _ := answers_run ha s
    exact .of_sessions (not_openedIn ha s) (fun k => hrun.1 k not_false) hrun.2
  · cases f a with
    | false => exact .of_controller not_openedIn_nil rfl
    | true =>
      obtain ⟨cookie, nonce, s', hs', htr, hctl, -⟩ := welcome_run sha sur r ssl u failure s
      rw [hs', htr]
      exact .of_opened (k := (r, u)) ⟨cookie, nonce, by simp⟩ hctl

theorem kept_doLogoutAction (m : LogOutMessage) (s : Server coll) :
    Kept ssl s ((doLogoutAction m).trace (exec sha) s) ((doLogoutAction m).run (exec sha) s).2 := by
  have hlogout : ∀ r, s.controller.isAuthenticationCorrect (r, m.username) m.sessionCookies
      m.nonce = true → ∀ steps, (∀ k, ¬OpenedIn steps k) →
      ⟨isAuthenticationCorrect (r, m.username) m.sessionCookies m.nonce, true⟩ ∈ steps →
      Kept ssl s steps { s with controller := s.controller.logout (r, m.username) } := by
    intro r hc steps hno hst
    have hk := s.controller.isAuthenticationCorrect_iff.1 hc
    exact .of_requested hno ⟨_, _, hst⟩ (hk ▸ Option.some_ne_none _)
      (fun k' hk' => Controller.sessions_set_of_ne _ hk' _) rfl
  simp only [doLogoutAction, Prog.call_bind, Prog.ret_bind, Prog.run_call, Prog.trace_call, exec]
  by_cases hu : s.controller.isAuthenticationCorrect (.user, m.username) m.sessionCookies m.nonce
  · simp only [hu, if_true]
    exact hlogout .user hu _ (by simp [OpenedIn]) (by simp)
  · by_cases hv : s.controller.isAuthenticationCorrect (.validator, m.username) m.sessionCookies
        m.nonce
    · simp only [hu, if_false, Bool.false_eq_true, Prog.run_call, Prog.trace_call, exec, hv, if_true]
      exact hlogout .validator hv _ (by simp [OpenedIn]) (by simp)
    · simp only [hu, if_false, Bool.false_eq_true, Prog.run_call, Prog.trace_call, exec, hv]
      exact .of_controller (by simp [OpenedIn]) rfl

theorem kept_handleAction (action : ActionType) (text : Text) (s : Server coll) :
    Kept ssl s ((handleAction sur action ssl text).trace (exec sha) s)
      ((handleAction sur action ssl text).run (exec sha) s).2 := by
  cases action with
  | getAvailableTickets =>
    exact (kept_ofExcept _ s).bind fun m => kept_authenticated
      ((answers_doGetAvailableTicketsAction m).mono fun _ => And.left)
  | checkIntegrity =>
    exact (kept_ofExcept _ s).bind fun m => kept_authenticated
      ((answers_doCheckIntegrityAction m).mono fun _ => And.left)
  | buyTicket =>
    exact (kept_ofExcept _ s).bind fun m => kept_authenticated (answers_doBuyTicketAction m)
  | sellTicket =>
    exact (kept_ofExcept _ s).bind fun m => kept_authenticated (answers_doSellTicketAction m)
  | validateTicket =>
    exact (kept_ofExcept _ s).bind fun m => kept_authenticated (answers_doValidateTicketAction m)
  | signUp => exact (kept_ofExcept _ s).bind fun m => kept_logIn
  | logIn => exact (kept_ofExcept _ s).bind fun m => kept_logIn
  | logInValidator => exact (kept_ofExcept _ s).bind fun m => kept_logIn
  | logOut => exact (kept_ofExcept _ s).bind kept_doLogoutAction
  | accept => exact (kept_ofExcept _ s).bind fun _ _ => .of_controller not_openedIn_nil rfl
  | reject => exact (kept_ofExcept _ s).bind fun _ _ => .of_controller not_openedIn_nil rfl
  | ticketSell | acceptAuth | rejectAuth | unknown => exact .of_controller not_openedIn_nil rfl

/-- **What the requests of a connection leave alone**, by induction over what it sends. -/
theorem kept_clientLoop (reads : List (Surroundings × Text)) (s : Server coll) :
    Kept ssl s ((clientLoop ssl reads).trace (exec sha) s)
      ((clientLoop ssl reads).run (exec sha) s).2 := by
  have hsend : ∀ {α : Type} (data : Text) (p : ServerProg α) (s : Server coll),
      Kept ssl s (p.trace (exec sha) s) (p.run (exec sha) s).2 →
      Kept ssl s ((ask (sendData ssl data) >>= fun _ => p).trace (exec sha) s)
        ((ask (sendData ssl data) >>= fun _ => p).run (exec sha) s).2 := by
    intro α data p s hp
    have h : Kept ssl s [⟨sendData ssl data, ()⟩] s := .of_controller (by simp [OpenedIn]) rfl
    exact h.trans hp
  induction reads generalizing s with
  | nil => exact .of_controller not_openedIn_nil rfl
  | cons read reads ih =>
    unfold clientLoop
    split
    · exact .of_controller (by simp [OpenedIn]) rfl
    · refine Kept.bind ?_ fun response s => hsend response _ s (ih s)
      exact (kept_ofExcept _ s).bind fun action => kept_handleAction action read.2

end Handlers

/-! ### When the connection ends -/

section Ends

variable (sha : Text → Text) (ssl : SSL) (reads : List (Surroundings × Text)) (s : Server coll)

/-- The steps of the requests received on the connection. -/
def received : List (Step ServerSig) := (clientLoop ssl reads).trace (exec sha) s

/-- How the loop is left, and the server then. -/
def loopEnd : Except Exn Unit × Server coll := (clientLoop ssl reads).run (exec sha) s

/-- The server when `handleClient` returns. -/
def ended : Server coll := ((handleClient ssl reads).run (exec sha) s).2

/-- The session that the handle stands for in a log-out: that of the user last entered for it. -/
def standsFor : SessionKey :=
  (.user, ((loopEnd sha ssl reads s).2.controller.sslToUsername ssl).getD [])

/-- Nothing of the connection is left, and nothing of others is lost. -/
structure EndsClean : Prop where
  /-- a session that was opened on the connection is gone -/
  closed : ∀ k, OpenedIn (received sha ssl reads s) k →
    (ended sha ssl reads s).controller.sessions k = none
  /-- the handle is not entered -/
  forgotten : (ended sha ssl reads s).controller.sslToUsername ssl = none
  /-- another session is as the requests left it -/
  others : ∀ k, s.controller.sessions k ≠ none → ¬OpenedIn (received sha ssl reads s) k →
    (ended sha ssl reads s).controller.sessions k =
      (loopEnd sha ssl reads s).2.controller.sessions k
  /-- as it was, if none of them was its own -/
  unchanged : ∀ k, s.controller.sessions k ≠ none → ¬OpenedIn (received sha ssl reads s) k →
    ¬RequestedIn (received sha ssl reads s) k →
    (ended sha ssl reads s).controller.sessions k = s.controller.sessions k

/-- No handler throws, no log-in succeeds and the handle is not entered from before; or a handler
throws, and the one session that may be open then, of those opened here, is the one that the handle
stands for, which is not open otherwise. -/
def Tidy : Prop :=
  match (loopEnd sha ssl reads s).1 with
  | .ok () => (∀ k, ¬OpenedIn (received sha ssl reads s) k) ∧
      s.controller.sslToUsername ssl = none
  | .error _ =>
    (∀ k, OpenedIn (received sha ssl reads s) k → k = standsFor sha ssl reads s ∨
      (loopEnd sha ssl reads s).2.controller.sessions k = none) ∧
    ((loopEnd sha ssl reads s).2.controller.sessions (standsFor sha ssl reads s) ≠ none →
      OpenedIn (received sha ssl reads s) (standsFor sha ssl reads s))

variable {sha ssl reads s}

theorem kept_loopEnd : Kept ssl s (received sha ssl reads s) (loopEnd sha ssl reads s).2 :=
  kept_clientLoop reads s

theorem ended_of_ok (h : (loopEnd sha ssl reads s).1 = .ok ()) :
    ended sha ssl reads s = (loopEnd sha ssl reads s).2 := by
  have hrun : (clientLoop ssl reads).run (exec sha) s = (.ok (), (loopEnd sha ssl reads s).2) :=
    Prod.ext h rfl
  rw [ended, handleClient, Prog.run_tryCatch, hrun]

/-- The log-out after an exception. -/
theorem ended_of_error {x : Exn} (h : (loopEnd sha ssl reads s).1 = .error x) :
    (ended sha ssl reads s).controller.sessions =
        Function.update (loopEnd sha ssl reads s).2.controller.sessions (standsFor sha ssl reads s)
          none ∧
      (ended sha ssl reads s).controller.sslToUsername ssl = none := by
  have hrun : (clientLoop ssl reads).run (exec sha) s = (.error x, (loopEnd sha ssl reads s).2) :=
    Prod.ext h rfl
  rw [ended, handleClient, Prog.run_tryCatch, hrun]
  exact ⟨rfl, Function.update_self ..⟩

/-- **A connection served alone ends clean exactly if it is tidy**, whatever is sent on it and
whatever state the server is in. -/
theorem ends_clean_iff (sha : Text → Text) (ssl : SSL) (reads : List (Surroundings × Text))
    (s : Server coll) : EndsClean sha ssl reads s ↔ Tidy sha ssl reads s := by
  have hkept : Kept ssl s (received sha ssl reads s) (loopEnd sha ssl reads s).2 := kept_loopEnd
  unfold Tidy
  split
  · next h =>
    have hend : ended sha ssl reads s = (loopEnd sha ssl reads s).2 := ended_of_ok h
    constructor
    · intro hE
      have hforgotten := hE.forgotten
      rw [hend] at hforgotten
      have hno : ∀ k, ¬OpenedIn (received sha ssl reads s) k :=
        fun k hk => hkept.entered k hk hforgotten
      exact ⟨hno, (hkept.handle hno).symm.trans hforgotten⟩
    · rintro ⟨hno, hssl⟩
      refine ⟨fun k hk => absurd hk (hno k), ?_, fun _ _ _ => by rw [hend], ?_⟩
      · rw [hend, hkept.handle hno, hssl]
      · intro k _ hk hreq
        rw [hend, hkept.alone k hk hreq]
  · next x h =>
    obtain ⟨hsessions, hforgotten⟩ := ended_of_error h
    have hself : (ended sha ssl reads s).controller.sessions (standsFor sha ssl reads s) = none := by
      rw [hsessions, Function.update_self]
    have hne : ∀ k, k ≠ standsFor sha ssl reads s → (ended sha ssl reads s).controller.sessions k =
        (loopEnd sha ssl reads s).2.controller.sessions k := by
      intro k hk
      rw [hsessions, Function.update_of_ne hk]
    constructor
    · intro hE
      refine ⟨fun k hk => ?_, fun hopen => ?_⟩
      · by_cases hkk : k = standsFor sha ssl reads s
        · exact .inl hkk
        · exact .inr ((hne k hkk).symm.trans (hE.closed k hk))
      · by_contra hno
        have hold : s.controller.sessions (standsFor sha ssl reads s) ≠ none :=
          fun hnone => hopen (hkept.absent _ hno hnone)
        exact hopen ((hE.others _ hold hno).symm.trans hself)
    · rintro ⟨hclosed, hown⟩
      have hothers : ∀ k, ¬OpenedIn (received sha ssl reads s) k →
          (ended sha ssl reads s).controller.sessions k =
            (loopEnd sha ssl reads s).2.controller.sessions k := by
        intro k hk
        by_cases hkk : k = standsFor sha ssl reads s
        · subst hkk
          rw [hself, not_not.1 fun hopen => hk (hown hopen)]
        · exact hne k hkk
      refine ⟨fun k hk => ?_, hforgotten, fun k _ hk => hothers k hk, fun k _ hk hreq => ?_⟩
      · by_cases hkk : k = standsFor sha ssl reads s
        · rw [hkk, hself]
        · rw [hne k hkk]
          exact (hclosed k hk).resolve_left hkk
      · rw [hothers k hk, hkept.alone k hk hreq]

end Ends

/-! ### Connections that do not end clean -/

/-- User 5 logs in on connection 1, whose next read fails, and then on connection 2. -/
def loggedInAgain : Server lower :=
  (serveCall sha256 (.message (surroundings 1) 2 logsIn)
    (ended sha256 1 [(surroundings 0, logsIn)] opened)).2

/-- After the failed read the session of user 5 is still there, and so is the entry of the handle.
When the handle is used again, by a connection that sends nothing but garbage, user 5 is logged out on
connection 2. -/
theorem not_ends_clean : ¬EndsClean sha256 1 [(surroundings 0, logsIn)] opened ∧
    ¬EndsClean sha256 1 [(surroundings 2, ['x', ':'])] loggedInAgain := by
  constructor
  · intro hE
    have hentry : (ended sha256 1 [(surroundings 0, logsIn)] opened).controller.sslToUsername 1 =
        some ana := by decide +kernel
    cases hentry.symm.trans hE.forgotten
  · intro hE
    have hbefore : loggedInAgain.controller.sessions (.user, ana) =
        some (AuthenticatedMessage.generateCookie (surroundings 1),
          AuthenticatedMessage.generateNonce (surroundings 1) + 1) := by decide +kernel
    have hafter : (ended sha256 1 [(surroundings 2, ['x', ':'])] loggedInAgain).controller.sessions
        (.user, ana) = none := by decide +kernel
    have hsteps : received sha256 1 [(surroundings 2, ['x', ':'])] loggedInAgain = [] := rfl
    have hsame := hE.unchanged (.user, ana) (by simp [hbefore])
      (by rw [hsteps]; exact not_openedIn_nil _) (by simp [hsteps, RequestedIn])
    cases hafter.symm.trans (hsame.trans hbefore)

end TicketIST
