import TicketIST.Authorisation
import TicketIST.Replay

/-!
# Sessions under interleaving

The handlers of different connections interleave, and a log-out may come between the check of a
request and its reply.  The reply looks its session up with `operator[]`, which enters an empty one
where there is none: a session with the empty cookie, for an account whose credentials nobody showed
(`phantom_session`).

In the interleavings in which every reply finds a session, every entry of the session maps was opened
by the connection that had just verified the credentials of its account, carries the cookie drawn
then, and was not ended since (`session_opened`).
-/

namespace TicketIST

open TicketIST.Lib ServerOp

variable {ι : Type} {coll sha : Text → Text}

/-! ### Only verified accounts get a session -/

/-- The account that the steps of a connection verified last, if nothing came after that but saving
its name. -/
def verify : Option SessionKey → Step ServerSig → Option SessionKey
  | _, ⟨.userService _ (.signUp username _), .ok true⟩ => some (.user, username)
  | _, ⟨.userService _ (.loginUser username _), .ok true⟩ => some (.user, username)
  | _, ⟨.userService _ (.loginValidator username _), .ok true⟩ => some (.validator, username)
  | v, ⟨.saveSSL .., _⟩ => v
  | _, _ => none

def verified (steps : List (Step ServerSig)) : Option SessionKey := steps.foldl verify none

/-- A session is opened for the account just verified, with a cookie that is not empty. -/
def OpensVerified (v : Option SessionKey) (op : ServerOp) : Prop :=
  ∀ k cookie nonce, op = authenticate k cookie nonce → v = some k ∧ cookie ≠ []

section Handlers

variable {sur : Surroundings} {r : Role} {ssl : SSL} {v : Option SessionKey}

theorem heeds_welcome {u failure : Text} {ok : Bool} (h : ok = true → v = some (r, u)) :
    (welcome sur r ssl u failure ok).Heeds verify OpensVerified v := by
  cases ok with
  | false => trivial
  | true =>
    refine ⟨fun _ _ _ h => (by cases h), fun _ => ⟨?_, fun _ => ⟨fun _ _ _ h => (by cases h), ?_⟩⟩⟩
    · rintro k cookie nonce heq
      cases heq
      exact ⟨h rfl, List.cons_ne_nil _ _⟩
    · exact fun _ => trivial

/-- A handler that opens no session. -/
theorem heeds_of_answers {α : Type} {K : SessionKey → Prop} {p : ServerProg α}
    (h : p.Uses (Answers K)) (v : Option SessionKey) : p.Heeds verify OpensVerified v := by
  refine h.heeds ?_ v
  rintro op m hop k cookie nonce rfl
  exact hop.elim

theorem heeds_ofExcept {α : Type} (x : Except Exn α) (v : Option SessionKey) :
    (Prog.ofExcept x : ServerProg α).Heeds verify OpensVerified v := by
  cases x <;> trivial

/-- A sign-up or a log-in, where `c` is its credential check. -/
theorem heeds_logIn {c : UserCall} {u failure : Text} {f : c.Answer → Bool}
    (hc : ∀ a, f a = true → verify v ⟨userService sur.userFails c, .ok a⟩ = some (r, u)) :
    (callUsers sur c >>= fun a => welcome sur r ssl u failure (f a)).Heeds verify OpensVerified v := by
  refine ⟨fun _ _ _ h => (by cases h), fun a => ?_⟩
  cases a with
  | error x => trivial
  | ok a => exact heeds_welcome (hc a)

theorem heeds_doLogoutAction (m : LogOutMessage) (v : Option SessionKey) :
    (doLogoutAction m).Heeds verify OpensVerified v := by
  refine ⟨fun _ _ _ h => (by cases h), fun user => ?_⟩
  cases user with
  | true => exact ⟨fun _ _ _ h => (by cases h), fun _ => trivial⟩
  | false =>
    refine ⟨fun _ _ _ h => (by cases h), fun validator => ?_⟩
    cases validator with
    | true => exact ⟨fun _ _ _ h => (by cases h), fun _ => trivial⟩
    | false => trivial

theorem heeds_handleAction (action : ActionType) (text : Text) (v : Option SessionKey) :
    (handleAction sur action ssl text).Heeds verify OpensVerified v := by
  cases action with
  | getAvailableTickets =>
    exact (heeds_ofExcept _ v).bind fun m => heeds_of_answers
      ((answers_doGetAvailableTicketsAction m).mono fun _ => And.left)
  | checkIntegrity =>
    exact (heeds_ofExcept _ v).bind fun m => heeds_of_answers
      ((answers_doCheckIntegrityAction m).mono fun _ => And.left)
  | buyTicket => exact (heeds_ofExcept _ v).bind fun m => heeds_of_answers (answers_doBuyTicketAction m)
  | sellTicket => exact (heeds_ofExcept _ v).bind fun m => heeds_of_answers (answers_doSellTicketAction m)
  | validateTicket =>
    exact (heeds_ofExcept _ v).bind fun m => heeds_of_answers (answers_doValidateTicketAction m)
  | signUp =>
    exact (heeds_ofExcept _ v).bind fun m v => heeds_logIn fun a ha => by rw [ha]; rfl
  | logIn =>
    exact (heeds_ofExcept _ v).bind fun m v => heeds_logIn fun a ha => by rw [ha]; rfl
  | logInValidator =>
    exact (heeds_ofExcept _ v).bind fun m v => heeds_logIn fun a ha => by rw [ha]; rfl
  | logOut => exact (heeds_ofExcept _ v).bind heeds_doLogoutAction
  | accept => exact (heeds_ofExcept _ v).bind fun _ _ => trivial
  | reject => exact (heeds_ofExcept _ v).bind fun _ _ => trivial
  | ticketSell | acceptAuth | rejectAuth | unknown => trivial

theorem heeds_clientLoop (reads : List (Surroundings × Text)) (v : Option SessionKey) :
    (clientLoop ssl reads).Heeds verify OpensVerified v := by
  induction reads generalizing v with
  | nil => trivial
  | cons read reads ih =>
    unfold clientLoop
    split
    · exact ⟨fun _ _ _ h => (by cases h), fun _ => trivial⟩
    · refine Prog.Heeds.bind ?_ fun response v => ⟨fun _ _ _ h => (by cases h), fun _ => ih _⟩
      exact (heeds_ofExcept _ v).bind fun action => heeds_handleAction action read.2

/-- A connection opens sessions for the accounts that it has just verified. -/
theorem heeds_handleClient (ssl : SSL) (reads : List (Surroundings × Text))
    (v : Option SessionKey) : (handleClient ssl reads).Heeds verify OpensVerified v := by
  refine (heeds_clientLoop reads v).tryCatch fun _ v => ?_
  exact ⟨fun _ _ _ h => (by cases h), fun _ => ⟨fun _ _ _ h => (by cases h), fun _ =>
    ⟨fun _ _ _ h => (by cases h), fun _ => trivial⟩⟩⟩

end Handlers

/-! ### Where a session comes from -/

/-- The step opens a session of `k`, or ends it. -/
def Touches (k : SessionKey) (op : ServerOp) : Prop :=
  op = logout k ∨ ∃ cookie nonce, op = authenticate k cookie nonce

/-- A session after a step was opened by it, or was there before with the same cookie, or is the empty
one that a reply enters. -/
theorem session_of_exec {s : Server coll} {op : ServerOp} {k : SessionKey} {cookie : Text} {n : ℤ}
    (hk : (exec sha op s).2.controller.sessions k = some (cookie, n)) :
    (∃ nonce, op = authenticate k cookie nonce) ∨
      (∃ m, s.controller.sessions k = some (cookie, m)) ∧ ¬Touches k op ∨
      op = advance k ∧ s.controller.sessions k = none ∧ cookie = [] := by
  have hold : s.controller.sessions k = some (cookie, n) → ¬Touches k op →
      (∃ nonce, op = authenticate k cookie nonce) ∨
        (∃ m, s.controller.sessions k = some (cookie, m)) ∧ ¬Touches k op ∨
        op = advance k ∧ s.controller.sessions k = none ∧ cookie = [] :=
    fun hs ht => .inr (.inl ⟨⟨n, hs⟩, ht⟩)
  cases op with
  | authenticate k' cookie' nonce =>
    rcases Controller.sessions_set_cases hk with ⟨rfl, hv⟩ | ⟨hne, hk⟩
    · cases hv
      exact .inl ⟨n, rfl⟩
    · refine hold hk ?_
      rintro (h | ⟨_, _, h⟩)
      · cases h
      · cases h
        exact hne rfl
  | logout k' =>
    rcases Controller.sessions_set_cases hk with ⟨-, hv⟩ | ⟨hne, hk⟩
    · cases hv
    · refine hold hk ?_
      rintro (h | ⟨_, _, h⟩)
      · cases h
        exact hne rfl
      · cases h
  | advance k' =>
    have huntouched : ¬Touches k (advance k') := by
      rintro (h | ⟨_, _, h⟩) <;> cases h
    rcases Controller.sessions_set_cases hk with ⟨rfl, hv⟩ | ⟨-, hk⟩
    · cases hs : s.controller.sessions k with
      | none =>
        rw [hs] at hv
        cases hv
        exact .inr (.inr ⟨rfl, rfl, rfl⟩)
      | some w =>
        rw [hs] at hv
        cases hv
        exact .inr (.inl ⟨⟨w.2, rfl⟩, huntouched⟩)
    · exact hold hk huntouched
  | _ =>
    refine hold hk ?_
    rintro (h | ⟨_, _, h⟩) <;> cases h

/-! ### Every run -/

section Run

variable [DecidableEq ι] {ssl : ι → SSL} {reads : ι → List (Surroundings × Text)}
  {tickets : TicketDB} {users : UserDB coll} {events : EventDB coll}
  {tr : List (Firing ι ServerSig)} {c : Config ι ServerSig Exn Unit (Server coll)}
  {k : SessionKey} {cookie : Text}

/-- Some connection verified the credentials of `k` and opened the session with `cookie`, and since
then no step opened another session of `k` or ended it. -/
def Opened (tr : List (Firing ι ServerSig)) (k : SessionKey) (cookie : Text) : Prop :=
  ∃ tr₁ i nonce tr₂, tr = tr₁ ++ ⟨i, authenticate k cookie nonce, ()⟩ :: tr₂ ∧
    verified (eventsOf tr₁ i) = some k ∧ cookie ≠ [] ∧ ∀ e ∈ tr₂, ¬Touches k e.op

theorem Opened.snoc (h : Opened tr k cookie) {e : Firing ι ServerSig} (he : ¬Touches k e.op) :
    Opened (tr ++ [e]) k cookie := by
  obtain ⟨tr₁, i, nonce, tr₂, rfl, hv, hc, hrest⟩ := h
  refine ⟨tr₁, i, nonce, tr₂ ++ [e], by simp, hv, hc, ?_⟩
  intro e' he'
  rcases List.mem_append.1 he' with he' | he'
  · exact hrest e' he'
  · rwa [List.mem_singleton.1 he']

/-- A reply finds the session it is to advance. -/
def FindsSession (_ : List (Firing ι ServerSig)) (c : Config ι ServerSig Exn Unit (Server coll))
    (i : ι) : Prop :=
  match (c.pool i).next with
  | some (.advance k) => (c.st.controller.sessions k).isSome = true
  | _ => True

instance (tr : List (Firing ι ServerSig)) (c : Config ι ServerSig Exn Unit (Server coll)) (i : ι) :
    Decidable (FindsSession tr c i) :=
  decidable_of_iff ((match (c.pool i).next with
    | some (.advance k) => (c.st.controller.sessions k).isSome
    | _ => true) = true) <| by
  unfold FindsSession
  split <;> simp

/-- **No phantom sessions**, where every reply finds one: every entry of the session maps was opened
by a connection that had just verified its account, and was not ended since. -/
theorem session_opened (run : Runs (exec sha) FindsSession
    (serving ssl reads (.start tickets users events)) tr c) {n : ℤ}
    (hk : c.st.controller.sessions k = some (cookie, n)) : Opened tr k cookie := by
  induction run generalizing k cookie n with
  | nil => cases hk
  | @snoc tr c i op k' run hp ha ih =>
    have hnext : (c.pool i).next = some op := by rw [hp, Prog.next_call]
    rcases session_of_exec hk with ⟨nonce, rfl⟩ | ⟨⟨m, hs⟩, ht⟩ | ⟨rfl, hnone, -⟩
    · -- the steps of the connection are a path to the opening, so it has verified `k`
      have hpath := run.path i
      rw [hp] at hpath
      obtain ⟨hv, hc⟩ := hpath.heeds (heeds_handleClient (ssl i) (reads i) none) k cookie nonce rfl
      exact ⟨tr, i, nonce, [], rfl, hv, hc, fun _ h => absurd h List.not_mem_nil⟩
    · exact (ih hs).snoc ht
    · unfold FindsSession at ha
      rw [hnext] at ha
      dsimp only at ha
      rw [hnone] at ha
      cases ha

/-- The condition is exact: a reply that finds no session enters one with the empty cookie. -/
theorem phantom_of_advance {s : Server coll} (h : s.controller.sessions k = none) :
    (exec sha (advance k) s).2.controller.sessions k = some ([], 1) := by
  simp [exec, Controller.advance, h]

end Run

/-! ### A log-out between check and reply -/

/-- User 5 logs in and buys on one connection; another one sends a log-out of her session. -/
def loggedOut : Config Bool ServerSig Exn Unit (Server lower) :=
  serving (fun b => if b then 2 else 1)
    (fun b => if b then
        [(surroundings 1, LogOutMessage.serialize
          { username := ana
            sessionCookies := AuthenticatedMessage.generateCookie (surroundings 0)
            nonce := AuthenticatedMessage.generateNonce (surroundings 0) + 2 })]
      else [(surroundings 0, logsIn), (surroundings 0, buys 7)])
    opened

/-- With the log-out after the reply nothing goes wrong until then. -/
theorem session_opened_ana : ∃ tr c, Runs (exec sha256) FindsSession loggedOut tr c ∧
    ∃ n, c.st.controller.sessions (.user, ana) =
        some (AuthenticatedMessage.generateCookie (surroundings 0), n) ∧
      Opened tr (.user, ana) (AuthenticatedMessage.generateCookie (surroundings 0)) := by
  have run := Runs.nil.replay (by decide +kernel : Admits (exec sha256) FindsSession
    [false, false, false, false, false, false, false, false, false, false, false, true] [] loggedOut)
  have hk : (replay (exec sha256)
      [false, false, false, false, false, false, false, false, false, false, false, true] []
      loggedOut).2.st.controller.sessions (.user, ana) =
        some (AuthenticatedMessage.generateCookie (surroundings 0),
          AuthenticatedMessage.generateNonce (surroundings 0) + 2) := by decide +kernel
  exact ⟨_, _, run, _, hk, session_opened run hk⟩

/-- The log-out, all of it, comes between the check of the purchase and its reply: then there is a
session of user 5 that no one opened, and a request with an empty cookie passes as hers. -/
theorem phantom_session : ∃ tr c, Runs (exec sha256) Anyhow loggedOut tr c ∧
    c.st.controller.sessions (.user, ana) = some ([], 1) ∧
    c.st.controller.isAuthenticationCorrect (.user, ana) [] 2 = true ∧
    ¬Opened tr (.user, ana) [] := by
  refine ⟨_, _, Runs.nil.replay (admits_anyhow _
    [false, false, false, false, false, false, true, true, false, false, false, false] [] loggedOut),
    by decide +kernel, by decide +kernel, ?_⟩
  rintro ⟨tr₁, i, nonce, tr₂, -, -, hc, -⟩
  exact hc rfl

end TicketIST
