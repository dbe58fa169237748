import TicketIST.Browsing

/-!
# One session per account

The session maps are keyed by the name as it was sent, the table of users compares names by their
collation.  Who logs in under the name of an open session takes it over, but who logs in under another
spelling of the name gets a session beside it (`two_sessions`): the account has two.

As long as every log-in that shows the right password for an account with a session spells the name as
that session does, an account has one session at most, and a new one ends the one before
(`one_session`).  Sign-ups need no condition: behind every session there is an account, and a name that
has an account is not signed up again.
-/

namespace TicketIST

open TicketIST.Lib ServerOp

variable {coll sha : Text → Text} {s : Server coll}

/-! ### Accounts by id -/

/-- The primary key of `users`, and its `AUTO_INCREMENT` counter. -/
structure IdsUnique (db : UserDB coll) : Prop where
  inj : ∀ r ∈ db.users, ∀ r' ∈ db.users, r.id = r'.id → r = r'
  below : ∀ r ∈ db.users, r.id < db.nextId

theorem IdsUnique.exec {db : UserDB coll} (h : IdsUnique db) (op : UserOp) :
    IdsUnique (op.exec db).2 := by
  cases op with
  | createUser u p =>
    show IdsUnique (UserRepository.createUser u p db).2
    rcases createUser_cases u p db with ⟨-, hi, hn⟩ | ⟨-, hsame, hn⟩
    · constructor
      · intro r hr r' hr' hid
        rcases (Table.mem_insert hi).1 hr with hr | rfl
        · rcases (Table.mem_insert hi).1 hr' with hr' | rfl
          · exact h.inj r hr r' hr' hid
          · exact absurd hid (h.below r hr).ne
        · rcases (Table.mem_insert hi).1 hr' with hr' | rfl
          · exact absurd hid.symm (h.below r' hr').ne
          · rfl
      · intro r hr
        rw [hn]
        rcases (Table.mem_insert hi).1 hr with hr | rfl
        · exact (h.below r hr).trans (lt_add_one _)
        · exact lt_add_one _
    · constructor
      · rw [hsame]
        exact h.inj
      · intro r hr
        exact (h.below r (hsame ▸ hr)).trans_le hn
  | _ => exact h

theorem getUserId_of_row {db : UserDB coll} {r : UserRow} {u : Text} (hr : r ∈ db.users)
    (hu : coll r.username = coll u) : UserRepository.getUserId u db = r.id := by
  rw [UserRepository.getUserId, Table.find?_eq_some.2 ⟨hr, hu⟩]

/-- Two names with accounts of one id are spellings of one name. -/
theorem coll_eq_of_getUserId {db : UserDB coll} (hids : IdsUnique db) {u u' : Text}
    (hu : HasAccount u db) (hu' : HasAccount u' db)
    (hid : UserRepository.getUserId u db = UserRepository.getUserId u' db) : coll u = coll u' := by
  obtain ⟨r, hr, hru⟩ := hu
  obtain ⟨r', hr', hru'⟩ := hu'
  rw [getUserId_of_row hr hru, getUserId_of_row hr' hru'] at hid
  obtain rfl := hids.inj r hr r' hr' hid
  exact hru.symm.trans hru'

/-- Every id of the table has at most one entry in the session map. -/
def OneSession (s : Server coll) : Prop :=
  ∀ r ∈ s.users.users, ∀ u u' v v', s.controller.sessions (.user, u) = some v →
    s.controller.sessions (.user, u') = some v' → UserRepository.getUserId u s.users = r.id →
    UserRepository.getUserId u' s.users = r.id → u = u'

/-- A log-in that shows the right password for an account with a session spells the name as that
session does. -/
def SameSpelling (sha : Text → Text) (s : Server coll) : ServerCall → Prop
  | .message sur _ text => ∀ m, getActionType text = .ok .logIn →
      LogInMessage.deserialize text = .ok m →
      sur.userFails (.checkPassword m.username (sha m.password)) = false →
      UserPassword sha m.username m.password s.users →
      ∀ u v, s.controller.sessions (.user, u) = some v → coll u = coll m.username → u = m.username
  | .cleanup _ => True

/-! ### Who opens a session -/

/-- The step is not a call of the user service. -/
def NoCredentials : ServerOp → Prop
  | userService .. => False
  | _ => True

theorem noCredentials_welcome (sur : Surroundings) (r : Role) (ssl : SSL) (u failure : Text)
    (ok : Bool) : (welcome sur r ssl u failure ok).Uses NoCredentials := by
  cases ok with
  | false => trivial
  | true => exact ⟨trivial, fun _ => ⟨trivial, fun _ => ⟨trivial, fun _ => trivial⟩⟩⟩

/-- The credential check of a sign-up or a log-in is its first step, and the only one of its kind. -/
theorem eq_of_mem_trace {sur : Surroundings} {c c' : UserCall} {fails : UserOp → Bool}
    {a : Except Exn c'.Answer} {f : c.Answer → ServerProg Text} (hf : ∀ a, (f a).Uses NoCredentials)
    (h : ⟨userService fails c', a⟩ ∈ (callUsers sur c >>= f).trace (exec sha) s) :
    (⟨userService fails c', a⟩ : Step ServerSig) =
      ⟨userService sur.userFails c, (c.serve sha sur.userFails s.users).1⟩ := by
  rcases List.mem_cons.1 h with h | h
  · exact h
  · refine absurd (Prog.Uses.trace (φ := NoCredentials) ?_ h) id
    refine Prog.Uses.bind ?_ hf
    cases (exec sha (userService sur.userFails c) s).1 <;> trivial

/-- What is known of a call that opens a session for a user: it is a sign-up under a free name, or a
log-in with the password of the account. -/
theorem credentials_of_issues {c : ServerCall} {u cookie : Text}
    (hi : Issues (.user, u) cookie (c, (serveCall sha c s).1)) : ∃ sur ssl text,
      c = .message sur ssl text ∧ (¬HasAccount u s.users ∨ ∃ m, m.username = u ∧
        getActionType text = .ok .logIn ∧ LogInMessage.deserialize text = .ok m ∧
        sur.userFails (.checkPassword m.username (sha m.password)) = false ∧
        UserPassword sha m.username m.password s.users) := by
  obtain ⟨sur, ssl, text, m, nonce, rfl : c = _, hl, rfl, -⟩ := hi
  refine ⟨sur, ssl, text, rfl, ?_⟩
  cases hl with
  | @signUp _ fails ha hm hst =>
    left
    simp only [serveCall, ServerCall.prog, messageHandler, ha, handleAction, hm, Prog.ofExcept_ok,
      Prog.ret_bind, doSignUpAction] at hst
    have heq := eq_of_mem_trace (fun ok => noCredentials_welcome ..) hst
    have hok : (UserCall.serve sha sur.userFails (.signUp m.username m.password) s.users).1 =
        .ok true := by
      obtain ⟨hop, hanswer⟩ := Sigma.mk.inj heq
      cases hop
      exact (eq_of_heq hanswer).symm
    rintro ⟨r, hr, hru⟩
    exact (signUp_true hok).1 r hr hru
  | @logIn _ fails ha hm hst =>
    right
    simp only [serveCall, ServerCall.prog, messageHandler, ha, handleAction, hm, Prog.ofExcept_ok,
      Prog.ret_bind, doLogInAction] at hst
    have heq := eq_of_mem_trace (fun ok => noCredentials_welcome ..) hst
    have hok : (UserCall.serve sha sur.userFails (.loginUser m.username m.password) s.users).1 =
        .ok true := by
      obtain ⟨hop, hanswer⟩ := Sigma.mk.inj heq
      cases hop
      exact (eq_of_heq hanswer).symm
    obtain ⟨hf, hp⟩ := loginUser_iff.1 hok
    exact ⟨m, rfl, ha, hm, hf, hp⟩

/-- A call that opens a session opens that one only. -/
theorem Issues.opened {k : SessionKey} {cookie : Text} {c : ServerCall}
    (h : Issues k cookie (c, (serveCall sha c s).1)) :
    (∀ st ∈ (serveCall sha c s).1.steps,
      Quiet (fun _ => True) st.1 ∨ ∃ n, st.1 = authenticate k cookie n) ∧
    ∃ nonce, (serveCall sha c s).2.controller.sessions =
      Function.update s.controller.sessions k (some (cookie, nonce)) := by
  obtain ⟨n, hst⟩ := h.step
  have hquiet : ¬Quiet (fun _ => True) (authenticate k cookie n) := id
  cases Effect.of_call sha c s with
  | opened _ steps sessions _ =>
    obtain ⟨_, heq⟩ := (steps _ hst).resolve_left hquiet
    cases heq
    exact ⟨steps, _, sessions⟩
  | closed steps _ _ => exact absurd ((steps _ hst).resolve_left hquiet) nofun
  | kept steps _ _ => exact absurd (steps _ hst) hquiet

theorem Issues.unique {k k' : SessionKey} {cookie cookie' : Text} {c : ServerCall}
    (h : Issues k cookie (c, (serveCall sha c s).1))
    (h' : Issues k' cookie' (c, (serveCall sha c s).1)) : k = k' := by
  obtain ⟨n, hst⟩ := h'.step
  obtain ⟨_, heq⟩ := (h.opened.1 _ hst).resolve_left id
  cases heq
  rfl

/-! ### Every run -/

section Run

variable {tickets : TicketDB} {users : UserDB coll} {events : EventDB coll} {h : ServerHistory}

/-- No two sessions of users are under spellings of one name. -/
def OneSpelling (s : Server coll) : Prop :=
  ∀ u u' v v', s.controller.sessions (.user, u) = some v →
    s.controller.sessions (.user, u') = some v' → coll u = coll u' → u = u'

/-- A session that is opened, and one that was there before. -/
theorem eq_of_issues (run : ServerRun sha (Server.start tickets users events) h s) {c : ServerCall}
    (hc : SameSpelling sha s c) {u u' cookie : Text}
    (hi : Issues (.user, u) cookie (c, (serveCall sha c s).1)) {v : Text × ℤ}
    (hu' : s.controller.sessions (.user, u') = some v) (hcoll : coll u' = coll u) : u' = u := by
  obtain ⟨sur, ssl, text, rfl, hfree | ⟨m, rfl, ha, hm, hf, hp⟩⟩ := credentials_of_issues hi
  · -- a sign-up, but the session has an account
    obtain ⟨r, hr, hru⟩ := hasAccount_of_session run hu'
    exact absurd ⟨r, hr, hru.trans hcoll⟩ hfree
  · exact hc m ha hm hf hp u' v hu' hcoll

theorem OneSpelling.step (run : ServerRun sha (Server.start tickets users events) h s)
    (hs : OneSpelling s) {c : ServerCall} (hc : SameSpelling sha s c) :
    OneSpelling (serveCall sha c s).2 := by
  rintro u u' ⟨cookie, n⟩ ⟨cookie', n'⟩ hu hu' hcoll
  rcases (Effect.of_call sha c s).session hu with hi | ⟨⟨n₀, hold⟩, -, -⟩
  · rcases (Effect.of_call sha c s).session hu' with hi' | ⟨⟨n₀', hold'⟩, -, -⟩
    · exact congrArg Prod.snd (hi.unique hi')
    · exact (eq_of_issues run hc hi hold' hcoll.symm).symm
  · rcases (Effect.of_call sha c s).session hu' with hi' | ⟨⟨n₀', hold'⟩, -, -⟩
    · exact eq_of_issues run hc hi' hold hcoll
    · exact hs u u' _ _ hold hold' hcoll

theorem idsUnique_of_run (hids : IdsUnique users)
    (run : ServerRun sha (Server.start tickets users events) h s) : IdsUnique s.users := by
  refine run.inv (I := fun _ s => IdsUnique s.users) hids ?_
  intro h s c hs _
  exact users_run (fun op _ hdb => hdb.exec op) c.prog hs

/-- The runs whose log-ins spell names as the open sessions do. -/
abbrev SpelledRun (sha : Text → Text) (s₀ : Server coll) : ServerHistory → Server coll → Prop :=
  Serial (serveCall sha) (fun _ s c => SameSpelling sha s c) s₀

theorem oneSpelling_of_run (run : SpelledRun sha (Server.start tickets users events) h s) :
    OneSpelling s := by
  have hinv : ServerRun sha (Server.start tickets users events) h s ∧ OneSpelling s := by
    refine run.inv (I := fun h s => ServerRun sha (Server.start tickets users events) h s ∧
      OneSpelling s) ⟨.nil, fun _ _ _ _ h => nomatch h⟩ ?_
    rintro h s c ⟨run, hs⟩ hc
    exact ⟨run.snoc c trivial, hs.step run hc⟩
  exact hinv.2

/-- Two sessions of one id are one session. -/
theorem OneSpelling.eq_of_id (hs : OneSpelling s) (hids : IdsUnique s.users)
    (run : ServerRun sha (Server.start tickets users events) h s) {u u' : Text} {v v' : Text × ℤ}
    (hu : s.controller.sessions (.user, u) = some v)
    (hu' : s.controller.sessions (.user, u') = some v')
    (hid : UserRepository.getUserId u s.users = UserRepository.getUserId u' s.users) : u = u' :=
  hs u u' v v' hu hu' (coll_eq_of_getUserId hids (hasAccount_of_session run hu)
    (hasAccount_of_session run hu') hid)

/-- **One session per account**, where log-ins spell names as the open sessions do: an id has one
session at most, and when a session is opened, the account is left with that one. -/
theorem one_session (hids : IdsUnique users)
    (run : SpelledRun sha (Server.start tickets users events) h s) : OneSession s ∧
      ∀ c u cookie, SameSpelling sha s c → Issues (.user, u) cookie (c, (serveCall sha c s).1) →
        ∀ u' v, (serveCall sha c s).2.controller.sessions (.user, u') = some v →
          UserRepository.getUserId u' (serveCall sha c s).2.users =
            UserRepository.getUserId u (serveCall sha c s).2.users → u' = u ∧ v.1 = cookie := by
  have srun : ServerRun sha (Server.start tickets users events) h s := run.mono fun _ _ _ _ => trivial
  constructor
  · intro r _ u u' v v' hu hu' hid hid'
    exact (oneSpelling_of_run run).eq_of_id (idsUnique_of_run hids srun) srun hu hu'
      (hid.trans hid'.symm)
  · rintro c u cookie hc hi u' ⟨cookie', n'⟩ hu' hid
    have srun' := srun.snoc c trivial
    have hids' := idsUnique_of_run hids srun'
    obtain ⟨-, n, hsessions⟩ := hi.opened
    have hu : (serveCall sha c s).2.controller.sessions (.user, u) = some (cookie, n) := by
      rw [hsessions, Function.update_self]
    have hname := (oneSpelling_of_run (run.snoc c hc)).eq_of_id hids' srun' hu' hu hid
    subst hname
    rw [hu] at hu'
    cases hu'
    exact ⟨rfl, rfl⟩

/-- A log-in that shows the password of its account opens a session, and touches no account. -/
theorem logIn_opens (sur : Surroundings) (ssl : SSL) {text : Text} {m : Credentials}
    (ha : getActionType text = .ok .logIn) (hm : LogInMessage.deserialize text = .ok m)
    (hf : sur.userFails (.checkPassword m.username (sha m.password)) = false)
    (hp : UserPassword sha m.username m.password s.users) :
    (∃ v, (serveCall sha (.message sur ssl text) s).2.controller.sessions =
      Function.update s.controller.sessions (.user, m.username) (some v)) ∧
    (serveCall sha (.message sur ssl text) s).2.users = s.users := by
  have hok : exec sha (userService sur.userFails (.loginUser m.username m.password)) s =
      (.ok true, s) := by
    have hserve : UserCall.serve sha sur.userFails (.loginUser m.username m.password) s.users =
        (.ok true, s.users) := Prod.ext (loginUser_iff.2 ⟨hf, hp⟩) (by rw [loginUser_run])
    simp only [exec, hserve]
  have hrun : (serveCall sha (.message sur ssl text) s).2 =
      ((welcome sur .user ssl m.username "Log-in failed. Please try again.\n".toList true).run
        (exec sha) s).2 := by
    simp only [serveCall, ServerCall.prog, messageHandler, ha, handleAction, hm, Prog.ofExcept_ok,
      Prog.ret_bind, doLogInAction, callUsers, Prog.call_bind, Prog.run_call, hok]
  rw [hrun]
  refine ⟨?_, rfl⟩
  obtain ⟨cookie, nonce, s', hs', -, hctl, -⟩ := welcome_run sha sur .user ssl m.username
    "Log-in failed. Please try again.\n".toList s
  rw [hs', hctl]
  exact ⟨_, rfl⟩

/-- The condition is exact: a log-in in another spelling leaves the account with two sessions. -/
theorem not_oneSession_of_spelling {c : ServerCall} (hc : ¬SameSpelling sha s c) :
    ¬OneSession (serveCall sha c s).2 := by
  cases c with
  | cleanup ssl => exact absurd trivial hc
  | message sur ssl text =>
    simp only [SameSpelling, not_forall] at hc
    obtain ⟨m, ha, hm, hf, hp, u, v, hu, hcoll, hne⟩ := hc
    obtain ⟨⟨v', hsessions⟩, husers⟩ := logIn_opens sur ssl ha hm hf hp
    obtain ⟨r, hr, hru, -⟩ := hp
    intro hone
    refine hne (hone r (husers ▸ hr) u m.username v v' ?_ ?_ ?_ ?_)
    · rw [hsessions, Function.update_of_ne fun heq => hne (congrArg Prod.snd heq)]
      exact hu
    · rw [hsessions, Function.update_self]
    · rw [husers]
      exact getUserId_of_row hr (hru.trans hcoll.symm)
    · rw [husers]
      exact getUserId_of_row hr hru

end Run

/-- User 5 logs in and logs in again. -/
theorem one_session_ana : ∃ h s, SpelledRun sha256 opened h s ∧
    (s.controller.sessions (.user, ana)).isSome = true ∧ OneSession s := by
  have hids : IdsUnique opened.users := ⟨by decide, by decide⟩
  have hread : LogInMessage.deserialize logsIn = .ok { username := ana, password := secret } := by
    decide +kernel
  have hpassword : UserPassword sha256 ana secret opened.users := by
    refine ⟨⟨5, ana, false, sha256 secret⟩, Table.mem_def.2 (by decide +kernel), rfl, ?_⟩
    dsimp only
  have run : SpelledRun sha256 opened loggedIn.1 loggedIn.2 := by
    refine Serial.nil.snoc _ ?_
    intro m _ _ _ _ u v hu
    cases hu
  have hagain : SameSpelling sha256 loggedIn.2 (.message (surroundings 1) 2 logsIn) := by
    intro m _ hm _ _ u v hu _
    cases hread.symm.trans hm
    obtain ⟨v', hsessions⟩ : ∃ v', loggedIn.2.controller.sessions =
        Function.update opened.controller.sessions (.user, ana) (some v') :=
      (logIn_opens (surroundings 0) 1 (by decide +kernel) hread rfl hpassword).1
    by_contra hne
    rw [hsessions, Function.update_of_ne fun heq => hne (congrArg Prod.snd heq)] at hu
    cases hu
  have run' := run.snoc _ hagain
  exact ⟨_, _, run', by decide +kernel, (one_session hids run').1⟩

/-- The log-in of user 5 with the name in capitals. -/
def logsInLoudly : Text := LogInMessage.serialize { username := ana.map Char.toUpper, password := secret }

/-- The same account, logged in under two spellings of its name. -/
def loggedInTwice : ServerHistory × Server lower :=
  serveAll (serveCall sha256)
    [.message (surroundings 0) 1 logsIn, .message (surroundings 1) 2 logsInLoudly] [] opened

/-- Both sessions are open, under one id. -/
theorem two_sessions :
    ServerRun sha256 opened loggedInTwice.1 loggedInTwice.2 ∧
      (loggedInTwice.2.controller.sessions (.user, ana)).isSome = true ∧
      (loggedInTwice.2.controller.sessions (.user, ana.map Char.toUpper)).isSome = true ∧
      UserRepository.getUserId ana loggedInTwice.2.users = 5 ∧
      UserRepository.getUserId (ana.map Char.toUpper) loggedInTwice.2.users = 5 ∧
      ¬OneSession loggedInTwice.2 := by
  have hana : (loggedInTwice.2.controller.sessions (.user, ana)).isSome = true := by decide +kernel
  have hloud : (loggedInTwice.2.controller.sessions (.user, ana.map Char.toUpper)).isSome = true := by
    decide +kernel
  have hid : UserRepository.getUserId ana loggedInTwice.2.users = 5 := by decide +kernel
  have hid' : UserRepository.getUserId (ana.map Char.toUpper) loggedInTwice.2.users = 5 := by
    decide +kernel
  refine ⟨(Serial.nil.snoc _ trivial).snoc _ trivial, hana, hloud, hid, hid', fun hone => ?_⟩
  obtain ⟨v, hv⟩ := Option.isSome_iff_exists.1 hana
  obtain ⟨v', hv'⟩ := Option.isSome_iff_exists.1 hloud
  have hrow : (⟨5, ana, false, sha256 secret⟩ : UserRow) ∈ loggedInTwice.2.users.users :=
    Table.mem_def.2 (by decide +kernel)
  exact absurd (hone _ hrow ana _ v v' hv hv' hid hid') (by decide)

end TicketIST
