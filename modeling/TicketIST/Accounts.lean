import TicketIST.Browsing
import TicketIST.Lib.Threads
import TicketIST.Replay
import TicketIST.SignUps
import TicketIST.Spellings

/-!
# The accounts as a ledger

Nothing ever changes or removes an account: the table of users is a ledger of the sign-ups that
succeeded.  So what the user service answers can be read off the history of its calls, down to the
statements that fail, whatever the connections send and however their handlers interleave
(`answered_by_ledger`), and an id stands for one account, whenever it is looked up (`ids_stable`).

A sign-up whose lookup of the name fails goes on to the `INSERT`; the key of the table turns it down
there, with the answer that it would have had.
-/

namespace TicketIST

open TicketIST.Lib ServerOp

variable {ι : Type} {coll sha : Text → Text}

/-! ### One call -/

section Calls

variable {fails : UserOp → Bool} {u p : Text} {db : UserDB coll}

theorem UserOp.validators_exec (op : UserOp) (db : UserDB coll) :
    (op.exec db).2.validators = db.validators := by
  cases op with
  | createUser u p => simp only [exec, UserRepository.createUser]; split <;> [rfl; split <;> rfl]
  | _ => rfl

theorem UserCall.validators_serve (c : UserCall) (fails : UserOp → Bool) (db : UserDB coll) :
    (c.serve sha fails db).2.validators = db.validators :=
  c.serve_inv (P := fun db' => db'.validators = db.validators)
    (fun op db' h => (op.validators_exec db').trans h) fails rfl

/-- A row goes in exactly if the name has at most 45 characters and is free. -/
theorem createUser_eq_true {pw : Text} : (UserRepository.createUser u pw db).1 = true ↔
    u.length ≤ 45 ∧ ¬HasAccount u db := by
  unfold UserRepository.createUser
  split
  · next hlong => exact iff_of_false Bool.false_ne_true fun h => absurd h.1 (not_le.2 hlong)
  · next hfits =>
    split
    · next t hi =>
      refine iff_of_true rfl ⟨not_lt.1 hfits, ?_⟩
      rintro ⟨r, hr, hname⟩
      exact Table.insert_fresh hi r hr hname
    · next hi => exact iff_of_false Bool.false_ne_true fun h => h.2 (Table.insert_eq_none.1 hi)

/-- What a sign-up answers, and the rows that it leaves. -/
theorem signUp_serve (sha : Text → Text) (fails : UserOp → Bool) (u p : Text) (db : UserDB coll) :
    ((UserCall.signUp u p).serve sha fails db).1 = .ok true ∧
        (fails (.createUser u (sha p)) = false ∧ u.length ≤ 45 ∧ ¬HasAccount u db) ∧
        db.users.insert ⟨db.nextId, u, false, sha p⟩ =
          some ((UserCall.signUp u p).serve sha fails db).2.users ∨
      ((UserCall.signUp u p).serve sha fails db).1 = .ok false ∧
        ¬(fails (.createUser u (sha p)) = false ∧ u.length ≤ 45 ∧ ¬HasAccount u db) ∧
        ((UserCall.signUp u p).serve sha fails db).2.users = db.users := by
  have hfind : (UserOp.faulty fails (.findUserByUsername u) db).2 = db := by
    rw [UserOp.faulty_snd]; split <;> rfl
  simp only [UserCall.serve, UserCall.service, UserService.signUp, Prog.call_bind, Prog.run_call,
    Prog.ret_bind, hfind]
  split
  · next hsome =>
    refine .inr ⟨rfl, fun h => h.2.2 ?_, rfl⟩
    cases hf : fails (.findUserByUsername u) with
    | true =>
      rw [UserOp.faulty, Machine.failing_of_true _ _ hf] at hsome
      cases hsome
    | false =>
      rw [UserOp.faulty, Machine.failing_of_false _ _ hf] at hsome
      exact findUserByUsername_isSome.1 hsome
  · simp only [Prog.run_call, Prog.run_ret]
    cases hf : fails (.createUser u (sha p)) with
    | true =>
      have hrun : UserOp.faulty fails (.createUser u (sha p)) db = (false, db) :=
        Machine.failing_of_true _ _ hf db
      rw [hrun]
      exact .inr ⟨rfl, fun h => (by cases h.1), rfl⟩
    | false =>
      have hrun : UserOp.faulty fails (.createUser u (sha p)) db =
          UserRepository.createUser u (sha p) db := Machine.failing_of_false _ _ hf db
      rw [hrun]
      rcases createUser_cases u (sha p) db with ⟨hok, hi, -⟩ | ⟨hok, hsame, -⟩
      · exact .inl ⟨congrArg _ hok, ⟨rfl, createUser_eq_true.1 hok⟩, hi⟩
      · refine .inr ⟨congrArg _ hok, fun h => ?_, hsame⟩
        rw [createUser_eq_true.2 h.2] at hok
        cases hok

end Calls

/-! ### The ledger -/

/-- A username and the hash of its password. -/
abbrev LedgerEntry := Text × Text

def UserRow.entry (r : UserRow) : LedgerEntry := (r.username, r.password)

/-- The entry of a sign-up that succeeds. -/
def signedUp? (sha : Text → Text) : Firing ι ServerSig → Option LedgerEntry
  | ⟨_, .userService _ (.signUp username password), .ok true⟩ => some (username, sha password)
  | _ => none

/-- The accounts from before, and the sign-ups that succeeded, in their order. -/
def accountLedger (sha : Text → Text) (users : UserDB coll) (tr : List (Firing ι ServerSig)) :
    List LedgerEntry :=
  users.users.rows.map UserRow.entry ++ tr.filterMap (signedUp? sha)

/-- The ledger has an account of the name `u`. -/
def Enters (coll : Text → Text) (l : List LedgerEntry) (u : Text) : Prop := ∃ a ∈ l, coll a.1 = coll u

/-- What the user service answers, by the ledger `l`. -/
def ByLedger (sha : Text → Text) (users : UserDB coll) (l : List LedgerEntry) (fails : UserOp → Bool) :
    (c : UserCall) → Except Exn c.Answer → Prop
  | .signUp u p, a => ∃ ok, a = .ok ok ∧
      (ok = true ↔ fails (.createUser u (sha p)) = false ∧ u.length ≤ 45 ∧ ¬Enters coll l u)
  | .loginUser u p, a => ∃ ok, a = .ok ok ∧
      (ok = true ↔ fails (.checkPassword u (sha p)) = false ∧
        ∃ x ∈ l, coll x.1 = coll u ∧ x.2 = sha p)
  | .loginValidator u p, a => ∃ ok, a = .ok ok ∧
      (ok = true ↔ fails (.checkValidatorPassword u (sha p)) = false ∧ ValidatorPassword sha u p users)
  | .getUserId u, a => (∃ id, a = .ok id) ∧ fails (.getUserId u) = false ∧ Enters coll l u ∨
      a = .error (.invalidArgument "User not found") ∧
        ¬(fails (.getUserId u) = false ∧ Enters coll l u)

section Ledger

variable {users db : UserDB coll} {l : List LedgerEntry} {fails : UserOp → Bool} {u p : Text}

theorem enters_iff (hl : db.users.rows.map UserRow.entry = l) : Enters coll l u ↔ HasAccount u db := by
  subst hl
  constructor
  · rintro ⟨a, ha, hname⟩
    obtain ⟨r, hr, rfl⟩ := List.mem_map.1 ha
    exact ⟨r, hr, hname⟩
  · rintro ⟨r, hr, hname⟩
    exact ⟨r.entry, List.mem_map_of_mem hr, hname⟩

theorem userPassword_iff (hl : db.users.rows.map UserRow.entry = l) :
    UserPassword sha u p db ↔ ∃ x ∈ l, coll x.1 = coll u ∧ x.2 = sha p := by
  subst hl
  constructor
  · rintro ⟨r, hr, hname, hpw⟩
    exact ⟨r.entry, List.mem_map_of_mem hr, hname, hpw⟩
  · rintro ⟨a, ha, hname, hpw⟩
    obtain ⟨r, hr, rfl⟩ := List.mem_map.1 ha
    exact ⟨r, hr, hname, hpw⟩

/-- The id of a name is found if the name has an account and the statement does not fail. -/
theorem getUserId_serve (hids : IdsIssued db) :
    (∃ id, ((UserCall.getUserId u).serve sha fails db).1 = .ok id) ∧
        fails (.getUserId u) = false ∧ HasAccount u db ∨
      ((UserCall.getUserId u).serve sha fails db).1 = .error (.invalidArgument "User not found") ∧
        ¬(fails (.getUserId u) = false ∧ HasAccount u db) := by
  have hserve : ((UserCall.getUserId u).serve sha fails db).1 =
      if (UserOp.faulty fails (.getUserId u) db).1 = (-1 : ℤ) then
        .error (.invalidArgument "User not found") else .ok (UserOp.faulty fails (.getUserId u) db).1 := by
    simp only [UserCall.serve, UserCall.service, UserService.getUserId, Prog.call_bind, Prog.run_call,
      Prog.ret_bind]
    split <;> rfl
  rw [hserve]
  cases hf : fails (.getUserId u) with
  | true =>
    have hrun : (UserOp.faulty fails (.getUserId u) db).1 = (-1 : ℤ) := by
      rw [UserOp.faulty, Machine.failing_of_true _ _ hf]
      rfl
    rw [if_pos hrun]
    exact .inr ⟨rfl, fun h => (by cases h.1)⟩
  | false =>
    have hrun : (UserOp.faulty fails (.getUserId u) db).1 = UserRepository.getUserId u db := by
      rw [UserOp.faulty, Machine.failing_of_false _ _ hf]
      rfl
    rw [hrun]
    by_cases hacc : HasAccount u db
    · obtain ⟨r, hr, hname⟩ := hacc
      have hid : UserRepository.getUserId u db = r.id := getUserId_of_row hr hname
      have hne : UserRepository.getUserId u db ≠ -1 := by
        have := hids.pos r hr
        omega
      rw [if_neg hne]
      exact .inl ⟨⟨_, rfl⟩, rfl, r, hr, hname⟩
    · have hnone : UserRepository.getUserId u db = -1 := by
        rw [UserRepository.getUserId, Table.find?_eq_none.2 fun r hr hname => hacc ⟨r, hr, hname⟩]
      rw [if_pos hnone]
      exact .inr ⟨rfl, fun h => hacc h.2⟩

/-- A call is answered by the ledger that the tables keep. -/
theorem byLedger_serve (hl : db.users.rows.map UserRow.entry = l)
    (hv : db.validators = users.validators) (hids : IdsIssued db) (fails : UserOp → Bool) (c : UserCall) :
    ByLedger sha users l fails c (c.serve sha fails db).1 := by
  cases c with
  | signUp u p =>
    rcases signUp_serve sha fails u p db with ⟨hok, h, -⟩ | ⟨hok, h, -⟩
    · rw [← enters_iff hl] at h
      exact ⟨true, hok, iff_of_true rfl h⟩
    · rw [← enters_iff hl] at h
      exact ⟨false, hok, iff_of_false Bool.false_ne_true h⟩
  | loginUser u p =>
    have h : (UserCall.serve sha fails (.loginUser u p) db).1 = .ok true ↔ _ := loginUser_iff
    rw [loginUser_run, Except.ok.injEq, userPassword_iff hl] at h
    exact ⟨_, congrArg Prod.fst loginUser_run, h⟩
  | loginValidator u p =>
    have h : (UserCall.serve sha fails (.loginValidator u p) db).1 = .ok true ↔ _ := loginValidator_iff
    rw [loginValidator_run, Except.ok.injEq, ValidatorPassword, hv] at h
    exact ⟨_, congrArg Prod.fst loginValidator_run, h⟩
  | getUserId u =>
    rw [ByLedger, enters_iff hl]
    exact getUserId_serve hids

end Ledger

/-! ### Every interleaving -/

section Run

variable [DecidableEq ι] {ssl : ι → SSL} {reads : ι → List (Surroundings × Text)}
  {tickets : TicketDB} {users : UserDB coll} {events : EventDB coll}
  {allowed : List (Firing ι ServerSig) → Config ι ServerSig Exn Unit (Server coll) → ι → Prop}
  {tr tr₁ tr₂ : List (Firing ι ServerSig)} {c : Config ι ServerSig Exn Unit (Server coll)} {i : ι}

omit [DecidableEq ι] in
theorem accountLedger_snoc (e : Firing ι ServerSig) :
    accountLedger sha users (tr ++ [e]) = accountLedger sha users tr ++ (signedUp? sha e).toList := by
  rw [accountLedger, List.filterMap_append, ← List.append_assoc]
  cases h : signedUp? sha e <;> simp [accountLedger, h]

omit [DecidableEq ι] in
/-- The step lemma: a call of the user service enters a sign-up that succeeds, and nothing else. -/
theorem entries_serve (fails : UserOp → Bool) (c : UserCall) (db : UserDB coll) :
    (c.serve sha fails db).2.users.rows.map UserRow.entry = db.users.rows.map UserRow.entry ++
      (signedUp? sha ⟨i, userService fails c, (c.serve sha fails db).1⟩).toList := by
  cases c with
  | signUp u p =>
    rcases signUp_serve sha fails u p db with ⟨hok, -, hi⟩ | ⟨hok, -, hsame⟩
    · rw [hok, Table.insert_rows hi, List.map_append]
      rfl
    · rw [hok, hsame]
      exact (List.append_nil _).symm
  | loginUser u p =>
    rw [loginUser_run]
    exact (List.append_nil _).symm
  | loginValidator u p =>
    rw [loginValidator_run]
    exact (List.append_nil _).symm
  | getUserId u =>
    have hop : (UserOp.faulty fails (.getUserId u) db).2 = db := by
      rw [UserOp.faulty_snd]; split <;> rfl
    have hdb : ((UserCall.getUserId u).serve sha fails db).2 = db := by
      simp only [UserCall.serve, UserCall.service, UserService.getUserId, Prog.call_bind, Prog.run_call,
        Prog.ret_bind]
      split <;> exact hop
    rw [hdb]
    exact (List.append_nil _).symm

/-- The tables keep the ledger. -/
theorem entries_of_connections
    (run : Runs (exec sha) allowed (serving ssl reads (.start tickets users events)) tr c) :
    c.st.users.users.rows.map UserRow.entry = accountLedger sha users tr ∧
      c.st.users.validators = users.validators := by
  refine run.inv (I := fun tr c => c.st.users.users.rows.map UserRow.entry = accountLedger sha users tr ∧
    c.st.users.validators = users.validators) ⟨(List.append_nil _).symm, rfl⟩ ?_
  rintro tr c i op k ⟨hrows, hv⟩ - -
  rw [accountLedger_snoc, ← hrows]
  cases op with
  | userService fails call =>
    exact ⟨entries_serve fails call c.st.users, (call.validators_serve fails c.st.users).trans hv⟩
  | _ => exact ⟨(List.append_nil _).symm, hv⟩

/-- **The accounts are a ledger**: whatever the connections send and however their handlers interleave,
every call of the user service is answered by the accounts from before, the sign-ups that succeeded
until then, and the statements of its own that fail. -/
theorem answered_by_ledger (hids : IdsIssued users)
    (run : Runs (exec sha) Anyhow (serving ssl reads (.start tickets users events)) tr c)
    {fails : UserOp → Bool} {call : UserCall} {a : Except Exn call.Answer}
    (htr : tr = tr₁ ++ ⟨i, userService fails call, a⟩ :: tr₂) :
    ByLedger sha users (accountLedger sha users tr₁) fails call a := by
  obtain ⟨c₁, -, run₁, -, -, hret⟩ := run.exists_before htr
  have ha : a = (call.serve sha fails c₁.st.users).1 := hret
  obtain ⟨hrows, hv⟩ := entries_of_connections run₁
  have hids₁ : IdsIssued c₁.st.users := by
    refine run₁.inv (I := fun _ c => IdsIssued c.st.users) hids ?_
    intro tr c i op k h _ _
    exact users_exec (fun op _ hdb => hdb.exec op) op c.st h
  rw [ha]
  exact byLedger_serve hrows hv hids₁ fails call

/-- The lookup of an id finds an account, and the account stays. -/
theorem account_of_getUserId {s₀ : Server coll}
    (run : Runs (exec sha) allowed (serving ssl reads s₀) tr c)
    {fails : UserOp → Bool} {username : Text} {id : ℤ}
    (h : ⟨i, userService fails (.getUserId username), .ok id⟩ ∈ tr) :
    ∃ row ∈ c.st.users.users, row.id = id ∧ coll row.username = coll username := by
  have hkeep : ∀ op (s : Server coll),
      (∃ row ∈ s.users.users, row.id = id ∧ coll row.username = coll username) →
      ∃ row ∈ (exec sha op s).2.users.users, row.id = id ∧ coll row.username = coll username := by
    refine fun op s => users_exec (P := fun db : UserDB coll =>
      ∃ row ∈ db.users, row.id = id ∧ coll row.username = coll username) ?_ op s
    rintro op db ⟨row, hrow, hid, hname⟩
    exact ⟨row, op.mem_exec hrow, hid, hname⟩
  refine run.of_mem h (fun s hs => hkeep _ s ?_) hkeep
  have hok : ((UserCall.getUserId username).serve sha fails s.users).1 = .ok id := hs
  exact getUserId_ok hok

/-- **An id stands for one account**, whenever and by whomever it is looked up: two lookups, at any
times, answer the same id exactly if the names are spellings of one name. -/
theorem ids_stable (hids : IdsUnique users)
    (run : Runs (exec sha) Anyhow (serving ssl reads (.start tickets users events)) tr c)
    {j : ι} {fails fails' : UserOp → Bool} {u u' : Text} {id id' : ℤ}
    (h : ⟨i, userService fails (.getUserId u), .ok id⟩ ∈ tr)
    (h' : ⟨j, userService fails' (.getUserId u'), .ok id'⟩ ∈ tr) : id = id' ↔ coll u = coll u' := by
  have hids' : IdsUnique c.st.users := by
    refine run.inv (I := fun _ c => IdsUnique c.st.users) hids ?_
    intro tr c i op k h _ _
    exact users_exec (fun op _ hdb => hdb.exec op) op c.st h
  obtain ⟨r, hr, hid, hname⟩ := account_of_getUserId run h
  obtain ⟨r', hr', hid', hname'⟩ := account_of_getUserId run h'
  rw [← hid, ← hid', ← hname, ← hname']
  constructor
  · intro heq
    rw [hids'.inj r hr r' hr' heq]
  · intro heq
    rw [Table.eq_of_key hr hr' heq]

end Run

/-! ### A sign-up and the log-ins after it -/

def newcomer : Credentials := { username := ['e', 'v', 'e'], password := secret }

/-- The second request of the session that `surroundings 0` issues: user 5 buys seat 8. -/
def buysNext : Text :=
  BuyTicketMessage.serialize
    { username := ana
      sessionCookies := AuthenticatedMessage.generateCookie (surroundings 0)
      nonce := AuthenticatedMessage.generateNonce (surroundings 0) + 3
      ticketId := 8
      eventName := websummit }

/-- A connection signs up, another one logs in under another spelling of the name, and a third one logs
in and buys twice. -/
def threeClients : Config (Fin 3) ServerSig Exn Unit (Server lower) :=
  serving (fun i => i) (fun i => match i with
    | 0 => [(surroundings 1, SignUpMessage.serialize newcomer)]
    | 1 => [(surroundings 2, LogInMessage.serialize { newcomer with username := ['E', 'v', 'e'] })]
    | 2 => [(surroundings 0, logsIn), (surroundings 0, buys 7), (surroundings 1, buysNext)]) opened

/-- The log-in finds the account of the sign-up. -/
theorem answered_by_ledger_eve : ∃ tr c, Runs (exec sha256) Anyhow threeClients tr c ∧
    ∃ tr₁ a, tr = tr₁ ++ [⟨1, userService (fun _ => false) (.loginUser ['E', 'v', 'e'] secret), a⟩] ∧
      a = .ok true ∧
      ByLedger sha256 opened.users (accountLedger sha256 opened.users tr₁) (fun _ => false)
        (.loginUser ['E', 'v', 'e'] secret) a := by
  have run := Runs.nil.replay (admits_anyhow (exec sha256) [0, 1] [] threeClients)
  have htr : (replay (exec sha256) [0, 1] [] threeClients).1 =
      (replay (exec sha256) [0, 1] [] threeClients).1.take 1 ++
        [⟨1, userService (fun _ => false) (.loginUser ['E', 'v', 'e'] secret), _⟩] := rfl
  exact ⟨_, _, run, _, _, htr, by decide +kernel,
    answered_by_ledger ⟨by decide, by decide⟩ run htr⟩

/-- Both purchases look up the id of one account. -/
theorem ids_stable_ana : ∃ tr c fails fails',
    Runs (exec sha256) Anyhow threeClients tr c ∧
      tr[7]? = some ⟨2, userService fails (.getUserId ana), .ok 5⟩ ∧
      tr[13]? = some ⟨2, userService fails' (.getUserId ana), .ok 5⟩ ∧
      ((5 : ℤ) = 5 ↔ lower ana = lower ana) := by
  have run := Runs.nil.replay (admits_anyhow (exec sha256)
    [2, 2, 2, 2, 2, 2, 2, 2, 2, 2, 2, 2, 2, 2] [] threeClients)
  have h : (replay (exec sha256) [2, 2, 2, 2, 2, 2, 2, 2, 2, 2, 2, 2, 2, 2] [] threeClients).1[7]? =
      some ⟨2, userService (fun _ => false) (.getUserId ana), .ok 5⟩ := rfl
  have h' : (replay (exec sha256) [2, 2, 2, 2, 2, 2, 2, 2, 2, 2, 2, 2, 2, 2] [] threeClients).1[13]? =
      some ⟨2, userService (fun _ => false) (.getUserId ana), .ok 5⟩ := rfl
  exact ⟨_, _, _, _, run, h, h', ids_stable ⟨by decide, by decide⟩ run
    (List.mem_of_getElem? h) (List.mem_of_getElem? h')⟩

end TicketIST
