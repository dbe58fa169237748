import TicketIST.Controller
import TicketIST.Lib.Threads

/-!
# One winner per username

A sign-up asks whether its name is taken and inserts it if not, in two statements, so sign-ups of one
name may all find it free.  The key of the table lets one of them in, and the `INSERT` of the others
fails, which `createUser` reports as it reports every error.

In every interleaving of sign-ups, a name that was free has in the end one winner, whose password is the
one that a log-in takes, and nothing changes for names that were taken before (`one_winner`).
-/

namespace TicketIST

open TicketIST.Lib UserOp

variable {ι : Type} {coll sha : Text → Text}

/-! ### The stages of a sign-up -/

namespace SignUp

def insert (sha : Text → Text) (m : Credentials) : UserProg Bool :=
  .call (createUser m.username (sha m.password)) .ret

def find (sha : Text → Text) (m : Credentials) : UserProg Bool :=
  .call (findUserByUsername m.username) fun user => if user.isSome then .ret false else insert sha m

/-- The programs that can be left of a sign-up. -/
inductive Stage (sha : Text → Text) (m : Credentials) : UserProg Bool → Prop
  | find : Stage sha m (find sha m)
  | insert : Stage sha m (insert sha m)
  | done (ok : Bool) : Stage sha m (.ret ok)

theorem Stage.signUp (m : Credentials) :
    Stage sha m (UserService.signUp sha m.username m.password) := .find

theorem Stage.step {m : Credentials} {op : UserOp} {k : op.Ret → UserProg Bool}
    (h : Stage sha m (.call op k)) (r : op.Ret) : Stage sha m (k r) := by
  cases h with
  | find => dsimp only; split; exacts [.done false, .insert]
  | insert => exact .done r

end SignUp

/-- Sign-ups that run side by side. -/
def signUps (sha : Text → Text) (calls : ι → Credentials) (db : UserDB coll) :
    Config ι UserSig Exn Bool (UserDB coll) :=
  ⟨fun i => UserService.signUp sha (calls i).username (calls i).password, db⟩

theorem findUserByUsername_isSome {u : Text} {db : UserDB coll} :
    (UserRepository.findUserByUsername u db).isSome = true ↔ HasAccount u db := by
  simp [UserRepository.findUserByUsername, Table.find?, Table.first?_isSome, HasAccount]

/-- A name that fits its column goes in if it is not taken. -/
theorem createUser_of_fits {u p : Text} (hu : u.length ≤ 45) (db : UserDB coll) :
    (UserRepository.createUser u p db).1 = true ∨ HasAccount u db := by
  unfold UserRepository.createUser
  rw [if_neg (Nat.not_lt.2 hu)]
  cases hi : db.users.insert { id := db.nextId, username := u, isValidator := false, password := p } with
  | some t => exact .inl rfl
  | none => exact .inr (Table.insert_eq_none.1 hi)

/-! ### What holds in every interleaving -/

/-- The rows of the table are those from before and those of the sign-ups that have returned true, each
of a name that was free; what has returned false has found its name taken. -/
structure Register (sha : Text → Text) (calls : ι → Credentials) (db : UserDB coll)
    (tr : List (Firing ι UserSig)) (c : Config ι UserSig Exn Bool (UserDB coll)) : Prop where
  kept : ∀ r ∈ db.users, r ∈ c.st.users
  rows : ∀ r ∈ c.st.users, r ∈ db.users ∨ ∃ w, c.pool w = .ret true ∧
    r.username = (calls w).username ∧ r.password = sha (calls w).password
  won : ∀ w, c.pool w = .ret true → ¬HasAccount (calls w).username db ∧ ∃ r ∈ c.st.users,
    r.username = (calls w).username ∧ r.password = sha (calls w).password
  only : ∀ w w', c.pool w = .ret true → c.pool w' = .ret true →
    coll (calls w).username = coll (calls w').username → w = w'
  lost : ∀ i, c.pool i = .ret false → HasAccount (calls i).username c.st
  inserts : ∀ i, c.pool i = SignUp.insert sha (calls i) → ¬HasAccount (calls i).username db
  writes : ∀ e ∈ tr, e.op = findUserByUsername (calls e.tid).username ∨
    ¬HasAccount (calls e.tid).username db

section Steps

variable {calls : ι → Credentials} {db : UserDB coll} {tr : List (Firing ι UserSig)}
  {c : Config ι UserSig Exn Bool (UserDB coll)} {i : ι} {op : UserOp} {k : op.Ret → UserProg Bool}

/-- A name that was free has a row once a sign-up of it has returned, and the row comes from the
winner. -/
theorem Register.exists_won (hI : Register sha calls db tr c)
    (hi : ¬HasAccount (calls i).username db) {ok : Bool} (hret : c.pool i = .ret ok) :
    ∃ w, c.pool w = .ret true ∧ coll (calls w).username = coll (calls i).username := by
  cases ok with
  | true => exact ⟨i, hret, rfl⟩
  | false =>
    obtain ⟨r, hr, hru⟩ := hI.lost i hret
    rcases hI.rows r hr with hr | ⟨w, hw, hname, -⟩
    · exact absurd ⟨r, hr, hru⟩ hi
    · exact ⟨w, hw, (congrArg coll hname).symm.trans hru⟩

theorem Register.writes_append (hI : Register sha calls db tr c) {e : Firing ι UserSig}
    (he : e.op = findUserByUsername (calls e.tid).username ∨ ¬HasAccount (calls e.tid).username db) :
    ∀ e' ∈ tr ++ [e], e'.op = findUserByUsername (calls e'.tid).username ∨
      ¬HasAccount (calls e'.tid).username db := by
  rw [List.forall_mem_append, List.forall_mem_singleton]
  exact ⟨hI.writes, he⟩

variable [DecidableEq ι]

/-- A step that leaves the rows alone: a name found free or taken, or an `INSERT` that fails. -/
theorem Register.turn (hI : Register sha calls db tr c) (hp : c.pool i = .call op k)
    (hrows : (exec op c.st).2.users = c.st.users)
    (hop : op = findUserByUsername (calls i).username ∨ ¬HasAccount (calls i).username db)
    (hk : k (exec op c.st).1 = .ret false ∧ HasAccount (calls i).username c.st ∨
      k (exec op c.st).1 = SignUp.insert sha (calls i) ∧ ¬HasAccount (calls i).username db) :
    Register sha calls db (tr ++ [⟨i, op, (exec op c.st).1⟩]) (c.fire exec i op k) := by
  have hwin : ∀ w, (c.fire exec i op k).pool w = .ret true ↔ c.pool w = .ret true := by
    intro w
    by_cases hwi : w = i
    · subst hwi
      rw [fire_pool_self, hp]
      rcases hk with ⟨hk, -⟩ | ⟨hk, -⟩ <;> simp [hk, SignUp.insert]
    · rw [fire_pool_of_ne hwi]
  have hmem : ∀ r, r ∈ (c.fire exec i op k).st.users ↔ r ∈ c.st.users := by
    intro r
    show r ∈ (exec op c.st).2.users ↔ r ∈ c.st.users
    rw [hrows]
  constructor
  case kept => exact fun r hr => (hmem r).2 (hI.kept r hr)
  case rows => simpa only [hmem, hwin] using hI.rows
  case won => simpa only [hmem, hwin] using hI.won
  case only => simpa only [hwin] using hI.only
  case lost =>
    intro j hj
    have hj' : HasAccount (calls j).username c.st := by
      by_cases hji : j = i
      · subst hji
        rw [fire_pool_self] at hj
        rcases hk with ⟨-, hk⟩ | ⟨hk, -⟩
        · exact hk
        · rw [hk] at hj
          cases hj
      · rw [fire_pool_of_ne hji] at hj
        exact hI.lost j hj
    obtain ⟨r, hr, hru⟩ := hj'
    exact ⟨r, (hmem r).2 hr, hru⟩
  case inserts =>
    intro j hj
    by_cases hji : j = i
    · subst hji
      rw [fire_pool_self] at hj
      rcases hk with ⟨hk, -⟩ | ⟨-, hk⟩
      · rw [hk] at hj
        cases hj
      · exact hk
    · rw [fire_pool_of_ne hji] at hj
      exact hI.inserts j hj
  case writes => exact hI.writes_append hop

/-- An `INSERT` that goes in. -/
theorem Register.win (hI : Register sha calls db tr c)
    (hp : c.pool i = SignUp.insert sha (calls i)) {row : UserRow}
    (hname : row.username = (calls i).username) (hpw : row.password = sha (calls i).password)
    (hok : (exec (createUser (calls i).username (sha (calls i).password)) c.st).1 = true)
    (hi : c.st.users.insert row =
      some (exec (createUser (calls i).username (sha (calls i).password)) c.st).2.users) :
    Register sha calls db
      (tr ++ [⟨i, createUser (calls i).username (sha (calls i).password),
        (exec (createUser (calls i).username (sha (calls i).password)) c.st).1⟩])
      (c.fire exec i (createUser (calls i).username (sha (calls i).password)) .ret) := by
  set op := createUser (calls i).username (sha (calls i).password) with hop
  have hret : (c.fire exec i op .ret).pool i = .ret true := by
    rw [fire_pool_self, hok]
  have hwin : ∀ w, (c.fire exec i op .ret).pool w = .ret true ↔ w = i ∨ c.pool w = .ret true := by
    intro w
    by_cases hwi : w = i
    · subst hwi
      exact iff_of_true hret (.inl rfl)
    · rw [fire_pool_of_ne hwi]
      exact (or_iff_right hwi).symm
  have hmem : ∀ r, r ∈ (c.fire exec i op .ret).st.users ↔ r ∈ c.st.users ∨ r = row :=
    fun r => Table.mem_insert hi
  have hfree : ¬HasAccount (calls i).username c.st := by
    rintro ⟨r, hr, hru⟩
    exact Table.insert_fresh hi r hr (hru.trans (congrArg coll hname.symm))
  have hfree_of : ∀ w, c.pool w = .ret true →
      coll (calls w).username ≠ coll (calls i).username := by
    intro w hw hwi
    obtain ⟨r, hr, hru, -⟩ := (hI.won w hw).2
    exact hfree ⟨r, hr, (congrArg coll hru).trans hwi⟩
  have hother : ∀ j p, (∀ ok, p = .ret ok → ok = false) → (c.fire exec i op .ret).pool j = p →
      j ≠ i := by
    rintro j p hfalse hj rfl
    rw [hret] at hj
    exact absurd (hfalse true hj.symm) (by decide)
  have hj : ∀ j p, (∀ ok, p = .ret ok → ok = false) → (c.fire exec i op .ret).pool j = p →
      c.pool j = p := by
    intro j p hfalse hj
    rwa [fire_pool_of_ne (hother j p hfalse hj)] at hj
  constructor
  case kept => exact fun r hr => (hmem r).2 (.inl (hI.kept r hr))
  case rows =>
    intro r hr
    rcases (hmem r).1 hr with hr | rfl
    · rcases hI.rows r hr with hr | ⟨w, hw, hrow⟩
      · exact .inl hr
      · exact .inr ⟨w, (hwin w).2 (.inr hw), hrow⟩
    · exact .inr ⟨i, hret, hname, hpw⟩
  case won =>
    intro w hw
    rcases (hwin w).1 hw with rfl | hw
    · exact ⟨hI.inserts w hp, row, (hmem row).2 (.inr rfl), hname, hpw⟩
    · obtain ⟨hnew, r, hr, hrow⟩ := hI.won w hw
      exact ⟨hnew, r, (hmem r).2 (.inl hr), hrow⟩
  case only =>
    intro w w' hw hw' heq
    rcases (hwin w).1 hw with rfl | hcw <;> rcases (hwin w').1 hw' with rfl | hcw'
    · rfl
    · exact absurd heq.symm (hfree_of w' hcw')
    · exact absurd heq (hfree_of w hcw)
    · exact hI.only w w' hcw hcw' heq
  case lost =>
    intro j hlost
    obtain ⟨r, hr, hru⟩ := hI.lost j (hj j _ (fun ok hok => by cases hok; rfl) hlost)
    exact ⟨r, (hmem r).2 (.inl hr), hru⟩
  case inserts =>
    intro j hins
    exact hI.inserts j (hj j _ (fun ok hok => by cases hok) hins)
  case writes => exact hI.writes_append (.inr (hI.inserts i hp))

/-- One step of a sign-up. -/
theorem Register.step (hfit : ∀ i, (calls i).username.length ≤ 45) (hI : Register sha calls db tr c)
    (hp : c.pool i = .call op k) (hs : SignUp.Stage sha (calls i) (.call op k)) :
    Register sha calls db (tr ++ [⟨i, op, (exec op c.st).1⟩]) (c.fire exec i op k) := by
  cases hs with
  | find =>
    refine hI.turn hp rfl (.inl rfl) ?_
    by_cases h : HasAccount (calls i).username c.st
    · refine .inl ⟨?_, h⟩
      exact if_pos (findUserByUsername_isSome.2 h)
    · refine .inr ⟨if_neg (mt findUserByUsername_isSome.1 h), ?_⟩
      rintro ⟨r, hr, hru⟩
      exact h ⟨r, hI.kept r hr, hru⟩
  | insert =>
    rcases createUser_cases (calls i).username (sha (calls i).password) c.st with
      ⟨hok, hi, -⟩ | ⟨hok, hrows, -⟩
    · exact hI.win hp rfl rfl hok hi
    · have htaken := (createUser_of_fits (p := sha (calls i).password) (hfit i) c.st).resolve_left
        (by rw [hok]; decide)
      exact hI.turn hp hrows (.inr (hI.inserts i hp)) (.inl ⟨congrArg _ hok, htaken⟩)

theorem register_of_run (hfit : ∀ i, (calls i).username.length ≤ 45)
    (run : Runs exec Anyhow (signUps sha calls db) tr c) : Register sha calls db tr c := by
  refine run.inv_threads (A := fun i p => SignUp.Stage sha (calls i) p) (fun i => .signUp (calls i))
    (fun i op k s h => h.step _) (I := Register sha calls db) ?_
    fun tr c i op k hI hp hs _ => hI.step hfit hp hs
  have hpool : ∀ i ok, (signUps sha calls db).pool i ≠ .ret ok := by
    intro i ok h
    cases h
  constructor
  · exact fun r hr => hr
  · exact fun r hr => .inl hr
  · exact fun w hw => absurd hw (hpool w true)
  · exact fun w _ hw => absurd hw (hpool w true)
  · exact fun i hi => absurd hi (hpool i false)
  · intro i hi
    cases hi
  · exact fun e he => absurd he List.not_mem_nil

/-! ### One winner -/

/-- The sign-up `w` has won the name `u`: it is the only one that returned true, its row is the only one
of the name, and its password the only one that a log-in takes. -/
structure Wins (sha : Text → Text) (calls : ι → Credentials)
    (c : Config ι UserSig Exn Bool (UserDB coll)) (u : Text) (w : ι) : Prop where
  name : coll (calls w).username = coll u
  returned : ∀ i, coll (calls i).username = coll u → c.pool i = .ret (decide (i = w))
  row : ∃ r ∈ c.st.users, r.username = (calls w).username ∧ r.password = sha (calls w).password ∧
    ∀ r' ∈ c.st.users, coll r'.username = coll u → r' = r
  login : ∀ v p, coll v = coll u →
    ((UserCall.serve sha (fun _ => false) (.loginUser v p) c.st).1 = .ok true ↔
      p = (calls w).password)

/-- A log-in takes the password of the only row of its name. -/
theorem login_iff_of_row (hsha : Function.Injective sha) {db : UserDB coll} {r : UserRow}
    {u password : Text} (hr : r ∈ db.users) (hru : coll r.username = coll u)
    (hpw : r.password = sha password) {v p : Text} (hv : coll v = coll u) :
    (UserCall.serve sha (fun _ => false) (.loginUser v p) db).1 = .ok true ↔ p = password := by
  refine loginUser_iff.trans ((and_iff_right rfl).trans ?_)
  constructor
  · rintro ⟨r', hr', hru', hpw'⟩
    obtain rfl : r' = r := Table.eq_of_key hr' hr ((hru'.trans hv).trans hru.symm)
    exact hsha (hpw'.symm.trans hpw)
  · rintro rfl
    exact ⟨r, hr, hru.trans hv.symm, hpw⟩

theorem exists_ret (run : Runs exec Anyhow (signUps sha calls db) tr c)
    (hend : (c.pool i).next = none) : ∃ ok, c.pool i = .ret ok := by
  have hs : SignUp.Stage sha (calls i) (c.pool i) :=
    run.threads (A := fun i p => SignUp.Stage sha (calls i) p) (fun i => .signUp (calls i))
      (fun i op k s h => h.step _) i
  cases hc : c.pool i with
  | ret ok => exact ⟨ok, rfl⟩
  | throw x =>
    rw [hc] at hs
    cases hs
  | call op k =>
    rw [hc] at hend
    cases hend

theorem Register.wins (hI : Register sha calls db tr c) (hsha : Function.Injective sha)
    (hdone : ∀ i, ∃ ok, c.pool i = .ret ok) {w : ι} (hw : c.pool w = .ret true) {u : Text}
    (hname : coll (calls w).username = coll u) : Wins sha calls c u w := by
  obtain ⟨-, r, hr, hrow, hpw⟩ := hI.won w hw
  have hru : coll r.username = coll u := (congrArg coll hrow).trans hname
  refine ⟨hname, fun j hj => ?_, ⟨r, hr, hrow, hpw, fun r' hr' hru' => ?_⟩, fun v p hv => ?_⟩
  · obtain ⟨_ | _, hc⟩ := hdone j
    · have hjw : j ≠ w := by
        rintro rfl
        rw [hc] at hw
        cases hw
      rw [hc, decide_eq_false hjw]
    · rw [hc, decide_eq_true (hI.only j w hc hw (hj.trans hname.symm))]
  · exact Table.eq_of_key hr' hr (hru'.trans hru.symm)
  · exact login_iff_of_row hsha hr hru hpw hv

theorem length_of_path {m : Credentials} {l : List (Step UserSig)} {q : UserProg Bool}
    (h : Path (SignUp.find sha m) l q) : l.length ≤ 2 := by
  rcases l with _ | ⟨⟨op, r⟩, _ | ⟨⟨op', r'⟩, _ | ⟨d, l⟩⟩⟩
  · exact Nat.zero_le 2
  · exact Nat.le_succ 1
  · exact Nat.le_refl 2
  · obtain ⟨k, hk, k', hk', k'', hk'', -⟩ := h
    dsimp only at hk hk'
    cases hk
    dsimp only at hk'
    split at hk'
    · cases hk'
    · cases hk'
      cases hk''

/-- A sign-up takes two statements at most, and every run can go on until all have returned. -/
theorem signUps_end [Finite ι] (run : Runs exec Anyhow (signUps sha calls db) tr c) :
    (∀ i, (eventsOf tr i).length ≤ 2) ∧ ∃ tr' c',
      Runs exec Anyhow (signUps sha calls db) (tr ++ tr') c' ∧ ∀ i, ∃ ok, c'.pool i = .ret ok := by
  refine ⟨fun i => length_of_path (run.path i), ?_⟩
  obtain ⟨tr', c', run', hend⟩ := run.exists_end
  exact ⟨tr', c', run', fun i => exists_ret run' (hend i)⟩

/-- **One winner per username**: whatever the order of their statements, when all sign-ups have returned,
each name that was free has one winner, and for the names that were taken nothing has changed. -/
theorem one_winner (hsha : Function.Injective sha) (hfit : ∀ i, (calls i).username.length ≤ 45)
    (run : Runs exec Anyhow (signUps sha calls db) tr c) (hend : ∀ i, (c.pool i).next = none) :
    (∀ i, HasAccount (calls i).username db → c.pool i = .ret false ∧
        ∀ e ∈ tr, e.tid = i → ∀ db' : UserDB coll, (exec e.op db').2 = db') ∧
      (∀ r, HasAccount r.username db → (r ∈ c.st.users ↔ r ∈ db.users)) ∧
      ∀ i, ¬HasAccount (calls i).username db → ∃ w, Wins sha calls c (calls i).username w := by
  have hI := register_of_run hfit run
  have hdone : ∀ i, ∃ ok, c.pool i = .ret ok := fun i => exists_ret run (hend i)
  refine ⟨fun i hi => ⟨?_, ?_⟩, fun r hr => ⟨fun hmem => ?_, hI.kept r⟩, fun i hi => ?_⟩
  · obtain ⟨_ | _, hc⟩ := hdone i
    · exact hc
    · exact absurd hi (hI.won i hc).1
  · rintro e he rfl db'
    rw [(hI.writes e he).resolve_right (not_not.2 hi)]
    rfl
  · rcases hI.rows r hmem with hmem | ⟨w, hw, hname, -⟩
    · exact hmem
    · exact absurd (hname ▸ hr) (hI.won w hw).1
  · obtain ⟨ok, hret⟩ := hdone i
    obtain ⟨w, hw, hname⟩ := hI.exists_won hi hret
    exact ⟨w, hI.wins hsha hdone hw hname⟩

end Steps

/-! ### Two sign-ups of one name -/

/-- Two sign-ups of one name, in two spellings. -/
def namesakes (b : Bool) : Credentials :=
  { username := if b then ['E', 'v', 'e'] else ['e', 'v', 'e']
    password := if b then codeA else secret }

/-- Both find the name free before either inserts it, and the second spelling wins. -/
def photoFinish : List (Firing Bool UserSig) × Config Bool UserSig Exn Bool (UserDB lower) :=
  replay exec [false, true, true, false] [] (signUps sha256 namesakes opened.users)

theorem one_winner_eve : photoFinish.2.pool true = .ret true ∧ ¬HasAccount ['e', 'v', 'e'] opened.users ∧
    (∀ i, HasAccount (namesakes i).username opened.users → photoFinish.2.pool i = .ret false ∧
        ∀ e ∈ photoFinish.1, e.tid = i → ∀ db' : UserDB lower, (exec e.op db').2 = db') ∧
      (∀ r : UserRow, HasAccount r.username opened.users →
        (r ∈ photoFinish.2.st.users ↔ r ∈ opened.users.users)) ∧
      ∀ i, ¬HasAccount (namesakes i).username opened.users →
        ∃ w, Wins sha256 namesakes photoFinish.2 (namesakes i).username w := by
  have run : Runs exec Anyhow (signUps sha256 namesakes opened.users) photoFinish.1 photoFinish.2 :=
    Runs.nil.replay (admits_anyhow _ _ _ _)
  refine ⟨rfl, ?_, one_winner sha256_injective (by decide) run (by decide +kernel)⟩
  unfold HasAccount
  decide +kernel

end TicketIST
