import TicketIST.Lib.Prog
import TicketIST.Lib.Strings
import TicketIST.Lib.Table

/-!
# Accounts

The tables of users and validators, `UserRepository`, whose functions send one SQL statement each, and
`UserService` as programs over it.

MySQL compares names by the collation of their columns, case- and accent-insensitively: two names are
the same name when `coll`, the collation's key, is the same for both.  What a statement answers when
it fails is the value its function returns after the catch block, `UserOp.errorValue`.
-/

namespace TicketIST

open TicketIST.Lib

structure UserRow where
  id : ℤ
  username : Text
  isValidator : Bool
  password : Text
  deriving DecidableEq

structure ValidatorRow where
  id : ℤ
  username : Text
  password : Text
  deriving DecidableEq

/-- The tables of accounts, their names unique under the collation. -/
structure UserDB (coll : Text → Text) where
  users : Table UserRow Text fun r => coll r.username
  /-- the `AUTO_INCREMENT` counter of `users` -/
  nextId : ℤ
  validators : Table ValidatorRow Text fun r => coll r.username

structure User where
  id : ℤ
  username : Text
  deriving DecidableEq

variable {coll : Text → Text}

/-! ### The repository functions -/

namespace UserRepository

/-- `INSERT INTO users (username, isValidator, password) VALUES (?, ?, ?)`.  A name does not go in if
it is too long for its column, or taken; a name that is taken uses up an id.  Left out: of a name whose
excess is all blanks MySQL cuts the blanks, and it goes in. -/
def createUser (username password : Text) (db : UserDB coll) : Bool × UserDB coll :=
  if 45 < username.length then (false, db)
  else match db.users.insert { id := db.nextId, username, isValidator := false, password } with
    | some t => (true, { db with users := t, nextId := db.nextId + 1 })
    | none => (false, { db with nextId := db.nextId + 1 })

/-- `SELECT id, username FROM users WHERE username = ?` -/
def findUserByUsername (username : Text) (db : UserDB coll) : Option User :=
  (db.users.find? (coll username)).map fun r => { id := r.id, username := r.username }

/-- `SELECT password FROM users WHERE username = ?`, compared with `password`. -/
def checkPassword (username password : Text) (db : UserDB coll) : Bool :=
  (db.users.find? (coll username)).any fun r => r.password = password

/-- `SELECT password FROM validators WHERE username = ?`, compared with `password`. -/
def checkValidatorPassword (username password : Text) (db : UserDB coll) : Bool :=
  (db.validators.find? (coll username)).any fun r => r.password = password

/-- `SELECT id FROM users WHERE username = ?`, or -1. -/
def getUserId (username : Text) (db : UserDB coll) : ℤ :=
  match db.users.find? (coll username) with
  | some r => r.id
  | none => -1

end UserRepository

inductive UserOp
  | createUser (username password : Text)
  | findUserByUsername (username : Text)
  | checkPassword (username password : Text)
  | checkValidatorPassword (username password : Text)
  | getUserId (username : Text)
  deriving DecidableEq

namespace UserOp

@[reducible] def Ret : UserOp → Type
  | createUser .. => Bool
  | findUserByUsername _ => Option User
  | checkPassword .. => Bool
  | checkValidatorPassword .. => Bool
  | getUserId _ => ℤ

end UserOp

abbrev UserSig : Sig := ⟨UserOp, UserOp.Ret⟩

def UserOp.exec : Machine UserSig (UserDB coll)
  | .createUser u p, db => UserRepository.createUser u p db
  | .findUserByUsername u, db => (UserRepository.findUserByUsername u db, db)
  | .checkPassword u p, db => (UserRepository.checkPassword u p db, db)
  | .checkValidatorPassword u p, db => (UserRepository.checkValidatorPassword u p db, db)
  | .getUserId u, db => (UserRepository.getUserId u db, db)

/-- What a call answers with when its statement fails. -/
def UserOp.errorValue : (op : UserOp) → op.Ret
  | .createUser .. => false
  | .findUserByUsername _ => none
  | .checkPassword .. => false
  | .checkValidatorPassword .. => false
  | .getUserId _ => (-1 : ℤ)

def UserOp.faulty (fails : UserOp → Bool) : Machine UserSig (UserDB coll) :=
  exec.failing errorValue fails

theorem UserOp.faulty_snd (fails : UserOp → Bool) (op : UserOp) (db : UserDB coll) :
    (faulty fails op db).2 = if fails op then db else (exec op db).2 := by
  unfold faulty Machine.failing
  split <;> rfl

/-! ### The service -/

abbrev UserProg := Prog UserSig Exn

abbrev UserOp.ask (op : UserOp) : UserProg op.Ret := .call op .ret

namespace UserService

open UserOp

variable (sha : Text → Text)

def signUp (username password : Text) : UserProg Bool := do
  let user ← ask (findUserByUsername username)
  if user.isSome then return false
  else
    let hashedPwd := sha password
    ask (createUser username hashedPwd)

def loginUser (username password : Text) : UserProg Bool := do
  let pwd := sha password
  let ok ← ask (checkPassword username pwd)
  if ok then return true else return false

def loginValidator (username password : Text) : UserProg Bool := do
  let pwd := sha password
  let ok ← ask (checkValidatorPassword username pwd)
  if ok then return true else return false

def getUserId (username : Text) : UserProg ℤ := do
  let id ← ask (UserOp.getUserId username)
  if id = -1 then .throw (.invalidArgument "User not found")
  else return id

end UserService

inductive UserCall
  | signUp (username password : Text)
  | loginUser (username password : Text)
  | loginValidator (username password : Text)
  | getUserId (username : Text)
  deriving DecidableEq

namespace UserCall

@[reducible] def Answer : UserCall → Type
  | signUp .. => Bool
  | loginUser .. => Bool
  | loginValidator .. => Bool
  | getUserId _ => ℤ

def service (sha : Text → Text) : (c : UserCall) → UserProg c.Answer
  | signUp u p => UserService.signUp sha u p
  | loginUser u p => UserService.loginUser sha u p
  | loginValidator u p => UserService.loginValidator sha u p
  | getUserId u => UserService.getUserId u

/-- A call served alone, on tables on which the statements that `fails` selects fail. -/
def serve (sha : Text → Text) (fails : UserOp → Bool) (c : UserCall) (db : UserDB coll) :
    Except Exn c.Answer × UserDB coll :=
  (c.service sha).run (UserOp.faulty fails) db

end UserCall

/-! ### What the credential checks establish -/

section Credentials

variable {sha : Text → Text} {fails : UserOp → Bool} {u p : Text} {db : UserDB coll}

/-- `p` is the password of the user that the tables know as `u`. -/
def UserPassword (sha : Text → Text) (u p : Text) (db : UserDB coll) : Prop :=
  ∃ r ∈ db.users, coll r.username = coll u ∧ r.password = sha p

/-- `p` is the password of the validator that the tables know as `u`. -/
def ValidatorPassword (sha : Text → Text) (u p : Text) (db : UserDB coll) : Prop :=
  ∃ r ∈ db.validators, coll r.username = coll u ∧ r.password = sha p

theorem checkPassword_iff {pw : Text} : UserRepository.checkPassword u pw db = true ↔
    ∃ r ∈ db.users, coll r.username = coll u ∧ r.password = pw := by
  simp [UserRepository.checkPassword, Table.find?_any]

theorem checkValidatorPassword_iff {pw : Text} :
    UserRepository.checkValidatorPassword u pw db = true ↔
      ∃ r ∈ db.validators, coll r.username = coll u ∧ r.password = pw := by
  simp [UserRepository.checkValidatorPassword, Table.find?_any]

theorem loginUser_run : UserCall.serve sha fails (.loginUser u p) db =
    (.ok (UserOp.faulty fails (.checkPassword u (sha p)) db).1, db) := by
  have hdb : (UserOp.faulty fails (.checkPassword u (sha p)) db).2 = db := by
    rw [UserOp.faulty_snd]; split <;> rfl
  simp only [UserCall.serve, UserCall.service, UserService.loginUser, Prog.call_bind, Prog.run_call,
    hdb]
  cases (UserOp.faulty fails (.checkPassword u (sha p)) db).1 <;> rfl

theorem loginValidator_run : UserCall.serve sha fails (.loginValidator u p) db =
    (.ok (UserOp.faulty fails (.checkValidatorPassword u (sha p)) db).1, db) := by
  have hdb : (UserOp.faulty fails (.checkValidatorPassword u (sha p)) db).2 = db := by
    rw [UserOp.faulty_snd]; split <;> rfl
  simp only [UserCall.serve, UserCall.service, UserService.loginValidator, Prog.call_bind,
    Prog.run_call, hdb]
  cases (UserOp.faulty fails (.checkValidatorPassword u (sha p)) db).1 <;> rfl

/-- A user is let in by the password of the account, and by no other. -/
theorem loginUser_iff : (UserCall.serve sha fails (.loginUser u p) db).1 = .ok true ↔
    fails (.checkPassword u (sha p)) = false ∧ UserPassword sha u p db := by
  rw [loginUser_run]
  cases hf : fails (.checkPassword u (sha p)) with
  | true => simp [UserOp.faulty, Machine.failing, hf, UserOp.errorValue]
  | false => simp [UserOp.faulty, Machine.failing, hf, UserOp.exec, UserPassword, checkPassword_iff]

/-- A validator is let in by the password of the account, and by no other. -/
theorem loginValidator_iff : (UserCall.serve sha fails (.loginValidator u p) db).1 = .ok true ↔
    fails (.checkValidatorPassword u (sha p)) = false ∧ ValidatorPassword sha u p db := by
  rw [loginValidator_run]
  cases hf : fails (.checkValidatorPassword u (sha p)) with
  | true => simp [UserOp.faulty, Machine.failing, hf, UserOp.errorValue]
  | false =>
    simp [UserOp.faulty, Machine.failing, hf, UserOp.exec, ValidatorPassword,
      checkValidatorPassword_iff]

/-- A row goes in under the next id, or the table stays as it was. -/
theorem createUser_cases (u p : Text) (db : UserDB coll) :
    (UserRepository.createUser u p db).1 = true ∧
        db.users.insert ⟨db.nextId, u, false, p⟩ = some (UserRepository.createUser u p db).2.users ∧
        (UserRepository.createUser u p db).2.nextId = db.nextId + 1 ∨
      (UserRepository.createUser u p db).1 = false ∧
        (UserRepository.createUser u p db).2.users = db.users ∧
        db.nextId ≤ (UserRepository.createUser u p db).2.nextId := by
  unfold UserRepository.createUser
  split
  · exact .inr ⟨rfl, rfl, Int.le_refl _⟩
  · split
    · next t hi => exact .inl ⟨rfl, hi, rfl⟩
    · exact .inr ⟨rfl, rfl, Int.le_add_one (Int.le_refl _)⟩

/-- A name that goes in was free, and has its password from then on. -/
theorem createUser_true {pw : Text} {db' : UserDB coll}
    (h : UserRepository.createUser u pw db = (true, db')) :
    (∀ r ∈ db.users, coll r.username ≠ coll u) ∧
      ∃ r ∈ db'.users, coll r.username = coll u ∧ r.password = pw := by
  unfold UserRepository.createUser at h
  split at h
  · cases h
  · split at h
    · next t hi =>
      cases h
      exact ⟨Table.insert_fresh hi, _, (Table.mem_insert hi).2 (.inr rfl), rfl, rfl⟩
    · cases h

/-- A sign-up succeeds on a free name, and its password is the account's from then on. -/
theorem signUp_true (h : (UserCall.serve sha fails (.signUp u p) db).1 = .ok true) :
    (∀ r ∈ db.users, coll r.username ≠ coll u) ∧
      UserPassword sha u p (UserCall.serve sha fails (.signUp u p) db).2 := by
  have hfind : (UserOp.faulty fails (.findUserByUsername u) db).2 = db := by
    rw [UserOp.faulty_snd]; split <;> rfl
  simp only [UserCall.serve, UserCall.service, UserService.signUp, Prog.call_bind, Prog.run_call,
    Prog.ret_bind, hfind] at h ⊢
  split at h
  · cases h
  · next hnew =>
    rw [if_neg hnew]
    simp only [Prog.run_call, Prog.run_ret, UserOp.faulty, Machine.failing] at h ⊢
    split at h
    · cases h
    · next hf =>
      rw [if_neg hf]
      exact createUser_true (Prod.ext (Except.ok.inj h) rfl)

end Credentials

/-! ### Accounts stay -/

section Accounts

variable {sha : Text → Text} {db : UserDB coll}

/-- The tables have a user under the name `u`. -/
def HasAccount (u : Text) (db : UserDB coll) : Prop := ∃ r ∈ db.users, coll r.username = coll u

/-- The ids are those that `AUTO_INCREMENT` hands out. -/
structure IdsIssued (db : UserDB coll) : Prop where
  pos : ∀ r ∈ db.users, 0 < r.id
  next : 0 < db.nextId

theorem UserOp.mem_exec {r : UserRow} (op : UserOp) (hr : r ∈ db.users) :
    r ∈ (exec op db).2.users := by
  cases op with
  | createUser u p =>
    rcases createUser_cases u p db with ⟨-, hi, -⟩ | ⟨-, hsame, -⟩
    · exact (Table.mem_insert hi).2 (.inl hr)
    · exact hsame.symm ▸ hr
  | _ => exact hr

theorem HasAccount.exec {u : Text} (h : HasAccount u db) (op : UserOp) :
    HasAccount u (op.exec db).2 := by
  obtain ⟨r, hr, hru⟩ := h
  exact ⟨r, op.mem_exec hr, hru⟩

theorem IdsIssued.exec (h : IdsIssued db) (op : UserOp) : IdsIssued (op.exec db).2 := by
  cases op with
  | createUser u p =>
    rcases createUser_cases u p db with ⟨-, hi, hn⟩ | ⟨-, hsame, hn⟩
    · refine ⟨fun r hr => ?_, ?_⟩
      · rcases (Table.mem_insert hi).1 hr with hr | rfl
        · exact h.pos r hr
        · exact h.next
      · show 0 < (UserRepository.createUser u p db).2.nextId
        have := h.next
        omega
    · refine ⟨fun r hr => h.pos r (hsame ▸ hr), ?_⟩
      exact h.next.trans_le hn
  | _ => exact h

/-- What every statement keeps, every call keeps, whichever of its statements fail. -/
theorem UserCall.serve_inv {P : UserDB coll → Prop} (hP : ∀ op db, P db → P (UserOp.exec op db).2)
    (fails : UserOp → Bool) (c : UserCall) (h : P db) : P (c.serve sha fails db).2 := by
  refine (c.service sha).uses_true.run_inv (I := P) ?_ h
  intro op db _ hdb
  rw [UserOp.faulty_snd]
  split
  · exact hdb
  · exact hP op db hdb

/-- A user who has an account is found, under an id that is no error value. -/
theorem getUserId_run {u : Text} (h : HasAccount u db) (hI : IdsIssued db) :
    (UserCall.getUserId u).serve sha (fun _ => false) db =
      (.ok (UserRepository.getUserId u db), db) := by
  obtain ⟨r, hr, hru⟩ := h
  have hid : UserRepository.getUserId u db = r.id := by
    rw [UserRepository.getUserId, Table.find?_eq_some.2 ⟨hr, hru⟩]
  have hne : UserRepository.getUserId u db ≠ -1 := by
    have := hI.pos r hr
    omega
  simp only [UserCall.serve, UserCall.service, UserService.getUserId, Prog.call_bind, Prog.run_call,
    UserOp.faulty, Machine.failing, Bool.false_eq_true, if_false, UserOp.exec, Prog.ret_bind, hne]
  rfl

/-- An id that is found is that of an account, whichever statements fail. -/
theorem getUserId_ok {fails : UserOp → Bool} {u : Text} {id : ℤ}
    (h : ((UserCall.getUserId u).serve sha fails db).1 = .ok id) :
    ∃ r ∈ db.users, r.id = id ∧ coll r.username = coll u := by
  have hid : id ≠ -1 ∧ (UserOp.faulty fails (.getUserId u) db).1 = id := by
    simp only [UserCall.serve, UserCall.service, UserService.getUserId, Prog.call_bind, Prog.run_call,
      Prog.ret_bind] at h
    split at h
    · cases h
    · next hne =>
      cases h
      exact ⟨hne, rfl⟩
  obtain ⟨hne, hid⟩ := hid
  cases hf : fails (.getUserId u) with
  | true =>
    rw [UserOp.faulty, Machine.failing_of_true _ _ hf] at hid
    exact absurd hid.symm hne
  | false =>
    rw [UserOp.faulty, Machine.failing_of_false _ _ hf] at hid
    cases hr : db.users.find? (coll u) with
    | none =>
      simp only [UserOp.exec, UserRepository.getUserId, hr] at hid
      exact absurd hid.symm hne
    | some r =>
      simp only [UserOp.exec, UserRepository.getUserId, hr] at hid
      obtain ⟨hmem, hname⟩ := Table.find?_eq_some.1 hr
      exact ⟨r, hmem, hid, hname⟩

end Accounts

end TicketIST
