import TicketIST.Lib.Prog
import TicketIST.Lib.Table
import TicketIST.Ticket

/-!
# The ticket tables and their repository

Three tables hold the tickets: `ticket_info` has the seats on offer, `ticket` one row for every valid
purchase, found by the hash of its validation code, and `resell_tickets` links the number of a ticket
that is back on offer to the code hash of the purchase it came from.

Each `TicketRepository` function sends one SQL statement.  `TicketOp` names the functions with their
arguments, `TicketOp.exec` is their effect on the tables, and `TicketOp.errorValue` is what the catch
block of each returns when the statement fails.

Row values are stored as they are given.  Code hashes are compared exactly: they are lower-case
hexadecimal, on which the collation of the columns is equality.
-/

namespace TicketIST

open TicketIST.Lib

structure TicketRow where
  validationCode : Text
  ticketHash : Text
  info : Text
  used : Bool := false
  ownerId : ℤ
  deriving DecidableEq

structure ResellRow where
  hashValCode : Text
  ticketId : ℤ
  deriving DecidableEq

/-- The ticket tables, with their primary keys. -/
structure TicketDB where
  ticketInfo : Table TicketInfo ℤ TicketInfo.ticketID
  ticket : Table TicketRow Text TicketRow.validationCode
  resellTickets : Table ResellRow Text ResellRow.hashValCode

/-! ### The repository functions -/

namespace TicketRepository

/-- `SELECT * FROM ticket_info WHERE eventID = ?` -/
def getAllTicketsFromEventId (eventID : ℤ) (db : TicketDB) : List TicketInfo :=
  db.ticketInfo.select fun r => r.eventID = eventID

/-- `SELECT * FROM ticket_info WHERE ticketID = ?` -/
def getTicketInfoById (ticketId : ℤ) (db : TicketDB) : Option TicketInfo :=
  db.ticketInfo.find? ticketId

/-- `INSERT INTO ticket (validation_code, ticket_hash, info, owner_id) VALUES (?, ?, ?, ?)` -/
def addNewTicket (hashValCode hashTicket info : Text) (userId : ℤ) (db : TicketDB) :
    Bool × TicketDB :=
  match db.ticket.insert
    { validationCode := hashValCode, ticketHash := hashTicket, info, ownerId := userId } with
  | some t => (true, { db with ticket := t })
  | none => (false, db)

/-- `DELETE FROM ticket_info WHERE ticketID = ?`.  The statement succeeds whether or not a row was
there. -/
def makeTicketUnavailable (ticketID : ℤ) (db : TicketDB) : Bool × TicketDB :=
  (true, { db with ticketInfo := db.ticketInfo.delete fun r => r.ticketID = ticketID })

/-- `SELECT info, used FROM ticket WHERE validation_code = ?`: the two columns, where the source
returns true and fills in its reference arguments. -/
def existsTicketWithValidationCode (validationCode : Text) (db : TicketDB) : Option (Text × Bool) :=
  (db.ticket.find? validationCode).map fun r => (r.info, r.used)

/-- `UPDATE ticket SET used = 1 WHERE validation_code = ?` -/
def setTicketInUse (validationCode : Text) (db : TicketDB) : TicketDB :=
  { db with
    ticket := db.ticket.update (fun r => r.validationCode = validationCode)
      (fun r => { r with used := true }) fun _ => rfl }

/-- `SELECT ticket_hash FROM ticket WHERE validation_code = ?` -/
def getTicketHashByValidationCode (validationCode : Text) (db : TicketDB) : Option Text :=
  (db.ticket.find? validationCode).map TicketRow.ticketHash

/-- `SELECT COUNT(*) FROM ticket WHERE owner_id = ?` -/
def getNrOfTicketsOwned (userId : ℤ) (db : TicketDB) : ℕ :=
  (db.ticket.select fun r => r.ownerId = userId).length

/-- `INSERT INTO ticket_info (ticketID, eventID, sellerID, price, seat) VALUES (?, ?, ?, ?, ?)` -/
def addTicketInfo (ticketInfo : TicketInfo) (db : TicketDB) : Bool × TicketDB :=
  match db.ticketInfo.insert ticketInfo with
  | some t => (true, { db with ticketInfo := t })
  | none => (false, db)

/-- `INSERT INTO resell_tickets (hash_val_code, ticket_Id) VALUES (?, ?)` -/
def addTicketToResell (hashTicket : Text) (ticketID : ℤ) (db : TicketDB) : Bool × TicketDB :=
  match db.resellTickets.insert { hashValCode := hashTicket, ticketId := ticketID } with
  | some t => (true, { db with resellTickets := t })
  | none => (false, db)

/-- `SELECT * FROM resell_tickets WHERE ticket_Id = ?` -/
def isTicketInResell (ticketID : ℤ) (db : TicketDB) : Bool :=
  (db.resellTickets.first? fun r => r.ticketId = ticketID).isSome

/-- `SELECT hash_val_code FROM resell_tickets WHERE ticket_Id = ?`, or the empty string. -/
def getOldTicketValCodeHash (ticketID : ℤ) (db : TicketDB) : Text :=
  match db.resellTickets.first? fun r => r.ticketId = ticketID with
  | some r => r.hashValCode
  | none => []

/-- `DELETE FROM resell_tickets WHERE ticket_Id = ?` -/
def removeTicketFromResell (ticketID : ℤ) (db : TicketDB) : TicketDB :=
  { db with resellTickets := db.resellTickets.delete fun r => r.ticketId = ticketID }

/-- `DELETE FROM ticket WHERE validation_code = ?` -/
def removeTicket (hashValCode : Text) (db : TicketDB) : TicketDB :=
  { db with ticket := db.ticket.delete fun r => r.validationCode = hashValCode }

/-! ### What a statement finds, and when an `INSERT` goes in -/

variable {db : TicketDB}

theorem existsTicketWithValidationCode_some {r : TicketRow} (hr : r ∈ db.ticket) {h : Text}
    (hh : r.validationCode = h) :
    existsTicketWithValidationCode h db = some (r.info, r.used) := by
  rw [existsTicketWithValidationCode, Table.find?_eq_some.2 ⟨hr, hh⟩]
  rfl

theorem existsTicketWithValidationCode_none {h : Text}
    (hn : ∀ r ∈ db.ticket, r.validationCode ≠ h) : existsTicketWithValidationCode h db = none := by
  rw [existsTicketWithValidationCode, Table.find?_eq_none.2 hn]
  rfl

theorem addNewTicket_some {h th i : Text} {u : ℤ} {tk}
    (hi : db.ticket.insert { validationCode := h, ticketHash := th, info := i, ownerId := u }
      = some tk) : addNewTicket h th i u db = (true, { db with ticket := tk }) := by
  rw [addNewTicket, hi]

theorem addNewTicket_none {h th i : Text} {u : ℤ} (hr : ∃ r ∈ db.ticket, r.validationCode = h) :
    addNewTicket h th i u db = (false, db) := by
  rw [addNewTicket, Table.insert_eq_none.2 hr]

theorem addTicketInfo_some {ti : TicketInfo} {tk} (hi : db.ticketInfo.insert ti = some tk) :
    addTicketInfo ti db = (true, { db with ticketInfo := tk }) := by
  rw [addTicketInfo, hi]

theorem addTicketInfo_none {ti : TicketInfo}
    (hr : ∃ r ∈ db.ticketInfo, r.ticketID = ti.ticketID) : addTicketInfo ti db = (false, db) := by
  rw [addTicketInfo, Table.insert_eq_none.2 hr]

theorem addTicketToResell_some {h : Text} {T : ℤ} {tk}
    (hi : db.resellTickets.insert { hashValCode := h, ticketId := T } = some tk) :
    addTicketToResell h T db = (true, { db with resellTickets := tk }) := by
  rw [addTicketToResell, hi]

theorem addTicketToResell_none {h : Text} {T : ℤ}
    (hr : ∃ r ∈ db.resellTickets, r.hashValCode = h) : addTicketToResell h T db = (false, db) := by
  rw [addTicketToResell, Table.insert_eq_none.2 hr]

theorem mem_setTicketInUse {h : Text} {r : TicketRow} : r ∈ (setTicketInUse h db).ticket ↔
    ∃ r' ∈ db.ticket, (if r'.validationCode = h then { r' with used := true } else r') = r := by
  simp [setTicketInUse, Table.mem_update]

/-- Setting a row in use leaves no row of its code unused, and unsets none. -/
theorem used_of_setTicketInUse {x y : Text} {r : TicketRow}
    (hxy : (∀ r ∈ db.ticket, r.validationCode = y → r.used = true) ∨ y = x)
    (hr : r ∈ (setTicketInUse x db).ticket) (hc : r.validationCode = y) :
    r.used = true := by
  obtain ⟨r', hr', rfl⟩ := mem_setTicketInUse.1 hr
  by_cases hx : r'.validationCode = x
  · rw [if_pos hx]
  · rw [if_neg hx] at hc ⊢
    rcases hxy with hu | rfl
    · exact hu r' hr' hc
    · exact absurd hc hx

end TicketRepository

/-! ### Repository calls as atomic operations -/

inductive TicketOp
  | getAllTicketsFromEventId (eventID : ℤ)
  | getTicketInfoById (ticketId : ℤ)
  | addNewTicket (hashValCode hashTicket info : Text) (userId : ℤ)
  | makeTicketUnavailable (ticketID : ℤ)
  | existsTicketWithValidationCode (validationCode : Text)
  | setTicketInUse (validationCode : Text)
  | getTicketHashByValidationCode (validationCode : Text)
  | getNrOfTicketsOwned (userId : ℤ)
  | addTicketInfo (ticketInfo : TicketInfo)
  | addTicketToResell (hashTicket : Text) (ticketID : ℤ)
  | isTicketInResell (ticketID : ℤ)
  | getOldTicketValCodeHash (ticketID : ℤ)
  | removeTicketFromResell (ticketID : ℤ)
  | removeTicket (hashValCode : Text)
  deriving DecidableEq

namespace TicketOp

@[reducible] def Ret : TicketOp → Type
  | getAllTicketsFromEventId _ => List TicketInfo
  | getTicketInfoById _ => Option TicketInfo
  | addNewTicket .. => Bool
  | makeTicketUnavailable _ => Bool
  | existsTicketWithValidationCode _ => Option (Text × Bool)
  | setTicketInUse _ => Unit
  | getTicketHashByValidationCode _ => Option Text
  | getNrOfTicketsOwned _ => ℕ
  | addTicketInfo _ => Bool
  | addTicketToResell .. => Bool
  | isTicketInResell _ => Bool
  | getOldTicketValCodeHash _ => Text
  | removeTicketFromResell _ => Unit
  | removeTicket _ => Unit

end TicketOp

abbrev TicketSig : Sig := ⟨TicketOp, TicketOp.Ret⟩

def TicketOp.exec : Machine TicketSig TicketDB
  | .getAllTicketsFromEventId e, db => (TicketRepository.getAllTicketsFromEventId e db, db)
  | .getTicketInfoById t, db => (TicketRepository.getTicketInfoById t db, db)
  | .addNewTicket h th i u, db => TicketRepository.addNewTicket h th i u db
  | .makeTicketUnavailable t, db => TicketRepository.makeTicketUnavailable t db
  | .existsTicketWithValidationCode h, db =>
    (TicketRepository.existsTicketWithValidationCode h db, db)
  | .setTicketInUse h, db => ((), TicketRepository.setTicketInUse h db)
  | .getTicketHashByValidationCode h, db =>
    (TicketRepository.getTicketHashByValidationCode h db, db)
  | .getNrOfTicketsOwned u, db => (TicketRepository.getNrOfTicketsOwned u db, db)
  | .addTicketInfo i, db => TicketRepository.addTicketInfo i db
  | .addTicketToResell h t, db => TicketRepository.addTicketToResell h t db
  | .isTicketInResell t, db => (TicketRepository.isTicketInResell t db, db)
  | .getOldTicketValCodeHash t, db => (TicketRepository.getOldTicketValCodeHash t db, db)
  | .removeTicketFromResell t, db => ((), TicketRepository.removeTicketFromResell t db)
  | .removeTicket h, db => ((), TicketRepository.removeTicket h db)

/-- The calls that touch `ticket_info`. -/
theorem TicketOp.exec_ticketInfo (op : TicketOp) (db : TicketDB) :
    (∃ T, op = .makeTicketUnavailable T) ∨ (∃ ti, op = .addTicketInfo ti) ∨
      (op.exec db).2.ticketInfo = db.ticketInfo := by
  cases op with
  | makeTicketUnavailable T => exact .inl ⟨T, rfl⟩
  | addTicketInfo ti => exact .inr (.inl ⟨ti, rfl⟩)
  | addNewTicket =>
    refine .inr (.inr ?_)
    dsimp only [exec, TicketRepository.addNewTicket]
    split <;> rfl
  | addTicketToResell =>
    refine .inr (.inr ?_)
    dsimp only [exec, TicketRepository.addTicketToResell]
    split <;> rfl
  | _ => exact .inr (.inr rfl)

/-- The calls that touch `ticket`. -/
theorem TicketOp.exec_ticket (op : TicketOp) (db : TicketDB) :
    (∃ h th i u, op = .addNewTicket h th i u) ∨ (∃ h, op = .setTicketInUse h) ∨
      (∃ h, op = .removeTicket h) ∨ (op.exec db).2.ticket = db.ticket := by
  cases op with
  | addNewTicket h th i u => exact .inl ⟨h, th, i, u, rfl⟩
  | setTicketInUse h => exact .inr (.inl ⟨h, rfl⟩)
  | removeTicket h => exact .inr (.inr (.inl ⟨h, rfl⟩))
  | addTicketInfo =>
    refine .inr (.inr (.inr ?_))
    dsimp only [exec, TicketRepository.addTicketInfo]
    split <;> rfl
  | addTicketToResell =>
    refine .inr (.inr (.inr ?_))
    dsimp only [exec, TicketRepository.addTicketToResell]
    split <;> rfl
  | _ => exact .inr (.inr (.inr rfl))

section Owned

variable {u : ℤ} {db : TicketDB}

theorem TicketRepository.getNrOfTicketsOwned_eq : getNrOfTicketsOwned u db =
    db.ticket.rows.countP fun r => r.ownerId = u := List.countP_eq_length_filter.symm

theorem TicketOp.owned_addNewTicket (h th i : Text) (u' : ℤ) :
    TicketRepository.getNrOfTicketsOwned u (exec (.addNewTicket h th i u') db).2 ≤
      TicketRepository.getNrOfTicketsOwned u db + if u' = u then 1 else 0 := by
  rw [TicketRepository.getNrOfTicketsOwned_eq, TicketRepository.getNrOfTicketsOwned_eq]
  dsimp only [exec, TicketRepository.addNewTicket]
  split
  · next tk hi => simp [Table.insert_rows hi, List.countP_append, List.countP_singleton]
  · exact Nat.le_add_right _ _

theorem TicketOp.owned_exec_le {op : TicketOp} (h : ∀ hv ht i, op ≠ .addNewTicket hv ht i u) :
    TicketRepository.getNrOfTicketsOwned u (op.exec db).2 ≤
      TicketRepository.getNrOfTicketsOwned u db := by
  rcases op.exec_ticket db with ⟨hv, ht, i, u', rfl⟩ | ⟨hv, rfl⟩ | ⟨hv, rfl⟩ | hsame
  · have hu : u' ≠ u := fun hu => h hv ht i (by rw [hu])
    have hle := @owned_addNewTicket u db hv ht i u'
    rwa [if_neg hu, Nat.add_zero] at hle
  · rw [TicketRepository.getNrOfTicketsOwned_eq, TicketRepository.getNrOfTicketsOwned_eq]
    refine Nat.le_of_eq ?_
    simp only [exec, TicketRepository.setTicketInUse, Table.update, List.countP_map]
    refine List.countP_congr fun r _ => ?_
    dsimp only [Function.comp]
    split <;> rfl
  · rw [TicketRepository.getNrOfTicketsOwned_eq, TicketRepository.getNrOfTicketsOwned_eq]
    exact List.Sublist.countP_le List.filter_sublist
  · rw [TicketRepository.getNrOfTicketsOwned, hsame]
    exact Nat.le_refl _

end Owned

/-- What a call answers with when its statement fails: the value after the catch block. -/
def TicketOp.errorValue : (op : TicketOp) → op.Ret
  | .getAllTicketsFromEventId _ => []
  | .getTicketInfoById _ => none
  | .addNewTicket .. => false
  | .makeTicketUnavailable _ => false
  | .existsTicketWithValidationCode _ => none
  | .setTicketInUse _ => ()
  | .getTicketHashByValidationCode _ => none
  | .getNrOfTicketsOwned _ => 0
  | .addTicketInfo _ => false
  | .addTicketToResell .. => false
  | .isTicketInResell _ => false
  | .getOldTicketValCodeHash _ => []
  | .removeTicketFromResell _ => ()
  | .removeTicket _ => ()

end TicketIST
