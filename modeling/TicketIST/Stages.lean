import TicketIST.TicketService

/-!
# What is left of a call

Between two statements a call is a program again: the part that is still to run.  A purchase has
eight such stages and a listing three; each is named here after the statement it starts with, and
`buyTicket_eq` and `sellTicket_eq` say that the service functions are their first stages.

Two kinds of results use them.  A call served alone is computed stage by stage, on a store whose
statements may fail (`Buy.run_*`, `Sell.run_*`).  And among other threads a call is always at one of
its stages (`AtStage`, `Sell.Stage`), which is what an invariant of all interleavings speaks about.
-/

namespace TicketIST

open TicketIST.Lib TicketOp

variable (sha : Text → Text)

/-! ### The stages of a purchase -/

namespace Buy

variable (T e u : ℤ) (env : Env)

def retire (t : Ticket) (h : Text) : TicketProg Ticket :=
  .call (removeTicket h) fun _ => .ret t

def unlist (t : Ticket) (h : Text) : TicketProg Ticket :=
  .call (removeTicketFromResell t.ticketID) fun _ => retire t h

def old (t : Ticket) : TicketProg Ticket :=
  .call (getOldTicketValCodeHash t.ticketID) fun h => unlist t h

def resell (t : Ticket) : TicketProg Ticket :=
  .call (isTicketInResell t.ticketID) fun b => if b then old t else .ret t

def insert (t : Ticket) : TicketProg Ticket :=
  .call (addNewTicket (sha t.validationCode) (sha t.serialize) t.seat u) fun b =>
    if !b then .throw (.invalidArgument "Something went wrong. Please try again.") else resell t

def delete (t : Ticket) : TicketProg Ticket :=
  .call (makeTicketUnavailable T) fun b =>
    if !b then .throw (.invalidArgument
      "Ticket is no longer available. Please revise available tickets.")
    else insert sha u t

def find : TicketProg Ticket :=
  .call (getTicketInfoById T) fun r => match r with
    | none => .throw (.invalidArgument "Ticket not found. Please revise available tickets.")
    | some ti =>
      if ti.eventID ≠ e then
        .throw (.invalidArgument "Ticket not found. Please revise available tickets.")
      else delete sha T u (issued ti u env)

def count : TicketProg Ticket :=
  .call (getNrOfTicketsOwned u) fun n =>
    if n ≥ 6 then .throw (.invalidArgument "You already own 6 tickets. You cannot buy more.")
    else find sha T e u env

theorem buyTicket_eq : TicketService.buyTicket sha T e u env = count sha T e u env := rfl

/-- The programs that can be left of a purchase of `T`. -/
inductive Stage : TicketProg Ticket → Prop
  | count : Stage (count sha T e u env)
  | find : Stage (find sha T e u env)
  | delete (ti : TicketInfo) (h : ti.ticketID = T) : Stage (delete sha T u (issued ti u env))
  | insert (ti : TicketInfo) (h : ti.ticketID = T) : Stage (insert sha u (issued ti u env))
  | resell (ti : TicketInfo) (h : ti.ticketID = T) : Stage (resell (issued ti u env))
  | old (ti : TicketInfo) (h : ti.ticketID = T) : Stage (old (issued ti u env))
  | unlist (ti : TicketInfo) (h : ti.ticketID = T) (x : Text) : Stage (unlist (issued ti u env) x)
  | retire (ti : TicketInfo) (h : ti.ticketID = T) (x : Text) : Stage (retire (issued ti u env) x)
  | done (ti : TicketInfo) (h : ti.ticketID = T) : Stage (.ret (issued ti u env))
  | refused (x : Exn) : Stage (.throw x)

end Buy

/-! ### The stages of a listing -/

namespace Sell

def record (t : Ticket) : TicketProg Bool :=
  .call (addTicketToResell (sha t.validationCode) t.ticketID) fun b =>
    if !b then .throw (.invalidArgument "Process Failed") else .ret true

def list (t : Ticket) (newPrice : Double) : TicketProg Bool :=
  .call (addTicketInfo (listing t newPrice)) fun b =>
    if !b then .throw (.invalidArgument "Process Failed") else record sha t

def check (t : Ticket) (newPrice : Double) : TicketProg Bool :=
  .call (getTicketHashByValidationCode (sha t.validationCode)) fun r => match r with
    | none => .throw (.invalidArgument "Ticket not found. Please revise the validation code.")
    | some trueHashTicket =>
      if trueHashTicket ≠ sha t.serialize then
        .throw (.invalidArgument "Ticket integrity compromised. Please revise the ticket.")
      else if newPrice.lt .zero || t.price.lt newPrice then
        .throw (.invalidArgument
          "Invalid price. Please provide a price greater than 0 and the current price.")
      else list sha t newPrice

theorem sellTicket_eq (ticket : Text) (newPrice : Double) :
    TicketService.sellTicket sha ticket newPrice = match Ticket.deserialize ticket with
      | .error x => .throw x
      | .ok (wellFormed, t) =>
        if !wellFormed then .throw (.invalidArgument "Invalid ticket format.")
        else check sha t newPrice := by
  unfold TicketService.sellTicket
  rcases Ticket.deserialize ticket with x | ⟨_ | _, t⟩
  · rfl
  · rfl
  · refine congrArg (Prog.call _) (funext fun r => ?_)
    cases r with
    | none => rfl
    | some th => rfl

/-- The programs that can be left of a listing of `t`. -/
inductive Stage (t : Ticket) (newPrice : Double) : TicketProg Bool → Prop
  | check : Stage t newPrice (check sha t newPrice)
  | list : Stage t newPrice (list sha t newPrice)
  | record : Stage t newPrice (record sha t)
  | done : Stage t newPrice (.ret true)
  | refused (x : Exn) : Stage t newPrice (.throw x)

end Sell

/-! ### The stages of a validation -/

namespace Validate

def mark (c info : Text) : TicketProg (Bool × Text) :=
  .call (setTicketInUse (sha c)) fun _ => .ret (true, info)

def look (c : Text) : TicketProg (Bool × Text) :=
  .call (existsTicketWithValidationCode (sha c)) fun r => match r with
    | some (info, used) =>
      if used then .ret (false, "Ticket is already in use.".toList) else mark sha c info
    | none => .ret (false, "Ticket not found. Please revise the validation code.".toList)

theorem validateTicket_eq (c : Text) : TicketService.validateTicket sha c = look sha c :=
  congrArg (Prog.call _) <| funext fun r => by rcases r with _ | ⟨info, _ | _⟩ <;> rfl

/-- The programs that can be left of a validation. -/
inductive Stage (c : Text) : TicketProg (Bool × Text) → Prop
  | look : Stage c (look sha c)
  | mark (info : Text) : Stage c (mark sha c info)
  | done (r : Bool × Text) : Stage c (.ret r)

end Validate

variable {sha}

theorem Buy.Stage.step {T e u : ℤ} {env : Env} {op : TicketOp} {k : op.Ret → TicketProg Ticket}
    (h : Buy.Stage sha T e u env (.call op k)) (db : TicketDB) :
    Buy.Stage sha T e u env (k (exec op db).1) := by
  cases h with
  | count => dsimp only; split <;> constructor
  | find =>
    dsimp only
    split
    · constructor
    · next ti hti =>
      have hT : ti.ticketID = T := (Table.find?_eq_some.1 hti).2
      split
      · constructor
      · exact .delete ti hT
  | delete ti hT => dsimp only; split; exacts [.refused _, .insert ti hT]
  | insert ti hT => dsimp only; split; exacts [.refused _, .resell ti hT]
  | resell ti hT => dsimp only; split; exacts [.old ti hT, .done ti hT]
  | old ti hT => exact .unlist ti hT _
  | unlist ti hT x => exact .retire ti hT x
  | retire ti hT x => exact .done ti hT

theorem Sell.Stage.step {t : Ticket} {newPrice : Double} {op : TicketOp}
    {k : op.Ret → TicketProg Bool} (h : Sell.Stage sha t newPrice (.call op k)) (r : op.Ret) :
    Sell.Stage sha t newPrice (k r) := by
  cases h with
  | check => dsimp only; (repeat' split) <;> constructor
  | list => dsimp only; split <;> constructor
  | record => dsimp only; split <;> constructor

theorem Validate.Stage.step {c : Text} {op : TicketOp} {k : op.Ret → TicketProg (Bool × Text)}
    (h : Validate.Stage sha c (.call op k)) (r : op.Ret) : Validate.Stage sha c (k r) := by
  cases h with
  | look =>
    dsimp only
    split
    · split
      · exact .done _
      · exact .mark _
    · exact .done _
  | mark info => exact .done _

/-! ### Where a thread is in its call -/

/-- The statements that a listing, a check or a query may send. -/
def Call.MaySend : Call → TicketOp → Prop
  | .getAllAvailableTicketsByEventId _, .getAllTicketsFromEventId _ => True
  | .checkIntegrity .., .getTicketHashByValidationCode _ => True
  | .sellTicket .., .getTicketHashByValidationCode _ => True
  | .sellTicket .., .addTicketInfo _ => True
  | .sellTicket .., .addTicketToResell .. => True
  | _, _ => False

/-- Where a thread is in its call: a purchase or a validation at one of its stages, another call before a
statement that it may send. -/
def AtStage (sha : Text → Text) : Call → TicketProg Reply → Prop
  | .buyTicket T e u env, p => ∃ q, p = Reply.ticket <$> q ∧ Buy.Stage sha T e u env q
  | .validateTicket c, p =>
    ∃ q, p = (fun r => Reply.checked r.1 r.2) <$> q ∧ Validate.Stage sha c q
  | c, p => p.Uses c.MaySend

theorem checkIntegrity_uses (c ic : Text) :
    (TicketService.checkIntegrity sha c ic).Uses (Call.checkIntegrity c ic).MaySend := by
  refine Prog.Uses.bind ⟨trivial, fun _ => trivial⟩ ?_
  intro r
  cases r with
  | none => trivial
  | some h =>
    refine Prog.Uses.bind ?_ ?_
    · cases TicketService.integrityCode h <;> trivial
    · intro real
      split <;> trivial

theorem sellTicket_uses (data : Text) (newPrice : Double) :
    (TicketService.sellTicket sha data newPrice).Uses (Call.sellTicket data newPrice).MaySend := by
  rw [Sell.sellTicket_eq]
  split
  · trivial
  · split
    · trivial
    · refine ⟨trivial, fun r => ?_⟩
      cases r with
      | none => trivial
      | some h =>
        dsimp only
        split
        · trivial
        · split
          · trivial
          · refine ⟨trivial, fun b => ?_⟩
            cases b
            · trivial
            · refine ⟨trivial, fun b => ?_⟩
              cases b <;> trivial

theorem atStage_prog (c : Call) : AtStage sha c (c.prog sha) := by
  cases c with
  | getAllAvailableTicketsByEventId e => exact ⟨trivial, fun _ => trivial⟩
  | buyTicket T e u env => exact ⟨_, rfl, .count⟩
  | validateTicket c => exact ⟨_, congrArg (_ <$> ·) (Validate.validateTicket_eq sha c), .look⟩
  | checkIntegrity c ic => exact (checkIntegrity_uses c ic).map
  | sellTicket data p => exact (sellTicket_uses data p).map

theorem AtStage.step {c : Call} {op : TicketOp} {k : op.Ret → TicketProg Reply}
    (h : AtStage sha c (.call op k)) (db : TicketDB) : AtStage sha c (k (exec op db).1) := by
  cases c with
  | buyTicket T e u env =>
    obtain ⟨q, hq, hs⟩ := h
    obtain ⟨k', rfl, rfl⟩ := Prog.map_eq_call hq.symm
    exact ⟨_, rfl, hs.step db⟩
  | validateTicket c =>
    obtain ⟨q, hq, hs⟩ := h
    obtain ⟨k', rfl, rfl⟩ := Prog.map_eq_call hq.symm
    exact ⟨_, rfl, hs.step _⟩
  | _ => exact h.2 _

section Next

variable {c : Call} {p : TicketProg Reply} (h : AtStage sha c p)

include h

/-- Only a purchase deletes a listing. -/
theorem AtStage.of_delete {T : ℤ} (hp : p.next = some (makeTicketUnavailable T)) :
    ∃ T' e u env q, c = .buyTicket T' e u env ∧ p = Reply.ticket <$> q ∧
      Buy.Stage sha T' e u env q := by
  cases c with
  | buyTicket T' e u env =>
    obtain ⟨q, rfl, hs⟩ := h
    exact ⟨T', e, u, env, q, rfl, rfl, hs⟩
  | validateTicket c =>
    obtain ⟨q, rfl, hs⟩ := h
    rw [Prog.next_map] at hp
    cases hs <;> cases hp
  | _ => exact (Prog.Uses.of_next h hp).elim

/-- Only a validation sets a row in use. -/
theorem AtStage.of_mark {x : Text} (hp : p.next = some (setTicketInUse x)) :
    ∃ x' q, c = .validateTicket x' ∧ p = (fun r => Reply.checked r.1 r.2) <$> q ∧
      Validate.Stage sha x' q := by
  cases c with
  | buyTicket T' e u env =>
    obtain ⟨q, rfl, hs⟩ := h
    rw [Prog.next_map] at hp
    cases hs <;> cases hp
  | validateTicket c =>
    obtain ⟨q, rfl, hs⟩ := h
    exact ⟨c, q, rfl, rfl, hs⟩
  | _ => exact (Prog.Uses.of_next h hp).elim

/-- Only a purchase inserts a row, and its buyer owns it. -/
theorem AtStage.of_insert {hv ht i : Text} {u : ℤ} (hp : p.next = some (addNewTicket hv ht i u)) :
    ∃ T e env, c = .buyTicket T e u env := by
  cases c with
  | buyTicket T e u' env =>
    obtain ⟨q, rfl, hs⟩ := h
    rw [Prog.next_map] at hp
    cases hs <;> cases hp
    exact ⟨T, e, env, rfl⟩
  | validateTicket c =>
    obtain ⟨q, rfl, hs⟩ := h
    rw [Prog.next_map] at hp
    cases hs <;> cases hp
  | _ => exact (Prog.Uses.of_next h hp).elim

end Next

/-! ### A call served alone -/

def faulty (fails : TicketOp → Bool) : Machine TicketSig TicketDB :=
  Machine.failing exec errorValue fails

variable {fails : TicketOp → Bool} {db : TicketDB} {op : TicketOp}

theorem faulty_of_true (h : fails op = true) (db : TicketDB) :
    faulty fails op db = (errorValue op, db) := Machine.failing_of_true _ _ h db

theorem faulty_of_false (h : fails op = false) (db : TicketDB) :
    faulty fails op db = exec op db := Machine.failing_of_false _ _ h db

theorem faulty_snd (op : TicketOp) (db : TicketDB) :
    (faulty fails op db).2 = if fails op then db else (exec op db).2 := by
  cases hf : fails op with
  | true => rw [faulty_of_true hf]; rfl
  | false => rw [faulty_of_false hf]; rfl

theorem faulty_never : faulty (fun _ => false) = exec := rfl

namespace Buy

variable {T e u : ℤ} {env : Env} {t : Ticket}

/-- The purchase gets as far as its first write, with the listing `ti` in hand. -/
structure Reaches (fails : TicketOp → Bool) (db : TicketDB) (T e u : ℤ) (ti : TicketInfo) :
    Prop where
  count : fails (getNrOfTicketsOwned u) = false → TicketRepository.getNrOfTicketsOwned u db < 6
  find : fails (getTicketInfoById T) = false
  found : TicketRepository.getTicketInfoById T db = some ti
  event : ti.eventID = e
  delete : fails (makeTicketUnavailable T) = false

theorem Reaches.listed {ti : TicketInfo} (h : Reaches fails db T e u ti) :
    ti ∈ db.ticketInfo ∧ ti.ticketID = T := Table.find?_eq_some.1 h.found

theorem run_count (hc : fails (getNrOfTicketsOwned u) = false →
    TicketRepository.getNrOfTicketsOwned u db < 6) :
    (count sha T e u env).run (faulty fails) db = (find sha T e u env).run (faulty fails) db := by
  rw [count, Prog.run_call]
  cases hf : fails (getNrOfTicketsOwned u) with
  | true => simp [faulty_of_true hf, errorValue]
  | false => simp [faulty_of_false hf, exec, Nat.not_le.2 (hc hf)]

/-- A purchase that gets to its first write goes on to the second. -/
theorem run_of_reaches {ti : TicketInfo} (h : Reaches fails db T e u ti) :
    (TicketService.buyTicket sha T e u env).run (faulty fails) db =
      (insert sha u (issued ti u env)).run (faulty fails)
        (TicketRepository.makeTicketUnavailable T db).2 := by
  rw [buyTicket_eq, run_count h.count, find, Prog.run_call, faulty_of_false h.find]
  simp only [exec, h.found, h.event, ne_eq, not_true_eq_false, if_false]
  rw [delete, Prog.run_call, faulty_of_false h.delete]
  rfl

/-- A purchase that does not get to its first write leaves the store as it was. -/
theorem run_of_not_reaches (h : ∀ ti, ¬Reaches fails db T e u ti) :
    ∃ x, (TicketService.buyTicket sha T e u env).run (faulty fails) db = (.error x, db) := by
  rw [buyTicket_eq]
  by_cases hc : fails (getNrOfTicketsOwned u) = false → TicketRepository.getNrOfTicketsOwned u db < 6
  · rw [run_count hc, find, Prog.run_call]
    cases hf : fails (getTicketInfoById T) with
    | true => exact ⟨_, by simp only [faulty_of_true hf, errorValue]; rfl⟩
    | false =>
      rw [faulty_of_false hf]
      cases hti : TicketRepository.getTicketInfoById T db with
      | none => exact ⟨_, by simp only [exec, hti]; rfl⟩
      | some ti =>
        by_cases he : ti.eventID = e
        · cases hd : fails (makeTicketUnavailable T) with
          | true =>
            refine ⟨.invalidArgument
              "Ticket is no longer available. Please revise available tickets.", ?_⟩
            simp only [exec, hti, he, ne_eq, not_true_eq_false, if_false]
            rw [delete, Prog.run_call, faulty_of_true hd]
            rfl
          | false => exact absurd ⟨hc, hf, hti, he, hd⟩ (h ti)
        · exact ⟨_, by simp only [exec, hti, he, ne_eq, not_false_eq_true, if_true]; rfl⟩
  · rw [Classical.not_imp] at hc
    rw [count, Prog.run_call, faulty_of_false hc.1]
    exact ⟨_, by simp only [exec, ge_iff_le, Nat.not_lt.1 hc.2, if_true]; rfl⟩

def row (sha : Text → Text) (u : ℤ) (t : Ticket) : TicketRow :=
  { validationCode := sha t.validationCode, ticketHash := sha t.serialize, info := t.seat,
    ownerId := u }

/-- A purchase whose row does not go in is refused, and what it did so far stays done. -/
theorem run_insert_refused (h : fails (addNewTicket (sha t.validationCode) (sha t.serialize) t.seat
    u) = true ∨ ∃ r ∈ db.ticket, r.validationCode = sha t.validationCode) :
    ∃ x, (insert sha u t).run (faulty fails) db = (.error x, db) := by
  refine ⟨.invalidArgument "Something went wrong. Please try again.", ?_⟩
  rw [insert, Prog.run_call]
  cases hf : fails (addNewTicket (sha t.validationCode) (sha t.serialize) t.seat u) with
  | true => rw [faulty_of_true hf]; rfl
  | false =>
    have hr := h.resolve_left (by rw [hf]; exact Bool.false_ne_true)
    rw [faulty_of_false hf, exec, TicketRepository.addNewTicket_none hr]
    rfl

theorem run_insert {tk : Table TicketRow Text TicketRow.validationCode}
    (hf : fails (addNewTicket (sha t.validationCode) (sha t.serialize) t.seat u) = false)
    (h : db.ticket.insert (row sha u t) = some tk) :
    (insert sha u t).run (faulty fails) db =
      (resell t).run (faulty fails) { db with ticket := tk } := by
  rw [insert, Prog.run_call, faulty_of_false hf, exec, TicketRepository.addNewTicket_some h]
  rfl

/-- What the last part of a purchase makes of the store: nothing, unless `T` was resold; else the
links of `T` go, and the row they lead to. -/
def retired (fails : TicketOp → Bool) (T : ℤ) (db : TicketDB) : TicketDB :=
  if (faulty fails (isTicketInResell T) db).1 then
    let h := (faulty fails (getOldTicketValCodeHash T) db).1
    (faulty fails (removeTicket h) (faulty fails (removeTicketFromResell T) db).2).2
  else db

theorem run_resell (t : Ticket) (db : TicketDB) :
    (resell t).run (faulty fails) db = (.ok t, retired fails t.ticketID db) := by
  have hdb : ∀ (op : TicketOp), (∀ db, (exec op db).2 = db) → (faulty fails op db).2 = db := by
    intro op hop
    cases hf : fails op with
    | true => rw [faulty_of_true hf]
    | false => rw [faulty_of_false hf, hop]
  rw [resell, Prog.run_call, retired, hdb _ fun _ => rfl]
  split
  · rw [old, Prog.run_call, hdb _ fun _ => rfl]
    rfl
  · rfl

def Resold (db : TicketDB) (T : ℤ) : Prop := ∃ x ∈ db.resellTickets, x.ticketId = T

theorem isTicketInResell_iff : TicketRepository.isTicketInResell T db = true ↔ Resold db T := by
  simp [TicketRepository.isTicketInResell, Table.first?_isSome, Resold]

theorem getOldTicketValCodeHash_eq {y : Text}
    (hy : ∀ x ∈ db.resellTickets, x.ticketId = T → x.hashValCode = y) (h : Resold db T) :
    TicketRepository.getOldTicketValCodeHash T db = y := by
  unfold TicketRepository.getOldTicketValCodeHash
  cases hf : db.resellTickets.first? fun r => r.ticketId = T with
  | none =>
    obtain ⟨x, hx, hT⟩ := h
    exact absurd hT (of_decide_eq_false (Table.first?_eq_none.1 hf x hx))
  | some x => exact hy x (Table.first?_some hf).1 (of_decide_eq_true (Table.first?_some hf).2)

theorem retired_of_not (h : fails (isTicketInResell T) = false → ¬Resold db T) :
    retired fails T db = db := by
  refine if_neg fun hb => ?_
  cases hf : fails (isTicketInResell T) with
  | true => rw [faulty_of_true hf] at hb; cases hb
  | false => rw [faulty_of_false hf] at hb; exact h hf (isTicketInResell_iff.1 hb)

theorem retired_of_resold (hf : fails (isTicketInResell T) = false) (h : Resold db T) :
    retired fails T db =
      (faulty fails (removeTicket (faulty fails (getOldTicketValCodeHash T) db).1)
        (faulty fails (removeTicketFromResell T) db).2).2 := by
  refine if_pos ?_
  rw [faulty_of_false hf]
  exact isTicketInResell_iff.2 h

/-! #### The tables after the last part of a purchase -/

section Faulty

variable {h : Text}

theorem removeTicket_ticketInfo :
    (faulty fails (removeTicket h) db).2.ticketInfo = db.ticketInfo := by
  rw [faulty_snd]; split <;> rfl

theorem removeTicket_resell :
    (faulty fails (removeTicket h) db).2.resellTickets = db.resellTickets := by
  rw [faulty_snd]; split <;> rfl

theorem mem_removeTicket {r : TicketRow} : r ∈ (faulty fails (removeTicket h) db).2.ticket ↔
    r ∈ db.ticket ∧ ¬(r.validationCode = h ∧ fails (removeTicket h) = false) := by
  rw [faulty_snd]
  split
  · next hf => simp [hf]
  · next hf => simp [hf, exec, TicketRepository.removeTicket]

theorem removeTicketFromResell_ticketInfo :
    (faulty fails (removeTicketFromResell T) db).2.ticketInfo = db.ticketInfo := by
  rw [faulty_snd]; split <;> rfl

theorem removeTicketFromResell_ticket :
    (faulty fails (removeTicketFromResell T) db).2.ticket = db.ticket := by
  rw [faulty_snd]; split <;> rfl

theorem mem_removeTicketFromResell {x : ResellRow} :
    x ∈ (faulty fails (removeTicketFromResell T) db).2.resellTickets ↔
      x ∈ db.resellTickets ∧ ¬(x.ticketId = T ∧ fails (removeTicketFromResell T) = false) := by
  rw [faulty_snd]
  split
  · next hf => simp [hf]
  · next hf => simp [hf, exec, TicketRepository.removeTicketFromResell]

end Faulty

theorem retired_ticketInfo : (retired fails T db).ticketInfo = db.ticketInfo := by
  unfold retired
  split
  · exact removeTicket_ticketInfo.trans removeTicketFromResell_ticketInfo
  · rfl

theorem mem_retired_resell {x : ResellRow} : x ∈ (retired fails T db).resellTickets ↔
    x ∈ db.resellTickets ∧ ¬(x.ticketId = T ∧ fails (isTicketInResell T) = false ∧
      fails (removeTicketFromResell T) = false) := by
  by_cases h : fails (isTicketInResell T) = false ∧ Resold db T
  · rw [retired_of_resold h.1 h.2, removeTicket_resell, mem_removeTicketFromResell]
    simp [h.1]
  · rw [not_and] at h
    rw [retired_of_not h, iff_self_and]
    rintro hx ⟨hT, hf, -⟩
    exact h hf ⟨x, hx, hT⟩

theorem mem_retired_ticket {r : TicketRow} {y : Text}
    (hy : ∀ x ∈ db.resellTickets, x.ticketId = T → x.hashValCode = y)
    (h₀ : fails (getOldTicketValCodeHash T) = true → ∀ r ∈ db.ticket, r.validationCode ≠ []) :
    r ∈ (retired fails T db).ticket ↔ r ∈ db.ticket ∧ ¬(r.validationCode = y ∧ Resold db T ∧
      fails (isTicketInResell T) = false ∧ fails (getOldTicketValCodeHash T) = false ∧
      fails (removeTicket y) = false) := by
  by_cases h : fails (isTicketInResell T) = false ∧ Resold db T
  · rw [retired_of_resold h.1 h.2, mem_removeTicket, removeTicketFromResell_ticket]
    cases hf : fails (getOldTicketValCodeHash T) with
    | true =>
      rw [faulty_of_true hf]
      refine and_congr_right fun hr => iff_of_true ?_ (by simp)
      exact fun hc => h₀ hf r hr hc.1
    | false =>
      rw [faulty_of_false hf, exec, getOldTicketValCodeHash_eq hy h.2]
      simp [h.1, h.2]
  · rw [not_and] at h
    rw [retired_of_not h, iff_self_and]
    rintro - ⟨-, hr, hf, -⟩
    exact h hf hr

theorem of_mem_retired {r : TicketRow} (hr : r ∈ (retired fails T db).ticket) : r ∈ db.ticket := by
  unfold retired at hr
  split at hr
  · have h := (mem_removeTicket.1 hr).1
    rwa [removeTicketFromResell_ticket] at h
  · exact hr

/-- The store once the purchase of `T` has made its first two writes. -/
def sold (db : TicketDB) (T : ℤ) (tk : Table TicketRow Text TicketRow.validationCode) : TicketDB :=
  { (TicketRepository.makeTicketUnavailable T db).2 with ticket := tk }

theorem mem_sold {tk} {x : TicketInfo} :
    x ∈ (sold db T tk).ticketInfo ↔ x ∈ db.ticketInfo ∧ x.ticketID ≠ T := by
  simp [sold, TicketRepository.makeTicketUnavailable]

/-- The rows after a purchase: the new one, and those from before but the one that the link led to. -/
theorem mem_ticket_of_buy {tr : TicketRow} {tk} (hi : db.ticket.insert tr = some tk) {y : Text}
    (hy : ∀ x ∈ db.resellTickets, x.ticketId = T → x.hashValCode = y)
    (h₀ : fails (getOldTicketValCodeHash T) = true → ∀ r ∈ tk, r.validationCode ≠ [])
    {r : TicketRow} : r ∈ (retired fails T (sold db T tk)).ticket ↔
      (r ∈ db.ticket ∨ r = tr) ∧ ¬(r.validationCode = y ∧ Resold db T ∧
        fails (isTicketInResell T) = false ∧ fails (getOldTicketValCodeHash T) = false ∧
        fails (removeTicket y) = false) := by
  have hy' : ∀ x ∈ (sold db T tk).resellTickets, x.ticketId = T → x.hashValCode = y := hy
  rw [mem_retired_ticket hy' h₀]
  exact and_congr_left fun _ => Table.mem_insert hi

theorem run_sold {ti : TicketInfo} (h : Reaches fails db T e u ti) {tk}
    (hf : fails (addNewTicket (sha (issued ti u env).validationCode)
      (sha (issued ti u env).serialize) (issued ti u env).seat u) = false)
    (hi : db.ticket.insert (row sha u (issued ti u env)) = some tk) :
    (TicketService.buyTicket sha T e u env).run (faulty fails) db =
      (.ok (issued ti u env), retired fails T (sold db T tk)) := by
  have hi' : (TicketRepository.makeTicketUnavailable T db).2.ticket.insert
      (row sha u (issued ti u env)) = some tk := hi
  rw [run_of_reaches h, run_insert hf hi', run_resell]
  exact congrArg (fun n => (_, retired fails n _)) h.listed.2

end Buy

namespace Sell

variable {t : Ticket} {newPrice : Double}

/-- The listing of `t` gets as far as its first write. -/
structure Reaches (sha : Text → Text) (fails : TicketOp → Bool) (db : TicketDB) (t : Ticket)
    (newPrice : Double) : Prop where
  check : fails (getTicketHashByValidationCode (sha t.validationCode)) = false
  found : TicketRepository.getTicketHashByValidationCode (sha t.validationCode) db =
    some (sha t.serialize)
  price : (newPrice.lt .zero || t.price.lt newPrice) = false

theorem Reaches.row (h : Reaches sha fails db t newPrice) :
    ∃ r ∈ db.ticket, r.validationCode = sha t.validationCode ∧ r.ticketHash = sha t.serialize := by
  obtain ⟨r, hr, hh⟩ := Option.map_eq_some_iff.1 h.found
  obtain ⟨hr, hc⟩ := Table.find?_eq_some.1 hr
  exact ⟨r, hr, hc, hh⟩

/-- A listing that gets to its first write makes it. -/
theorem run_of_reaches (h : Reaches sha fails db t newPrice) :
    (check sha t newPrice).run (faulty fails) db = (list sha t newPrice).run (faulty fails) db := by
  rw [check, Prog.run_call, faulty_of_false h.check]
  simp [exec, h.found, h.price]

/-- A listing of a ticket whose row has its hash gets to the check of the price. -/
theorem run_of_row {r : TicketRow} (hr : r ∈ db.ticket)
    (hc : r.validationCode = sha t.validationCode) (hh : r.ticketHash = sha t.serialize) :
    (check sha t newPrice).run exec db =
      if newPrice.lt .zero || t.price.lt newPrice then
        (.error (.invalidArgument
          "Invalid price. Please provide a price greater than 0 and the current price."), db)
      else (list sha t newPrice).run exec db := by
  have hfind : db.ticket.find? (sha t.validationCode) = some r := Table.find?_eq_some.2 ⟨hr, hc⟩
  rw [check, Prog.run_call]
  simp only [exec, TicketRepository.getTicketHashByValidationCode, hfind, Option.map_some, hh, ne_eq,
    not_true_eq_false, if_false]
  split <;> rfl

/-- A listing that does not get to its first write leaves the store as it was. -/
theorem run_of_not_reaches (h : ¬Reaches sha fails db t newPrice) :
    ∃ x, (check sha t newPrice).run (faulty fails) db = (.error x, db) := by
  rw [check, Prog.run_call]
  cases hf : fails (getTicketHashByValidationCode (sha t.validationCode)) with
  | true => exact ⟨_, by simp only [faulty_of_true hf, errorValue]; rfl⟩
  | false =>
    rw [faulty_of_false hf]
    cases hr : TicketRepository.getTicketHashByValidationCode (sha t.validationCode) db with
    | none => exact ⟨_, by simp only [exec, hr]; rfl⟩
    | some th =>
      by_cases hth : th = sha t.serialize
      · subst hth
        cases hp : (newPrice.lt .zero || t.price.lt newPrice) with
        | true => exact ⟨_, by simp only [exec, hr, ne_eq, not_true_eq_false, if_false]; rfl⟩
        | false => exact absurd ⟨hf, hr, hp⟩ h
      · exact ⟨_, by simp only [exec, hr, hth, ne_eq, not_false_eq_true, if_true]; rfl⟩

theorem run_list_refused (h : fails (addTicketInfo (listing t newPrice)) = true ∨
    ∃ ti ∈ db.ticketInfo, ti.ticketID = t.ticketID) :
    ∃ x, (list sha t newPrice).run (faulty fails) db = (.error x, db) := by
  refine ⟨.invalidArgument "Process Failed", ?_⟩
  rw [list, Prog.run_call]
  cases hf : fails (addTicketInfo (listing t newPrice)) with
  | true => rw [faulty_of_true hf]; rfl
  | false =>
    have hr := h.resolve_left (by rw [hf]; exact Bool.false_ne_true)
    rw [faulty_of_false hf, exec, TicketRepository.addTicketInfo_none hr]
    rfl

theorem run_list {tk : Table TicketInfo ℤ TicketInfo.ticketID}
    (hf : fails (addTicketInfo (listing t newPrice)) = false)
    (h : db.ticketInfo.insert (listing t newPrice) = some tk) :
    (list sha t newPrice).run (faulty fails) db =
      (record sha t).run (faulty fails) { db with ticketInfo := tk } := by
  rw [list, Prog.run_call, faulty_of_false hf, exec, TicketRepository.addTicketInfo_some h]
  rfl

/-- A listing that cannot be recorded as a resale is refused, and stays published. -/
theorem run_record_refused
    (h : fails (addTicketToResell (sha t.validationCode) t.ticketID) = true ∨
      ∃ r ∈ db.resellTickets, r.hashValCode = sha t.validationCode) :
    ∃ x, (record sha t).run (faulty fails) db = (.error x, db) := by
  refine ⟨.invalidArgument "Process Failed", ?_⟩
  rw [record, Prog.run_call]
  cases hf : fails (addTicketToResell (sha t.validationCode) t.ticketID) with
  | true => rw [faulty_of_true hf]; rfl
  | false =>
    have hr := h.resolve_left (by rw [hf]; exact Bool.false_ne_true)
    rw [faulty_of_false hf, exec, TicketRepository.addTicketToResell_none hr]
    rfl

theorem run_record {tk : Table ResellRow Text ResellRow.hashValCode}
    (hf : fails (addTicketToResell (sha t.validationCode) t.ticketID) = false)
    (h : db.resellTickets.insert { hashValCode := sha t.validationCode, ticketId := t.ticketID }
      = some tk) :
    (record sha t).run (faulty fails) db = (.ok true, { db with resellTickets := tk }) := by
  rw [record, Prog.run_call, faulty_of_false hf, exec, TicketRepository.addTicketToResell_some h]
  rfl

end Sell

namespace Validate

variable {c : Text}

/-- A code is admitted when its row is found unused; the row is then set in use. -/
theorem run_unused {r : TicketRow} (hr : r ∈ db.ticket) (hc : r.validationCode = sha c)
    (hu : r.used = false) (hf : fails (existsTicketWithValidationCode (sha c)) = false) :
    (TicketService.validateTicket sha c).run (faulty fails) db =
      (.ok (true, r.info), (faulty fails (setTicketInUse (sha c)) db).2) := by
  rw [validateTicket_eq, look, Prog.run_call, faulty_of_false hf, exec,
    TicketRepository.existsTicketWithValidationCode_some hr hc, hu]
  rfl

/-- Otherwise it is refused, and the store stays as it was. -/
theorem run_refused (h : fails (existsTicketWithValidationCode (sha c)) = false →
    ∀ r ∈ db.ticket, r.validationCode = sha c → r.used = true) :
    ∃ info, (TicketService.validateTicket sha c).run (faulty fails) db =
      (.ok (false, info), db) := by
  rw [validateTicket_eq, look, Prog.run_call]
  cases hf : fails (existsTicketWithValidationCode (sha c)) with
  | true => rw [faulty_of_true hf]; exact ⟨_, rfl⟩
  | false =>
    rw [faulty_of_false hf, exec]
    by_cases hn : ∃ r ∈ db.ticket, r.validationCode = sha c
    · obtain ⟨r, hr, hc⟩ := hn
      rw [TicketRepository.existsTicketWithValidationCode_some hr hc, h hf r hr hc]
      exact ⟨_, rfl⟩
    · rw [TicketRepository.existsTicketWithValidationCode_none fun r hr hc => hn ⟨r, hr, hc⟩]
      exact ⟨_, rfl⟩

theorem run_cases (sha : Text → Text) (fails : TicketOp → Bool) (c : Text) (db : TicketDB) :
    (fails (existsTicketWithValidationCode (sha c)) = false ∧
      ∃ r ∈ db.ticket, r.validationCode = sha c ∧ r.used = false ∧
        (TicketService.validateTicket sha c).run (faulty fails) db =
          (.ok (true, r.info), (faulty fails (setTicketInUse (sha c)) db).2)) ∨
      ∃ info, (TicketService.validateTicket sha c).run (faulty fails) db =
        (.ok (false, info), db) := by
  by_cases h : fails (existsTicketWithValidationCode (sha c)) = false ∧
      ∃ r ∈ db.ticket, r.validationCode = sha c ∧ r.used = false
  · obtain ⟨hf, r, hr, hc, hu⟩ := h
    exact .inl ⟨hf, r, hr, hc, hu, run_unused hr hc hu hf⟩
  · refine .inr (run_refused fun hf r hr hc => ?_)
    by_contra hu
    exact h ⟨hf, r, hr, hc, eq_false_of_ne_true hu⟩

end Validate

theorem checkIntegrity_run (sha : Text → Text) (c ic : Text) (db : TicketDB) :
    ∃ o, (TicketService.checkIntegrity sha c ic).run (faulty fails) db = (o, db) := by
  have hdb : (faulty fails (getTicketHashByValidationCode (sha c)) db).2 = db := by
    rw [faulty_snd]; split <;> rfl
  unfold TicketService.checkIntegrity
  rw [Prog.call_bind, Prog.run_call, hdb]
  dsimp only [Prog.ret_bind]
  split
  · exact ⟨_, rfl⟩
  · next h _ =>
    cases TicketService.integrityCode h with
    | error x => exact ⟨_, rfl⟩
    | ok real =>
      rw [Prog.ofExcept_ok, Prog.ret_bind]
      split <;> exact ⟨_, rfl⟩

/-- The integrity code that is accepted is the one of the hash in the row. -/
theorem checkIntegrity_of_row {c real : Text} {r : TicketRow} (hr : r ∈ db.ticket)
    (hc : r.validationCode = sha c) (hreal : TicketService.integrityCode r.ticketHash = .ok real) :
    (TicketService.checkIntegrity sha c real).run exec db =
      (.ok (true, "Integrity check successful.".toList), db) := by
  have hfind : db.ticket.find? (sha c) = some r := Table.find?_eq_some.2 ⟨hr, hc⟩
  unfold TicketService.checkIntegrity
  rw [Prog.call_bind, Prog.run_call, exec, TicketRepository.getTicketHashByValidationCode, hfind]
  simp only [Option.map_some, Prog.ret_bind, hreal, Prog.ofExcept_ok, if_true]
  rfl

theorem checkIntegrity_of_no_row {c : Text} (h : ∀ r ∈ db.ticket, r.validationCode ≠ sha c)
    (ic : Text) : (TicketService.checkIntegrity sha c ic).run exec db =
      (.ok (false, "Ticket not found. Please revise the validation code.".toList), db) := by
  unfold TicketService.checkIntegrity
  rw [Prog.call_bind, Prog.run_call, exec, TicketRepository.getTicketHashByValidationCode,
    Table.find?_eq_none.2 h]
  rfl

end TicketIST
