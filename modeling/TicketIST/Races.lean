import TicketIST.Lib.Threads
import TicketIST.Runs

/-!
# Calls that race

The server runs one thread for each connection, so calls interleave between their statements.  Three
guarantees depend on a value read by one statement and acted on by a later one.  None of them holds
in every interleaving; each holds in the interleavings in which the value is still right when it is
acted on:

* a seat is not sold twice, if every purchase that deletes a listing finds it (`sold_le_inserted`);
* a code is admitted once, if every validation that sets a row in use finds it unused
  (`entries_le_one`);
* nobody owns more than six tickets, if every purchase that passes the count leaves room for the
  purchases of the same buyer that have passed it before (`owned_le_six`).
-/

namespace TicketIST

open TicketIST.Lib TicketOp

variable {ι : Type} [DecidableEq ι] [Fintype ι] {sha : Text → Text}

def start (sha : Text → Text) (calls : ι → Call) (db : TicketDB) :
    Config ι TicketSig Exn Reply TicketDB :=
  ⟨fun i => (calls i).prog sha, db⟩

/-! ### No double sale -/

section Sale

variable {T : ℤ}

def gotTicket : TicketProg Reply → Bool
  | .ret (.ticket _) => true
  | _ => false

/-- How many purchases of `T` have returned a ticket. -/
def sales (calls : ι → Call) (T : ℤ) (c : Config ι TicketSig Exn Reply TicketDB) : ℕ :=
  c.count fun i p => (calls i).seat? = some T && gotTicket p

def inserts (T : ℤ) : Firing ι TicketSig → Bool
  | ⟨_, .addTicketInfo ti, ok⟩ => ti.ticketID = T && ok
  | _ => false

def deletes (T : ℤ) (e : Firing ι TicketSig) : Bool := e.op = makeTicketUnavailable T

def listings (T : ℤ) (db : TicketDB) : ℕ := db.ticketInfo.rows.countP fun ti => ti.ticketID = T

/-- A purchase about to delete the listing of `T` finds it. -/
def FindsListing (T : ℤ) (_ : List (Firing ι TicketSig)) (c : Config ι TicketSig Exn Reply TicketDB)
    (i : ι) : Prop :=
  (c.pool i).next = some (makeTicketUnavailable T) → 0 < listings T c.st

instance : ∀ tr c i, Decidable (FindsListing T tr c (i : ι)) := fun _ c i =>
  inferInstanceAs (Decidable
    ((c.pool i).next = some (makeTicketUnavailable T) → 0 < listings T c.st))

theorem buyTicket_requires (T e u : ℤ) (env : Env) : (TicketService.buyTicket sha T e u env).Requires
    (· = makeTicketUnavailable T) fun _ => True := by
  rw [Buy.buyTicket_eq]
  refine .inr fun n => ?_
  dsimp only
  split
  · trivial
  · refine .inr fun r => ?_
    dsimp only
    split
    · trivial
    · split
      · trivial
      · exact .inl rfl

theorem listings_makeTicketUnavailable (T : ℤ) (db : TicketDB) :
    listings T (exec (makeTicketUnavailable T) db).2 = 0 := by
  refine List.countP_eq_zero.2 ?_
  intro x hx
  have hne := (Table.mem_delete.1 (Table.mem_def.2 hx)).2
  simpa using hne

omit [DecidableEq ι] [Fintype ι] in
/-- A step that deletes the listing had one to delete, and a listing comes from an insertion. -/
theorem listings_step (op : TicketOp) (db : TicketDB) (i : ι) (hd : op = makeTicketUnavailable T →
    0 < listings T db) :
    (if deletes T (⟨i, op, (exec op db).1⟩ : Firing ι TicketSig) then 1 else 0) +
      listings T (exec op db).2 ≤
    (if inserts T (⟨i, op, (exec op db).1⟩ : Firing ι TicketSig) then 1 else 0) +
      listings T db := by
  by_cases hop : op = makeTicketUnavailable T
  · subst hop
    rw [listings_makeTicketUnavailable]
    simpa [deletes, inserts, Nat.succ_le_iff] using hd rfl
  · have hdel : deletes T (⟨i, op, (exec op db).1⟩ : Firing ι TicketSig) = false :=
      decide_eq_false hop
    rw [hdel]
    simp only [Bool.false_eq_true, if_false, Nat.zero_add]
    rcases exec_ticketInfo op db with ⟨T', rfl⟩ | ⟨ti, rfl⟩ | hsame
    · exact (List.Sublist.countP_le List.filter_sublist).trans (Nat.le_add_left _ _)
    · cases hi : db.ticketInfo.insert ti with
      | none =>
        have : exec (addTicketInfo ti) db = (false, db) := by
          simp only [exec, TicketRepository.addTicketInfo, hi]
        rw [this]
        exact Nat.le_add_left _ _
      | some tk =>
        have : exec (addTicketInfo ti) db = (true, { db with ticketInfo := tk }) :=
          TicketRepository.addTicketInfo_some hi
        rw [this]
        simp only [listings, Table.insert_rows hi, List.countP_append, List.countP_singleton,
          inserts, Bool.and_true]
        omega
    · rw [listings, hsame]
      exact Nat.le_add_left _ _

section Pool

variable {calls : ι → Call} {db : TicketDB} {tr : List (Firing ι TicketSig)}
  {c : Config ι TicketSig Exn Reply TicketDB}

omit [Fintype ι] in
/-- Every deletion takes a listing that was there at the start or was inserted. -/
theorem deletes_le_inserted (run : Runs exec (FindsListing T) (start sha calls db) tr c) :
    tr.countP (deletes T) + listings T c.st ≤ listings T db + tr.countP (inserts T) := by
  refine run.inv (I := fun tr c => tr.countP (deletes T) + listings T c.st ≤
    listings T db + tr.countP (inserts T)) (by simp [start]) ?_
  intro tr c i op k hI hp ha
  have hfinds : op = makeTicketUnavailable T → 0 < listings T c.st := by
    intro hop
    exact ha (by rw [hp, Prog.next_call, hop])
  have hstep := listings_step op c.st i hfinds
  simp only [List.countP_append, List.countP_singleton, Config.fire]
  omega

/-- Every purchase that returned a ticket deleted a listing. -/
theorem sales_le_deletes {allowed}
    (run : Runs exec allowed (start sha calls db) tr c) : sales calls T c ≤ tr.countP (deletes T) := by
  refine count_le_countP ?_
  intro i hi
  obtain ⟨hseat, hgot⟩ := Bool.and_eq_true_iff.1 hi
  obtain ⟨r, hr⟩ : ∃ r, c.pool i = .ret r := by
    cases hp : c.pool i with
    | ret r => exact ⟨r, rfl⟩
    | throw x => rw [hp] at hgot; cases hgot
    | call op k => rw [hp] at hgot; cases hgot
  have hreq : ((start sha calls db).pool i).Requires (· = makeTicketUnavailable T)
      fun _ => True := by
    cases hc : calls i with
    | buyTicket T' e u env =>
      rw [hc] at hseat
      obtain rfl : T' = T := Option.some.inj (of_decide_eq_true hseat)
      simp only [start, hc, Call.prog]
      exact (buyTicket_requires T' e u env).map
    | _ => rw [hc] at hseat; simp [Call.seat?] at hseat
  obtain ⟨e, he, hi, hop⟩ := run.requires hreq hr trivial
  exact ⟨e, he, hi, decide_eq_true hop⟩

/-- **No double sale**, where every purchase that deletes the listing finds it. -/
theorem sold_le_inserted (run : Runs exec (FindsListing T) (start sha calls db) tr c) :
    sales calls T c ≤ listings T db + tr.countP (inserts T) := by
  have hsales := sales_le_deletes (T := T) run
  have hdeletes := deletes_le_inserted run
  omega

end Pool

def rivals : Bool → Call
  | false => .buyTicket 7 1 5 (drawing 0)
  | true => .buyTicket 7 1 6 (drawing 1)

/-- Both read the listing before either deletes it, and both get a ticket. -/
theorem sold_twice : ∃ tr c,
    Runs exec Anyhow (start sha256 rivals ⟨twoSeats, .empty, .empty⟩) tr c ∧
    listings 7 ⟨twoSeats, .empty, .empty⟩ + tr.countP (inserts 7) = 1 ∧ sales rivals 7 c = 2 :=
  ⟨_, _, Runs.nil.replay (admits_anyhow exec [false, false, true, true, false, false,
      false, true, true, true] [] _),
    by decide +kernel, by decide +kernel⟩

/-- One after the other, the second is told that the seat is gone. -/
theorem sold_in_turn : ∃ tr c,
    Runs exec (FindsListing 7) (start sha256 rivals ⟨twoSeats, .empty, .empty⟩) tr c ∧
    sales rivals 7 c ≤ listings 7 ⟨twoSeats, .empty, .empty⟩ + tr.countP (inserts 7) := by
  have run := Runs.nil.replay (by decide +kernel : Admits exec (FindsListing 7)
    [false, false, false, false, false, true, true] []
    (start sha256 rivals ⟨twoSeats, .empty, .empty⟩))
  exact ⟨_, _, run, sold_le_inserted run⟩

end Sale

/-! ### A code opens the gate once -/

section Gate

variable {code : Text}

def gotIn : TicketProg Reply → Bool
  | .ret (.checked true _) => true
  | _ => false

def gates (sha : Text → Text) (codes : ι → Text) (db : TicketDB) :
    Config ι TicketSig Exn Reply TicketDB :=
  start sha (fun i => .validateTicket (codes i)) db

def Call.validates (code : Text) : Call → Bool
  | .validateTicket c => c = code
  | _ => false

/-- How many validations of `code` have admitted. -/
def entries (calls : ι → Call) (code : Text) (c : Config ι TicketSig Exn Reply TicketDB) : ℕ :=
  c.count fun i p => (calls i).validates code && gotIn p

def marks (h : Text) (e : Firing ι TicketSig) : Bool := e.op = setTicketInUse h

/-- A gate about to set the row in use finds it unused. -/
def FindsUnused (h : Text) (_ : List (Firing ι TicketSig)) (c : Config ι TicketSig Exn Reply TicketDB)
    (i : ι) : Prop :=
  (c.pool i).next = some (setTicketInUse h) →
    ∃ r ∈ c.st.ticket.rows, r.validationCode = h ∧ r.used = false

instance : ∀ tr c i, Decidable (FindsUnused code tr c (i : ι)) := fun _ c i =>
  inferInstanceAs (Decidable ((c.pool i).next = some (setTicketInUse code) →
    ∃ r ∈ c.st.ticket.rows, r.validationCode = code ∧ r.used = false))

theorem validateTicket_requires (c : Text) : (TicketService.validateTicket sha c).Requires
    (· = setTicketInUse (sha c)) fun r => r.1 = true := by
  rw [Validate.validateTicket_eq]
  refine .inr fun r => ?_
  rcases r with _ | ⟨info, _ | _⟩
  · exact Bool.false_ne_true
  · exact .inl rfl
  · exact Bool.false_ne_true

theorem validateTicket_uses (c : Text) : (TicketService.validateTicket sha c).Uses fun op =>
    op = existsTicketWithValidationCode (sha c) ∨ op = setTicketInUse (sha c) := by
  rw [Validate.validateTicket_eq]
  refine ⟨.inl rfl, fun r => ?_⟩
  rcases r with _ | ⟨info, _ | _⟩
  · trivial
  · exact ⟨.inr rfl, fun _ => trivial⟩
  · trivial

/-- The row of `h` was set in use at most once, and has been in use since. -/
structure MarkedOnce (h : Text) (tr : List (Firing ι TicketSig)) (db : TicketDB) : Prop where
  once : tr.countP (marks h) ≤ 1
  used : 0 < tr.countP (marks h) → ∀ r ∈ db.ticket, r.validationCode = h → r.used = true

section Marks

variable {h : Text} {tr : List (Firing ι TicketSig)} {db : TicketDB}

omit [DecidableEq ι] [Fintype ι] in
/-- A step that does not set the row in use, and clears no flag of it. -/
theorem MarkedOnce.skip (hI : MarkedOnce h tr db) {e : Firing ι TicketSig} (hm : marks h e = false)
    {db' : TicketDB} (hdb : (∀ r ∈ db.ticket, r.validationCode = h → r.used = true) →
      ∀ r ∈ db'.ticket, r.validationCode = h → r.used = true) : MarkedOnce h (tr ++ [e]) db' := by
  have hcount : (tr ++ [e]).countP (marks h) = tr.countP (marks h) := by
    simp [List.countP_append, hm]
  constructor
  · rw [hcount]
    exact hI.once
  · intro hpos
    rw [hcount] at hpos
    exact hdb (hI.used hpos)

omit [DecidableEq ι] [Fintype ι] in
/-- Setting the row in use where it is found unused: it has not been set before. -/
theorem MarkedOnce.set (hI : MarkedOnce h tr db) {r : TicketRow} (hr : r ∈ db.ticket)
    (hc : r.validationCode = h) (hu : r.used = false) (i : ι) :
    MarkedOnce h (tr ++ [⟨i, setTicketInUse h, ()⟩]) (exec (setTicketInUse h) db).2 := by
  have hzero : tr.countP (marks h) = 0 := by
    by_contra hne
    rw [hI.used (Nat.pos_of_ne_zero hne) r hr hc] at hu
    cases hu
  have hm : marks h (⟨i, setTicketInUse h, ()⟩ : Firing ι TicketSig) = true := decide_eq_true rfl
  constructor
  · rw [List.countP_append, List.countP_singleton, hm, hzero]
    exact Nat.le_refl 1
  · intro _ r hr
    exact TicketRepository.used_of_setTicketInUse (.inr rfl) hr

end Marks

omit [Fintype ι] in
theorem marks_le_one {codes : ι → Text} {db : TicketDB} {tr : List (Firing ι TicketSig)}
    {c : Config ι TicketSig Exn Reply TicketDB} {h : Text}
    (run : Runs exec (FindsUnused h) (gates sha codes db) tr c) : tr.countP (marks h) ≤ 1 := by
  have hI : MarkedOnce h tr c.st := by
    refine run.inv_of_uses (fun i => (validateTicket_uses (codes i)).map)
      (I := fun tr c => MarkedOnce h tr c.st) ?_ ?_
    · exact ⟨Nat.zero_le 1, fun hpos => absurd hpos (Nat.lt_irrefl 0)⟩
    · rintro tr c i op k hI hp (rfl | rfl) ha
      · -- the query changes nothing
        exact hI.skip rfl fun hused => hused
      · by_cases hh : sha (codes i) = h
        · obtain ⟨r, hr, hc, hu⟩ := ha (by rw [hp, Prog.next_call, hh])
          subst hh
          exact hI.set hr hc hu i
        · have hm : marks h (⟨i, setTicketInUse (sha (codes i)), ()⟩ : Firing ι TicketSig) =
              false := by
            refine decide_eq_false fun heq => hh ?_
            cases heq
            rfl
          refine hI.skip hm ?_
          intro hused r hr
          exact TicketRepository.used_of_setTicketInUse (.inl hused) hr
  exact hI.once

/-- Every validation that admitted set the row of its code in use. -/
theorem entries_le_marks {calls : ι → Call} {db : TicketDB} {tr : List (Firing ι TicketSig)}
    {c : Config ι TicketSig Exn Reply TicketDB} {allowed}
    (run : Runs exec allowed (start sha calls db) tr c) :
    entries calls code c ≤ tr.countP (marks (sha code)) := by
  refine count_le_countP ?_
  intro i hi
  obtain ⟨hcode, hin⟩ := Bool.and_eq_true_iff.1 hi
  obtain ⟨info, hr⟩ : ∃ info, c.pool i = .ret (.checked true info) := by
    rcases hp : c.pool i with (l | t | ⟨_ | _, info⟩ | ok) | x | op
    case ret.checked.true => exact ⟨info, rfl⟩
    all_goals rw [hp] at hin; cases hin
  have hreq : ((start sha calls db).pool i).Requires (· = setTicketInUse (sha code))
      fun r => ∃ info, r = .checked true info := by
    cases hcall : calls i with
    | validateTicket code' =>
      rw [hcall] at hcode
      obtain rfl : code' = code := of_decide_eq_true hcode
      simp only [start, hcall, Call.prog]
      refine ((validateTicket_requires code').mono ?_).map
      rintro ⟨ok, info⟩ ⟨info', h⟩
      cases h
      rfl
    | _ =>
      rw [hcall] at hcode
      cases hcode
  obtain ⟨e, he, hi, hop⟩ := run.requires hreq hr ⟨info, rfl⟩
  exact ⟨e, he, hi, decide_eq_true hop⟩

/-- **A code opens the gate once**, where every gate that sets a row in use finds it unused. -/
theorem entries_le_one {codes : ι → Text} {db : TicketDB} {tr : List (Firing ι TicketSig)}
    {c : Config ι TicketSig Exn Reply TicketDB}
    (run : Runs exec (FindsUnused (sha code)) (gates sha codes db) tr c) :
    entries (fun i => .validateTicket (codes i)) code c ≤ 1 :=
  (entries_le_marks run).trans (marks_le_one run)

def twoGates : Config Bool TicketSig Exn Reply TicketDB :=
  gates sha256 (fun _ => codeA) (after purchase).2

/-- Both find the row unused before either sets it in use, and both admit. -/
theorem entered_twice : ∃ tr c, Runs exec Anyhow twoGates tr c ∧
    entries (fun _ => .validateTicket codeA) codeA c = 2 :=
  ⟨_, _, Runs.nil.replay (admits_anyhow exec [false, true, false, true] [] _), by decide +kernel⟩

/-- One after the other, the second refuses. -/
theorem entered_in_turn : ∃ tr c,
    Runs exec (FindsUnused (sha256 codeA)) twoGates tr c ∧
    entries (fun _ => .validateTicket codeA) codeA c ≤ 1 := by
  have run := Runs.nil.replay (by decide +kernel :
    Admits exec (FindsUnused (sha256 codeA)) [false, false, true, true] [] twoGates)
  exact ⟨_, _, run, entries_le_one run⟩

end Gate

/-! ### Six tickets -/

section Limit

variable {calls : ι → Call} {u : ℤ}

/-- The operations of a purchase that has passed the count and has not inserted its row. -/
def inWindow : Option TicketOp → Bool
  | some (getTicketInfoById _) => true
  | some (makeTicketUnavailable _) => true
  | some (addNewTicket ..) => true
  | _ => false

/-- How many purchases of `u` have passed the count and not inserted their row. -/
def pending (calls : ι → Call) (u : ℤ) (c : Config ι TicketSig Exn Reply TicketDB) : ℕ :=
  c.count fun i p => (calls i).buyer? = some u && inWindow p.next

/-- A purchase about to pass the count of its buyer's rows leaves room for the purchases of the same
buyer that have passed it before. -/
def LeavesRoom (calls : ι → Call) (_ : List (Firing ι TicketSig))
    (c : Config ι TicketSig Exn Reply TicketDB) (i : ι) : Prop :=
  match (c.pool i).next with
  | some (getNrOfTicketsOwned u) => TicketRepository.getNrOfTicketsOwned u c.st < 6 →
      TicketRepository.getNrOfTicketsOwned u c.st + pending calls u c < 6
  | _ => True

instance : ∀ tr c i, Decidable (LeavesRoom calls tr c (i : ι)) := fun _ c i => by
  unfold LeavesRoom
  split <;> infer_instance

/-- A step of a purchase either counts, and goes on only below six; or it gives its buyer a row only
by leaving the window. -/
theorem Buy.Stage.window_step {T e u : ℤ} {env : Env} {op : TicketOp}
    {k : op.Ret → TicketProg Ticket} (h : Buy.Stage sha T e u env (.call op k)) (db : TicketDB) :
    op = getNrOfTicketsOwned u ∧ (inWindow (k (exec op db).1).next = true →
      TicketRepository.getNrOfTicketsOwned u db < 6) ∨
    TicketRepository.getNrOfTicketsOwned u (exec op db).2 +
        (if inWindow (k (exec op db).1).next then 1 else 0) ≤
      TicketRepository.getNrOfTicketsOwned u db + if inWindow (some op) then 1 else 0 := by
  have hone : ∀ o, (if inWindow o then 1 else 0) ≤ 1 := by
    intro o
    split <;> omega
  cases h with
  | count =>
    refine .inl ⟨rfl, ?_⟩
    intro hw
    dsimp only at hw
    split at hw
    · cases hw
    · next hlt => exact Nat.not_le.1 hlt
  | find => exact .inr (Nat.add_le_add (owned_exec_le fun _ _ _ => nofun) (hone _))
  | delete => exact .inr (Nat.add_le_add (owned_exec_le fun _ _ _ => nofun) (hone _))
  | insert ti hT =>
    have hrow := @owned_addNewTicket u db (sha (issued ti u env).validationCode)
      (sha (issued ti u env).serialize) (issued ti u env).seat u
    rw [if_pos rfl] at hrow
    refine .inr ?_
    dsimp only
    split <;> exact hrow
  | resell ti hT =>
    refine .inr (Nat.add_le_add (owned_exec_le fun _ _ _ => nofun) ?_)
    dsimp only
    split <;> exact Nat.le_refl _
  | old => exact .inr (Nat.add_le_add (owned_exec_le fun _ _ _ => nofun) (Nat.le_refl _))
  | unlist => exact .inr (Nat.add_le_add (owned_exec_le fun _ _ _ => nofun) (Nat.le_refl _))
  | retire => exact .inr (Nat.add_le_add (owned_exec_le fun _ _ _ => nofun) (Nat.le_refl _))

/-- A step of a call that is no purchase of `u` gives `u` no row. -/
theorem owned_exec_le_of_other {call : Call} {op : TicketOp} {k : op.Ret → TicketProg Reply}
    {db : TicketDB} (hu : call.buyer? ≠ some u) (hA : AtStage sha call (.call op k)) :
    TicketRepository.getNrOfTicketsOwned u (exec op db).2 ≤
      TicketRepository.getNrOfTicketsOwned u db := by
  refine owned_exec_le fun hv ht i hop => hu ?_
  subst hop
  obtain ⟨T, e, env, rfl⟩ := hA.of_insert rfl
  rfl

theorem pending_fire_of_ne {c : Config ι TicketSig Exn Reply TicketDB} {i : ι} {op : TicketOp}
    {k : op.Ret → TicketProg Reply} (h : (calls i).buyer? ≠ some u) :
    pending calls u (c.fire exec i op k) = pending calls u c := by
  have hcount := count_fire (M := exec)
    (fun i (p : TicketProg Reply) => (calls i).buyer? = some u && inWindow p.next) c i op k
  simpa only [h, pending, decide_false, Bool.false_and, Bool.false_eq_true, if_false,
    Nat.add_zero] using hcount

theorem pending_fire {c : Config ι TicketSig Exn Reply TicketDB} {i : ι} {op : TicketOp}
    {k : op.Ret → TicketProg Reply} (h : (calls i).buyer? = some u) (hp : c.pool i = .call op k) :
    pending calls u (c.fire exec i op k) + (if inWindow (some op) then 1 else 0) =
      pending calls u c + if inWindow (k (exec op c.st).1).next then 1 else 0 := by
  have hcount := count_fire (M := exec)
    (fun i (p : TicketProg Reply) => (calls i).buyer? = some u && inWindow p.next) c i op k
  simpa only [h, hp, pending, decide_true, Bool.true_and, Prog.next_call] using hcount

/-- Nobody owns more than six tickets, the purchases that have passed the count included. -/
def WithinLimit (calls : ι → Call) (c : Config ι TicketSig Exn Reply TicketDB) : Prop :=
  ∀ u, TicketRepository.getNrOfTicketsOwned u c.st + pending calls u c ≤ 6

section Pool

variable {c : Config ι TicketSig Exn Reply TicketDB} {tr : List (Firing ι TicketSig)} {i : ι}
  {op : TicketOp} {k : op.Ret → TicketProg Reply}

/-- A step of a purchase of `u`. -/
theorem WithinLimit.step_own {T e : ℤ} {env : Env} (hI : WithinLimit calls c)
    (hp : c.pool i = .call op k) (hcall : calls i = .buyTicket T e u env)
    (hA : AtStage sha (calls i) (.call op k)) (ha : LeavesRoom calls tr c i) :
    TicketRepository.getNrOfTicketsOwned u (c.fire exec i op k).st +
      pending calls u (c.fire exec i op k) ≤ 6 := by
  have hIu := hI u
  have hcount := pending_fire (by rw [hcall]; rfl : (calls i).buyer? = some u) hp
  rw [hcall] at hA
  obtain ⟨q, hq, hs⟩ := hA
  obtain ⟨k', rfl, rfl⟩ := Prog.map_eq_call hq.symm
  rw [Prog.next_map] at hcount
  show TicketRepository.getNrOfTicketsOwned u (exec op c.st).2 + _ ≤ 6
  rcases hs.window_step c.st with ⟨rfl, hlt⟩ | hle
  · -- the count: the condition on the step speaks about this one
    have hroom : TicketRepository.getNrOfTicketsOwned u c.st < 6 →
        TicketRepository.getNrOfTicketsOwned u c.st + pending calls u c < 6 := by
      unfold LeavesRoom at ha
      rw [hp] at ha
      exact ha
    show TicketRepository.getNrOfTicketsOwned u c.st + _ ≤ 6
    split at hcount
    · cases ‹inWindow _ = true›
    · split at hcount
      · have := hroom (hlt ‹_›)
        omega
      · omega
  · omega

/-- A step of a call that is no purchase of `u`. -/
theorem WithinLimit.step_other (hI : WithinLimit calls c) (hu : (calls i).buyer? ≠ some u)
    (hA : AtStage sha (calls i) (.call op k)) :
    TicketRepository.getNrOfTicketsOwned u (c.fire exec i op k).st +
      pending calls u (c.fire exec i op k) ≤ 6 := by
  have hIu := hI u
  have hown : TicketRepository.getNrOfTicketsOwned u (exec op c.st).2 ≤
      TicketRepository.getNrOfTicketsOwned u c.st := owned_exec_le_of_other hu hA
  rw [pending_fire_of_ne hu]
  show TicketRepository.getNrOfTicketsOwned u (exec op c.st).2 + _ ≤ 6
  omega

/-- **The step lemma.** -/
theorem WithinLimit.step (hI : WithinLimit calls c) (hp : c.pool i = .call op k)
    (hA : AtStage sha (calls i) (.call op k)) (ha : LeavesRoom calls tr c i) :
    WithinLimit calls (c.fire exec i op k) := by
  intro u
  by_cases hu : (calls i).buyer? = some u
  · cases hcall : calls i with
    | buyTicket T e u' env =>
      rw [hcall] at hu
      obtain rfl : u' = u := Option.some.inj hu
      exact hI.step_own hp hcall hA ha
    | _ => rw [hcall] at hu; simp [Call.buyer?] at hu
  · exact hI.step_other hu hA

omit [DecidableEq ι] in
/-- At the start no purchase has passed the count. -/
theorem WithinLimit.init {db : TicketDB} (h₀ : ∀ u, TicketRepository.getNrOfTicketsOwned u db ≤ 6) :
    WithinLimit calls (start sha calls db) := by
  intro u
  have hzero : pending calls u (start sha calls db) = 0 := by
    refine count_eq_zero ?_
    intro i
    dsimp only [start]
    cases calls i with
    | buyTicket T e u' env => exact Bool.and_false _
    | _ => rfl
  exact hzero ▸ h₀ u

/-- **Six tickets**, where every purchase that passes the count leaves room for the others. -/
theorem owned_le_six {db : TicketDB} (h₀ : ∀ u, TicketRepository.getNrOfTicketsOwned u db ≤ 6)
    (run : Runs exec (LeavesRoom calls) (start sha calls db) tr c) (u : ℤ) :
    TicketRepository.getNrOfTicketsOwned u c.st ≤ 6 := by
  have hI : WithinLimit calls c := by
    refine run.inv_threads (A := fun i => AtStage sha (calls i)) (I := fun _ c => WithinLimit calls c)
      (fun i => atStage_prog (calls i)) (fun _ _ _ s h => h.step s) (.init h₀) ?_
    intro tr c i op k hI hp hA ha
    exact hI.step hp hA ha
  have hIu := hI u
  omega

end Pool

def fiveOwned : TicketDB :=
  ⟨twoSeats, ⟨(List.range 5).map fun n =>
    { validationCode := 'c' :: showInt n, ticketHash := 'h' :: showInt n, info := "1A".toList,
      ownerId := 5 }, by decide +kernel⟩, .empty⟩

def hoarder : Bool → Call
  | false => .buyTicket 7 1 5 (drawing 0)
  | true => .buyTicket 8 1 5 (drawing 1)

theorem fiveOwned_le (u : ℤ) : TicketRepository.getNrOfTicketsOwned u fiveOwned ≤ 6 :=
  (List.length_filter_le _ _).trans (by decide)

/-- Both purchases count five rows before either inserts its own. -/
theorem seven_owned : ∃ tr c, Runs exec Anyhow (start sha256 hoarder fiveOwned) tr c ∧
    (∀ i, (c.pool i).next = none) ∧ TicketRepository.getNrOfTicketsOwned 5 c.st = 7 :=
  ⟨_, _, Runs.nil.replay (admits_anyhow exec [false, true, false, false, false, false,
      true, true, true, true] [] _), by decide +kernel, by decide +kernel⟩

/-- One after the other, the second is refused. -/
theorem six_owned : ∃ tr c, Runs exec (LeavesRoom hoarder) (start sha256 hoarder fiveOwned) tr c ∧
    TicketRepository.getNrOfTicketsOwned 5 c.st ≤ 6 := by
  have run := Runs.nil.replay (by decide +kernel : Admits exec (LeavesRoom hoarder)
    [false, false, false, false, false, true] [] (start sha256 hoarder fiveOwned))
  exact ⟨_, _, run, owned_le_six fiveOwned_le run 5⟩

end Limit

end TicketIST
