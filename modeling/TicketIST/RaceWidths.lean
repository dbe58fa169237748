import TicketIST.Lib.Windows
import TicketIST.Races

/-!
# How far a race can go

A purchase reads the listing before it deletes it, and counts the buyer's rows before it inserts its own; a
validation reads the row before it sets it in use.  Other calls can come in between, and then a seat is
sold twice, a buyer owns seven tickets, a code admits two.  Here is by how much: if at most `k` calls are
at that point together, a listing is sold at most `k` times (`sales_le_width`), a code admits at most `k`
times for each time that its row went in (`admissions_le_width`), and a buyer who owns at most `5 + k` tickets
at the start never owns more (`owned_le_width`).
-/

namespace TicketIST

open TicketIST.Lib TicketOp

variable {ι : Type} [DecidableEq ι] [Fintype ι] {sha : Text → Text} {calls : ι → Call} {db : TicketDB}
  {tr : List (Firing ι TicketSig)} {c : Config ι TicketSig Exn Reply TicketDB} {k : ℕ}

/-! ### Sales of one listing -/

section Sale

variable {T : ℤ}

/-- The call is about to delete the listing of `T`. -/
def aboutToDelete (T : ℤ) (_ : ι) (p : TicketProg Reply) : Bool := p.next = some (makeTicketUnavailable T)

def listed (T : ℤ) (db : TicketDB) : Bool := db.ticketInfo.rows.any fun ti => ti.ticketID = T

theorem listed_toNat_le (T : ℤ) (db : TicketDB) : (listed T db).toNat ≤ listings T db := by
  cases hl : listed T db with
  | false => exact Nat.zero_le _
  | true =>
    obtain ⟨ti, hti, hT⟩ := List.any_eq_true.1 hl
    exact List.countP_pos_iff.2 ⟨ti, hti, hT⟩

/-- A purchase comes to the deletion from the listing that it found. -/
theorem Buy.Stage.listed_of_next {T' e u : ℤ} {env : Env} {op : TicketOp}
    {k : op.Ret → TicketProg Ticket} (h : Buy.Stage sha T' e u env (.call op k))
    (hnext : (k (exec op db).1).next = some (makeTicketUnavailable T)) : listed T db = true := by
  cases h with
  | find =>
    dsimp only at hnext
    split at hnext
    · cases hnext
    · next ti hti =>
      split at hnext
      · cases hnext
      · cases hnext
        obtain ⟨hmem, hT⟩ := Table.find?_eq_some.1 hti
        exact List.any_eq_true.2 ⟨ti, hmem, decide_eq_true hT⟩
  | count => dsimp only at hnext; split at hnext <;> cases hnext
  | delete => dsimp only at hnext; split at hnext <;> cases hnext
  | insert => dsimp only at hnext; split at hnext <;> cases hnext
  | resell => dsimp only at hnext; split at hnext <;> cases hnext
  | old | unlist | retire => cases hnext

theorem Buy.Stage.next_of_delete {T' e u : ℤ} {env : Env} {k : Bool → TicketProg Ticket}
    (h : Buy.Stage sha T' e u env (.call (makeTicketUnavailable T) k)) (b : Bool) :
    (k b).next ≠ some (makeTicketUnavailable T) := by
  cases h with
  | delete ti hT => cases b <;> exact nofun

omit [DecidableEq ι] [Fintype ι] in
theorem listed_of_exec {op : TicketOp} (hno : listed T db = false) (hyes : listed T (exec op db).2 = true)
    (i : ι) : inserts T ⟨i, op, (exec op db).1⟩ = true := by
  have hfalse : ∀ ti ∈ db.ticketInfo, ti.ticketID ≠ T := by
    intro ti hti hT
    rw [listed, List.any_eq_false] at hno
    exact hno ti hti (decide_eq_true hT)
  obtain ⟨ti, hti, hT⟩ := List.any_eq_true.1 hyes
  have hT : ti.ticketID = T := of_decide_eq_true hT
  rcases exec_ticketInfo op db with ⟨T', rfl⟩ | ⟨ti', rfl⟩ | hsame
  · exact absurd hT (hfalse ti (Table.mem_delete.1 (Table.mem_def.2 hti)).1)
  · cases hi : db.ticketInfo.insert ti' with
    | none =>
      have hex : exec (addTicketInfo ti') db = (false, db) := by
        simp only [exec, TicketRepository.addTicketInfo, hi]
      rw [hex] at hti
      exact absurd hT (hfalse ti hti)
    | some tk =>
      have hex : exec (addTicketInfo ti') db = (true, { db with ticketInfo := tk }) :=
        TicketRepository.addTicketInfo_some hi
      rw [hex] at hti ⊢
      rcases (Table.mem_insert hi).1 hti with hmem | rfl
      · exact absurd hT (hfalse ti hmem)
      · exact Bool.and_eq_true_iff.2 ⟨decide_eq_true hT, rfl⟩
  · rw [hsame] at hti
    exact absurd hT (hfalse ti hti)

omit [DecidableEq ι] [Fintype ι] in
/-- Between the lookup of a listing and its deletion a purchase is in its window. -/
theorem window_delete (calls : ι → Call) (T : ℤ) :
    Window exec (fun i => AtStage sha (calls i)) (aboutToDelete T) (listed T) (deletes T) (inserts T) where
  keep i op kont db h := h.step db
  enter i op kont db h _ hafter := by
    have hnext : (kont (exec op db).1).next = some (makeTicketUnavailable T) := of_decide_eq_true hafter
    obtain ⟨T', e, u, env, -, hcall, -, -⟩ := (h.step db).of_delete hnext
    rw [hcall] at h
    obtain ⟨q, hq, hs⟩ := h
    obtain ⟨k', rfl, rfl⟩ := Prog.map_eq_call hq.symm
    rw [Prog.next_map] at hnext
    exact hs.listed_of_next hnext
  act i op kont db h hact := by
    obtain rfl : op = makeTicketUnavailable T := of_decide_eq_true hact
    obtain ⟨T', e, u, env, q, -, hq, hs⟩ := h.of_delete rfl
    obtain ⟨k', rfl, rfl⟩ := Prog.map_eq_call hq.symm
    refine ⟨decide_eq_true rfl, decide_eq_false ?_, ?_⟩
    · rw [Prog.next_map]
      exact hs.next_of_delete _
    · have hnone := List.countP_eq_zero.1 (listings_makeTicketUnavailable T db)
      exact List.any_eq_false.2 hnone
  refill i op kont db _ hno hyes := listed_of_exec hno hyes i

omit [DecidableEq ι] [Fintype ι] in
theorem aboutToDelete_start (calls : ι → Call) (T : ℤ) (i : ι) :
    aboutToDelete T i ((calls i).prog sha) = false := by
  refine decide_eq_false fun hnext => ?_
  obtain ⟨T', e, u, env, -, hcall, -, -⟩ := (atStage_prog (calls i)).of_delete hnext
  rw [hcall] at hnext
  cases hnext

/-- **A listing is sold at most `k` times**, where at most `k` purchases of the seat are between their
lookup of the listing and its deletion together. -/
theorem sales_le_width {T : ℤ}
    (run : Runs exec (Narrow exec (aboutToDelete T) k) (start sha calls db) tr c) :
    sales calls T c ≤ k * (listings T db + tr.countP (inserts T)) := by
  have hwindow : Window exec (fun i => AtStage sha (calls i)) _ _ _ _ := window_delete calls T
  calc sales calls T c
      ≤ tr.countP (deletes T) := sales_le_deletes run
    _ ≤ k * ((listed T db).toNat + tr.countP (inserts T)) :=
      hwindow.acts_le (fun i => atStage_prog (calls i)) (aboutToDelete_start calls T) run
    _ ≤ k * (listings T db + tr.countP (inserts T)) :=
      Nat.mul_le_mul_left k (Nat.add_le_add_right (listed_toNat_le T db) _)

/-- Two purchases that both find the listing sell it twice, and no more. -/
theorem sales_of_rivals : ∃ tr c,
    Runs exec (Narrow exec (aboutToDelete 7) 2) (start sha256 rivals ⟨twoSeats, .empty, .empty⟩) tr c ∧
      sales rivals 7 c = 2 ∧
      sales rivals 7 c ≤ 2 * (listings 7 ⟨twoSeats, .empty, .empty⟩ + tr.countP (inserts 7)) := by
  have run := Runs.nil.replay (by decide +kernel : Admits exec (Narrow exec (aboutToDelete 7) 2)
    [false, false, true, true, false, false, false, true, true, true] []
    (start sha256 rivals ⟨twoSeats, .empty, .empty⟩))
  exact ⟨_, _, run, by decide +kernel, sales_le_width run⟩

end Sale

/-! ### Admissions by one code -/

section Gate

variable {code : Text}

/-- The call is about to set the row `h` in use. -/
def aboutToMark (h : Text) (_ : ι) (p : TicketProg Reply) : Bool := p.next = some (setTicketInUse h)

def unused (h : Text) (db : TicketDB) : Bool :=
  db.ticket.rows.any fun r => r.validationCode = h && !r.used

/-- A row of the hash `h` goes in. -/
def issues (h : Text) : Firing ι TicketSig → Bool
  | ⟨_, .addNewTicket hv _ _ _, ok⟩ => hv = h && ok
  | _ => false

omit [DecidableEq ι] [Fintype ι] in
theorem unused_of_mem {h : Text} {r : TicketRow} (hr : r ∈ db.ticket) (hc : r.validationCode = h)
    (hu : r.used = false) : unused h db = true :=
  List.any_eq_true.2 ⟨r, hr, by simp [hc, hu]⟩

omit [DecidableEq ι] [Fintype ι] in
theorem mem_of_unused {h : Text} (hyes : unused h db = true) :
    ∃ r ∈ db.ticket, r.validationCode = h ∧ r.used = false := by
  obtain ⟨r, hr, hrow⟩ := List.any_eq_true.1 hyes
  exact ⟨r, hr, by simpa using hrow⟩

omit [DecidableEq ι] [Fintype ι] in
/-- A validation comes to set a row in use from the row that it found unused. -/
theorem Validate.Stage.unused_of_next {code x : Text} {op : TicketOp}
    {kont : op.Ret → TicketProg (Bool × Text)} (h : Validate.Stage sha code (.call op kont))
    (hnext : (kont (exec op db).1).next = some (setTicketInUse x)) : unused x db = true := by
  cases h with
  | look =>
    dsimp only [exec, TicketRepository.existsTicketWithValidationCode] at hnext
    cases hr : db.ticket.find? (sha code) with
    | none =>
      rw [hr] at hnext
      cases hnext
    | some r =>
      rw [hr] at hnext
      obtain ⟨hmem, hc⟩ := Table.find?_eq_some.1 hr
      cases hu : r.used with
      | true =>
        simp only [Option.map_some, hu, if_true] at hnext
        cases hnext
      | false =>
        simp only [Option.map_some, hu, Bool.false_eq_true, if_false] at hnext
        cases hnext
        exact unused_of_mem hmem hc hu
  | mark => cases hnext

omit [DecidableEq ι] [Fintype ι] in
/-- A row is unused only after it went in. -/
theorem unused_of_exec {h : Text} {op : TicketOp} (hno : unused h db = false)
    (hyes : unused h (exec op db).2 = true) (i : ι) : issues h ⟨i, op, (exec op db).1⟩ = true := by
  have hfalse : ∀ r ∈ db.ticket, r.validationCode = h → r.used ≠ false := by
    intro r hr hc hu
    rw [unused_of_mem hr hc hu] at hno
    cases hno
  obtain ⟨r, hr, hc, hu⟩ := mem_of_unused hyes
  rcases exec_ticket op db with ⟨hv, ht, info, u, rfl⟩ | ⟨x, rfl⟩ | ⟨x, rfl⟩ | hsame
  · cases hi : db.ticket.insert { validationCode := hv, ticketHash := ht, info := info, ownerId := u } with
    | none =>
      have hex : exec (addNewTicket hv ht info u) db = (false, db) :=
        TicketRepository.addNewTicket_none (Table.insert_eq_none.1 hi)
      rw [hex] at hr
      exact absurd hu (hfalse r hr hc)
    | some tk =>
      have hex : exec (addNewTicket hv ht info u) db = (true, { db with ticket := tk }) :=
        TicketRepository.addNewTicket_some hi
      rw [hex] at hr ⊢
      rcases (Table.mem_insert hi).1 hr with hmem | rfl
      · exact absurd hu (hfalse r hmem hc)
      · exact Bool.and_eq_true_iff.2 ⟨decide_eq_true hc, rfl⟩
  · have hall : ∀ r ∈ db.ticket, r.validationCode = h → r.used = true :=
      fun r hr hc => Bool.of_not_eq_false (hfalse r hr hc)
    rw [TicketRepository.used_of_setTicketInUse (.inl hall) hr hc] at hu
    cases hu
  · exact absurd hu (hfalse r (Table.mem_delete.1 hr).1 hc)
  · rw [hsame] at hr
    exact absurd hu (hfalse r hr hc)

omit [DecidableEq ι] [Fintype ι] in
/-- Between reading a row and setting it in use a validation is in its window. -/
theorem window_mark (calls : ι → Call) (h : Text) :
    Window exec (fun i => AtStage sha (calls i)) (aboutToMark h) (unused h) (marks h) (issues h) where
  keep i op kont db hin := hin.step db
  enter i op kont db hin _ hafter := by
    have hnext : (kont (exec op db).1).next = some (setTicketInUse h) := of_decide_eq_true hafter
    obtain ⟨code, -, hcall, -, -⟩ := (hin.step db).of_mark hnext
    rw [hcall] at hin
    obtain ⟨q, hq, hs⟩ := hin
    obtain ⟨k', rfl, rfl⟩ := Prog.map_eq_call hq.symm
    rw [Prog.next_map] at hnext
    exact hs.unused_of_next hnext
  act i op kont db hin hact := by
    obtain rfl : op = setTicketInUse h := of_decide_eq_true hact
    obtain ⟨code, q, -, hq, hs⟩ := hin.of_mark rfl
    obtain ⟨k', rfl, rfl⟩ := Prog.map_eq_call hq.symm
    refine ⟨decide_eq_true rfl, decide_eq_false ?_, ?_⟩
    · cases hs
      exact nofun
    · by_contra hyes
      obtain ⟨r, hr, hc, hu⟩ := mem_of_unused (Bool.of_not_eq_false hyes)
      rw [TicketRepository.used_of_setTicketInUse (.inr rfl) hr hc] at hu
      cases hu
  refill i op kont db _ hno hyes := unused_of_exec hno hyes i

omit [DecidableEq ι] [Fintype ι] in
theorem aboutToMark_start (calls : ι → Call) (h : Text) (i : ι) :
    aboutToMark h i ((calls i).prog sha) = false := by
  refine decide_eq_false fun hnext => ?_
  obtain ⟨code, -, hcall, -, -⟩ := (atStage_prog (calls i)).of_mark hnext
  rw [hcall] at hnext
  cases hnext

/-- **A code admits at most `k` times** for each time that its row went in, where at most `k` validations
are between reading the row and setting it in use together. -/
theorem admissions_le_width
    (run : Runs exec (Narrow exec (aboutToMark (sha code)) k) (start sha calls db) tr c) :
    entries calls code c ≤ k * ((unused (sha code) db).toNat + tr.countP (issues (sha code))) := by
  have hwindow : Window exec (fun i => AtStage sha (calls i)) _ _ _ _ := window_mark calls (sha code)
  calc entries calls code c
      ≤ tr.countP (marks (sha code)) := entries_le_marks run
    _ ≤ k * ((unused (sha code) db).toNat + tr.countP (issues (sha code))) :=
      hwindow.acts_le (fun i => atStage_prog (calls i)) (aboutToMark_start calls (sha code)) run

/-- Two gates that both find the row unused admit twice, and no more. -/
theorem admissions_of_twoGates : ∃ tr c,
    Runs exec (Narrow exec (aboutToMark (sha256 codeA)) 2) twoGates tr c ∧
      entries (fun _ : Bool => .validateTicket codeA) codeA c = 2 ∧
      entries (fun _ : Bool => .validateTicket codeA) codeA c ≤
        2 * ((unused (sha256 codeA) (after purchase).2).toNat +
          tr.countP (issues (sha256 codeA))) := by
  have run := Runs.nil.replay (by decide +kernel : Admits exec (Narrow exec (aboutToMark (sha256 codeA)) 2)
    [false, true, false, true] [] twoGates)
  exact ⟨_, _, run, by decide +kernel, admissions_le_width run⟩

/-- The bound is attained: with any number of gates, all of them can read the row before the first sets
it in use, and then all admit. -/
theorem admissions_eq_width {r : TicketRow} (hr : r ∈ db.ticket) (hc : r.validationCode = sha code)
    (hu : r.used = false) : ∃ tr c,
    Runs exec (Narrow exec (aboutToMark (sha code)) (Fintype.card ι))
      (start sha (fun _ : ι => .validateTicket code) db) tr c ∧
    entries (fun _ : ι => .validateTicket code) code c = Fintype.card ι := by
  have hfound := TicketRepository.existsTicketWithValidationCode_some hr hc
  have run₀ : Runs exec Anyhow (start sha (fun _ : ι => .validateTicket code) db) [] _ := .nil
  -- all read the row, and then all set it in use
  obtain ⟨tr₁, c₁, run₁, -, hall₁⟩ := run₀.exists_step_all (P := (· = db)) rfl
    (fun _ => existsTicketWithValidationCode (sha code)) _ (fun _ => some (r.info, r.used))
    (fun i => congrArg (_ <$> ·) (Validate.validateTicket_eq sha code))
    fun i s hs => ⟨by rw [hs]; exact hfound, hs⟩
  obtain ⟨tr₂, c₂, run₂, -, hall₂⟩ := run₁.exists_step_all (P := fun _ => True) trivial
    (fun _ => setTicketInUse (sha code)) (fun _ _ => .ret (.checked true r.info)) (fun _ => ())
    (fun i => by rw [hall₁, hu]; rfl) fun i s _ => ⟨rfl, trivial⟩
  refine ⟨_, c₂, run₂.narrow, ?_⟩
  rw [entries, Config.count, Finset.filter_true_of_mem, Finset.card_univ]
  intro i _
  rw [hall₂]
  exact Bool.and_eq_true_iff.2 ⟨decide_eq_true rfl, rfl⟩

/-- Three gates admit three times by one code. -/
theorem admissions_of_threeGates : ∃ tr c,
    Runs exec (Narrow exec (aboutToMark (sha256 codeA)) 3)
      (start sha256 (fun _ : Fin 3 => .validateTicket codeA) (after purchase).2) tr c ∧
      entries (fun _ : Fin 3 => .validateTicket codeA) codeA c = 3 := by
  obtain ⟨r, hr, hc, hu⟩ : ∃ r ∈ (after purchase).2.ticket.rows, r.validationCode = sha256 codeA ∧
      r.used = false := by decide +kernel
  exact admissions_eq_width hr hc hu

end Gate

/-! ### Tickets of one buyer -/

section Limit

variable {u : ℤ}

/-- A purchase of `u` that has passed the count and not inserted its row. -/
def counted (calls : ι → Call) (u : ℤ) (i : ι) (p : TicketProg Reply) : Bool :=
  (calls i).buyer? = some u && inWindow p.next

omit [DecidableEq ι] [Fintype ι] in
/-- A purchase passes the count below six. -/
theorem Buy.Stage.owned_of_enter {T e : ℤ} {env : Env} {op : TicketOp} {kont : op.Ret → TicketProg Ticket}
    (h : Buy.Stage sha T e u env (.call op kont)) (hbefore : inWindow (some op) = false)
    (hafter : inWindow (kont (exec op db).1).next = true) :
    TicketRepository.getNrOfTicketsOwned u db < 6 ∧ (exec op db).2 = db := by
  cases h with
  | count =>
    dsimp only at hafter
    split at hafter
    · cases hafter
    · next hlt => exact ⟨Nat.not_le.1 hlt, rfl⟩
  | find | delete | insert => cases hbefore
  | resell => dsimp only at hafter; split at hafter <;> cases hafter
  | old | unlist | retire => cases hafter

omit [DecidableEq ι] [Fintype ι] in
theorem counted_of_other {i : ι} (hu : (calls i).buyer? ≠ some u) (p : TicketProg Reply) :
    counted calls u i p = false := by
  rw [counted, decide_eq_false hu, Bool.false_and]

omit [DecidableEq ι] [Fintype ι] in
theorem counted_of_buyer {i : ι} (hu : (calls i).buyer? = some u) (p : TicketProg Reply) :
    counted calls u i p = inWindow p.next := by
  rw [counted, decide_eq_true hu, Bool.true_and]

omit [DecidableEq ι] [Fintype ι] in
theorem exists_buyTicket {call : Call} (hu : call.buyer? = some u) :
    ∃ T e env, call = .buyTicket T e u env := by
  cases call with
  | buyTicket T e u' env =>
    obtain rfl : u' = u := Option.some.inj hu
    exact ⟨T, e, env, rfl⟩
  | _ => cases hu

omit [DecidableEq ι] [Fintype ι] in
/-- Between counting the rows of its buyer and inserting its own a purchase is in its window. -/
theorem ascent_counted (calls : ι → Call) (u : ℤ) :
    Ascent exec (fun i => AtStage sha (calls i)) (counted calls u)
      (TicketRepository.getNrOfTicketsOwned u) 6 where
  keep i op kont db h := h.step db
  enter i op kont db h hbefore hafter := by
    by_cases hu : (calls i).buyer? = some u
    · rw [counted_of_buyer hu] at hbefore hafter
      obtain ⟨T, e, env, hcall⟩ := exists_buyTicket hu
      rw [hcall] at h
      obtain ⟨q, hq, hs⟩ := h
      obtain ⟨k', rfl, rfl⟩ := Prog.map_eq_call hq.symm
      rw [Prog.next_map] at hafter
      obtain ⟨hlt, hdb⟩ := hs.owned_of_enter hbefore hafter
      exact ⟨hlt, by rw [hdb]⟩
    · rw [counted_of_other hu] at hafter
      cases hafter
  rise i op kont db h hturn := by
    by_cases hu : (calls i).buyer? = some u
    · rw [counted_of_buyer hu, counted_of_buyer hu] at hturn ⊢
      obtain ⟨T, e, env, hcall⟩ := exists_buyTicket hu
      rw [hcall] at h
      obtain ⟨q, hq, hs⟩ := h
      obtain ⟨k', rfl, rfl⟩ := Prog.map_eq_call hq.symm
      rw [Prog.next_map] at hturn ⊢
      rcases hs.window_step db with ⟨rfl, -⟩ | hle
      · -- the count, which does not go on
        rw [hturn.resolve_left Bool.false_ne_true]
        exact Nat.add_le_add_left (Nat.zero_le _) _
      · exact hle
    · rw [counted_of_other hu, counted_of_other hu]
      exact Nat.add_le_add_right (owned_exec_le_of_other hu h) _

omit [DecidableEq ι] [Fintype ι] in
theorem counted_start (calls : ι → Call) (u : ℤ) (i : ι) :
    counted calls u i ((calls i).prog sha) = false := by
  by_cases hu : (calls i).buyer? = some u
  · obtain ⟨T, e, env, hcall⟩ := exists_buyTicket hu
    rw [counted_of_buyer hu, hcall]
    rfl
  · exact counted_of_other hu _

/-- **A buyer who owns at most `5 + k` tickets at the start never owns more**, where at most `k` purchases
of the buyer are between counting the rows and inserting their own together. -/
theorem owned_le_width (h₀ : TicketRepository.getNrOfTicketsOwned u db ≤ 5 + k)
    (run : Runs exec (Narrow exec (counted calls u) k) (start sha calls db) tr c) :
    TicketRepository.getNrOfTicketsOwned u c.st ≤ 5 + k := by
  have hascent : Ascent exec (fun i => AtStage sha (calls i)) _ _ _ := ascent_counted calls u
  have hstart : TicketRepository.getNrOfTicketsOwned u (start sha calls db).st < 6 + k := by
    show TicketRepository.getNrOfTicketsOwned u db < 6 + k
    omega
  have hlevel := hascent.level_le (fun i => atStage_prog (calls i)) (counted_start calls u) hstart run
  omega

/-- Two purchases that both count five rows leave seven, and no more. -/
theorem owned_of_hoarder : ∃ tr c,
    Runs exec (Narrow exec (counted hoarder 5) 2) (start sha256 hoarder fiveOwned) tr c ∧
      TicketRepository.getNrOfTicketsOwned 5 c.st = 7 ∧
      TicketRepository.getNrOfTicketsOwned 5 c.st ≤ 5 + 2 := by
  have run := Runs.nil.replay (by decide +kernel : Admits exec (Narrow exec (counted hoarder 5) 2)
    [false, true, false, false, false, false, true, true, true, true] [] (start sha256 hoarder fiveOwned))
  exact ⟨_, _, run, by decide +kernel, owned_le_width ((fiveOwned_le 5).trans (by omega)) run⟩

end Limit

end TicketIST
