import TicketIST.Accounts
import TicketIST.Counters
import TicketIST.Sellers

/-!
# Who is charged

The ticket service believes the id of the buyer that its caller gives, and the database has no foreign
keys: whether a ticket belongs to anyone is left to the handlers.  A purchase comes directly after the
check of a session and the lookup of that session's username, by the same connection (`Asked`).

So, however the handlers interleave, a ticket is charged to an account whose credentials were verified
when the session was opened that the purchase shows (`charged_to_verified`), and the owners and sellers
in the tables are accounts (`references_of_connections`).
-/

namespace TicketIST

open TicketIST.Lib ServerOp

variable {ι : Type} {coll sha : Text → Text}

/-! ### What a handler does before it buys -/

/-- The last steps are a check of the session of `username` that passes, the lookup of the event `e`, and
the lookup of the id of `username`, which is `u`. -/
def Asked (steps : List (Step ServerSig)) (username cookie : Text) (nonce e u : ℤ) : Prop :=
  ∃ earlier ef uf eventName event, event.id = e ∧ steps = earlier ++
    [⟨isAuthenticationCorrect (.user, username) cookie nonce, true⟩,
      ⟨eventService ef (.getEventByName eventName), .ok event⟩,
      ⟨userService uf (.getUserId username), .ok u⟩]

def record (steps : List (Step ServerSig)) (st : Step ServerSig) : List (Step ServerSig) := steps ++ [st]

/-- A purchase is asked for. -/
def BuysAsked (steps : List (Step ServerSig)) (op : ServerOp) : Prop :=
  ∀ fails T e u env, op = ticketService fails (.buyTicket T e u env) →
    ∃ username cookie nonce, Asked steps username cookie nonce e u

section Handlers

variable {sur : Surroundings} {ssl : SSL} {steps : List (Step ServerSig)}

def NoPurchase : ServerOp → Prop
  | .ticketService _ (.buyTicket ..) => False
  | _ => True

theorem NoPurchase.heeds {α : Type} {p : ServerProg α} (h : p.Uses NoPurchase)
    (steps : List (Step ServerSig)) : p.Heeds record BuysAsked steps := by
  refine h.heeds ?_ steps
  rintro op steps hop fails T e u env rfl
  exact hop.elim

theorem noPurchase_of_noTicketCall (op : ServerOp) (h : NoTicketCall op) : NoPurchase op := by
  cases op with
  | ticketService fails c => exact h.elim
  | _ => trivial

theorem buysAsked_doBuyTicketAction (m : BuyTicketMessage) (steps : List (Step ServerSig)) :
    (doBuyTicketAction sur m).Heeds record BuysAsked steps := by
  refine Prog.Heeds.tryCatch ⟨fun _ _ _ _ _ h => (by cases h), fun ok => ?_⟩ fun x steps => ?_
  · cases ok with
    | false => trivial
    | true =>
      refine ⟨fun _ _ _ _ _ h => (by cases h), fun event => ?_⟩
      cases event with
      | error x => trivial
      | ok event =>
        refine ⟨fun _ _ _ _ _ h => (by cases h), fun userId => ?_⟩
        cases userId with
        | error x => trivial
        | ok userId =>
          refine ⟨?_, fun ticket => ?_⟩
          · rintro fails T e u env heq
            cases heq
            exact ⟨m.username, m.sessionCookies, m.nonce, steps, sur.eventFails, sur.userFails,
              m.eventName, event, rfl, by simp [record]⟩
          · cases ticket with
            | error x => trivial
            | ok ticket => exact ⟨fun _ _ _ _ _ h => (by cases h), fun _ => trivial⟩
  · exact NoPurchase.heeds (uses_onInvalidArgument (φ := NoPurchase) trivial (fun _ => by trivial) x) steps

theorem buysAsked_handleAction (action : ActionType) (text : Text) (steps : List (Step ServerSig)) :
    (handleAction sur action ssl text).Heeds record BuysAsked steps := by
  by_cases hbuy : action = .buyTicket
  · subst hbuy
    refine Prog.Heeds.bind ?_ fun m => buysAsked_doBuyTicketAction m
    exact NoPurchase.heeds (Prog.uses_ofExcept _ _) steps
  · refine NoPurchase.heeds (uses_handleAction noPurchase_of_noTicketCall (fun c hc => ?_) ssl text) steps
    cases action <;> cases c <;> trivial

theorem buysAsked_clientLoop (reads : List (Surroundings × Text)) (steps : List (Step ServerSig)) :
    (clientLoop ssl reads).Heeds record BuysAsked steps := by
  induction reads generalizing steps with
  | nil => trivial
  | cons read reads ih =>
    unfold clientLoop
    split
    · exact ⟨fun _ _ _ _ _ h => (by cases h), fun _ => trivial⟩
    · refine Prog.Heeds.bind ?_ fun response steps =>
        ⟨fun _ _ _ _ _ h => (by cases h), fun _ => ih _⟩
      exact (NoPurchase.heeds (Prog.uses_ofExcept _ _) steps).bind fun action =>
        buysAsked_handleAction action read.2

theorem buysAsked_handleClient (ssl : SSL) (reads : List (Surroundings × Text))
    (steps : List (Step ServerSig)) : (handleClient ssl reads).Heeds record BuysAsked steps := by
  refine (buysAsked_clientLoop reads steps).tryCatch fun _ => NoPurchase.heeds ?_
  exact ⟨trivial, fun _ => ⟨trivial, fun _ => ⟨trivial, fun _ => trivial⟩⟩⟩

end Handlers

/-! ### What the connections did before -/

section Run

variable [DecidableEq ι] {ssl : ι → SSL} {reads : ι → List (Surroundings × Text)}
  {allowed : List (Firing ι ServerSig) → Config ι ServerSig Exn Unit (Server coll) → ι → Prop}
  {s₀ : Server coll} {tr tr₁ tr₂ : List (Firing ι ServerSig)}
  {c : Config ι ServerSig Exn Unit (Server coll)} {i : ι} {fails : TicketOp → Bool} {T e u : ℤ}
  {env : Env}

theorem foldl_record (steps steps' : List (Step ServerSig)) :
    steps'.foldl record steps = steps ++ steps' := by
  induction steps' generalizing steps with
  | nil => rw [List.foldl_nil, List.append_nil]
  | cons st steps' ih => rw [List.foldl_cons, ih, record, List.append_assoc, List.singleton_append]

/-- A connection that is about to buy has asked. -/
theorem asked_of_next (run : Runs (exec sha) allowed (serving ssl reads s₀) tr c) {k}
    (hp : c.pool i = .call (ticketService fails (.buyTicket T e u env)) k) :
    ∃ username cookie nonce, Asked (eventsOf tr i) username cookie nonce e u := by
  have hpath := run.path i
  rw [hp] at hpath
  have h := hpath.heeds (buysAsked_handleClient (ssl i) (reads i) [])
  rw [foldl_record, List.nil_append] at h
  exact h fails T e u env rfl

/-- The check and the lookup of the id, among the events. -/
theorem Asked.events {username cookie : Text} {nonce : ℤ}
    (h : Asked (eventsOf tr i) username cookie nonce e u) :
    ∃ before after uf, tr = before ++
        ⟨i, isAuthenticationCorrect (.user, username) cookie nonce, true⟩ :: after ∧
      ⟨i, userService uf (.getUserId username), .ok u⟩ ∈ tr := by
  obtain ⟨earlier, ef, uf, eventName, event, -, hsteps⟩ := h
  have hmem : (⟨userService uf (.getUserId username), .ok u⟩ : Step ServerSig) ∈ eventsOf tr i := by
    rw [hsteps]
    simp
  obtain ⟨y, hy, hyi, hyst⟩ := mem_eventsOf.1 hmem
  obtain ⟨before, rest, rfl, -, hrest⟩ := List.filterMap_eq_append_iff.1 hsteps
  obtain ⟨middle, x, after, rfl, -, hx, -⟩ := List.filterMap_eq_cons_iff.1 hrest
  rw [Option.ite_none_right_eq_some, Option.some.injEq] at hx
  obtain ⟨rfl, hx⟩ := hx
  obtain ⟨j, op, ret⟩ := x
  obtain ⟨j', op', ret'⟩ := y
  cases hx
  cases hyst
  cases hyi
  exact ⟨before ++ middle, after, uf, by simp, hy⟩

/-! ### Owners and sellers are accounts -/

/-- `id` is the id of an account. -/
def IsAccount (s : Server coll) (id : ℤ) : Prop := ∃ row ∈ s.users.users, row.id = id

theorem IsAccount.exec {s : Server coll} {id : ℤ} (h : IsAccount s id) (op : ServerOp) :
    IsAccount (exec sha op s).2 id := by
  refine users_exec (P := fun db : UserDB coll => ∃ row ∈ db.users, row.id = id) ?_ op s h
  rintro op db ⟨row, hrow, hid⟩
  exact ⟨row, op.mem_exec hrow, hid⟩

/-- Who buys is an account. -/
theorem isAccount_of_next (run : Runs (exec sha) allowed (serving ssl reads s₀) tr c) {k}
    (hp : c.pool i = .call (ticketService fails (.buyTicket T e u env)) k) : IsAccount c.st u := by
  obtain ⟨username, cookie, nonce, hasked⟩ := asked_of_next run hp
  obtain ⟨-, -, uf, -, hlookup⟩ := hasked.events
  obtain ⟨row, hrow, hid, -⟩ := account_of_getUserId run hlookup
  exact ⟨row, hrow, hid⟩

/-- The owners of the rows are accounts, and so are the sellers of the offers, but for those of the
start. -/
structure References (info : Table TicketInfo ℤ TicketInfo.ticketID) (s : Server coll) : Prop where
  owner : ∀ r ∈ s.tickets.ticket, IsAccount s r.ownerId
  seller : ∀ ti ∈ s.tickets.ticketInfo, ti ∈ info ∨ IsAccount s ti.sellerID

/-- A call of the ticket service that charges an account. -/
theorem References.done {info : Table TicketInfo ℤ TicketInfo.ticketID} {s : Server coll}
    (href : References info s) (hI : RowsIssued sha s.tickets) (hsha : Function.Injective sha)
    {call : Call} {r : Except Exn Reply} {db : TicketDB} (h : Done sha fails s.tickets call r db)
    (hbuy : ∀ T e u env, call = .buyTicket T e u env → IsAccount s u) :
    References info { s with tickets := db } where
  owner row hrow := by
    rcases h.rows hrow with ⟨row₀, hrow₀, hof⟩ | ⟨t, rfl, ht⟩
    · obtain ⟨t, ht⟩ := hI row₀ hrow₀
      rw [(hof t ht).owner, ← ht.owner]
      exact href.owner row₀ hrow₀
    · obtain ⟨T, e, u, env, ti, hcall, -, -, rfl⟩ := h.ticket
      rw [ht.owner]
      exact hbuy T e u env hcall
  seller ti hti := by
    rcases h.offers hti with hti | ⟨data, newPrice, t, -, -, hr, rfl⟩
    · exact href.seller ti hti
    · obtain ⟨row, hrow, -, howner⟩ := owner_of_reaches hI hsha hr
      have hacc := href.owner row hrow
      rw [howner] at hacc
      exact .inr hacc

/-- A step that leaves the tickets alone. -/
theorem References.keep {info : Table TicketInfo ℤ TicketInfo.ticketID} {s : Server coll}
    (href : References info s) {op : ServerOp} (ht : (exec sha op s).2.tickets = s.tickets) :
    References info (exec sha op s).2 where
  owner r hr := (href.owner r (ht ▸ hr)).exec op
  seller ti hti := (href.seller ti (ht ▸ hti)).imp_right fun hacc => hacc.exec op

/-- The step lemma. -/
theorem References.step {info : Table TicketInfo ℤ TicketInfo.ticketID}
    (run : Runs (exec sha) allowed (serving ssl reads s₀) tr c) (hsha : Function.Injective sha)
    (hI : RowsIssued sha c.st.tickets) (href : References info c.st) {op : ServerOp} {k}
    (hp : c.pool i = .call op k) :
    RowsIssued sha (exec sha op c.st).2.tickets ∧ References info (exec sha op c.st).2 := by
  cases op with
  | ticketService fails call =>
    have hdone : Done sha fails c.st.tickets call _ _ := done_of_run call
    simp only [exec, service_run]
    refine ⟨hdone.rowsIssued hI, href.done hI hsha hdone ?_⟩
    rintro T e u env rfl
    exact isAccount_of_next run hp
  | _ => exact ⟨hI, href.keep rfl⟩

/-- **Owners and sellers are accounts**, whatever the connections send, however their handlers
interleave, and whichever statements fail. -/
theorem references_of_connections (hsha : Function.Injective sha)
    {info : Table TicketInfo ℤ TicketInfo.ticketID} {users : UserDB coll} {events : EventDB coll}
    (run : Runs (exec sha) Anyhow (serving ssl reads (.start ⟨info, .empty, .empty⟩ users events))
      tr c) : References info c.st := by
  have hinv : RowsIssued sha c.st.tickets ∧ References info c.st := by
    induction run with
    | nil => exact ⟨rowsIssued_empty _ _, fun r hr => absurd hr (Table.not_mem_empty r), fun ti => .inl⟩
    | snoc run hp _ ih => exact ih.2.step run hsha ih.1 hp
  exact hinv.2

/-! ### Whose session a purchase shows -/

/-- **A ticket is charged to an account whose credentials were verified**: before every purchase, the
connection checked the session of a user with a cookie that was drawn when the credentials of this user
were verified, and the user is an account, of the id that is charged. -/
theorem charged_to_verified {tickets : TicketDB} {users : UserDB coll} {events : EventDB coll}
    (run : Runs (exec sha) FindsSession (serving ssl reads (.start tickets users events)) tr c)
    {r : Except Exn Ticket}
    (htr : tr = tr₁ ++ ⟨i, ticketService fails (.buyTicket T e u env), r⟩ :: tr₂) :
    ∃ username cookie nonce before after,
      tr₁ = before ++ ⟨i, isAuthenticationCorrect (.user, username) cookie nonce, true⟩ :: after ∧
      Opened before (.user, username) cookie ∧
      ∃ row ∈ c.st.users.users, row.id = u ∧ coll row.username = coll username := by
  obtain ⟨c₁, k, run₁, hp, -, -⟩ := run.exists_before htr
  obtain ⟨username, cookie, nonce, hasked⟩ := asked_of_next run₁ hp
  obtain ⟨before, after, uf, hcheck, hlookup⟩ := hasked.events
  refine ⟨username, cookie, nonce, before, after, hcheck, ?_, ?_⟩
  · -- the check found the session
    obtain ⟨c₀, -, run₀, -, -, hret⟩ := run₁.exists_before hcheck
    have hs : c₀.st.controller.isAuthenticationCorrect (.user, username) cookie nonce = true := hret.symm
    exact session_opened run₀ ((c₀.st.controller.isAuthenticationCorrect_iff).1 hs)
  · have hmem : (⟨i, userService uf (.getUserId username), .ok u⟩ : Firing ι ServerSig) ∈ tr := by
      rw [htr]
      exact List.mem_append_left _ hlookup
    exact account_of_getUserId run hmem

end Run

/-! ### A purchase on one of two connections -/

/-- User 5 logs in and buys seat 7, and then logs out on the other connection. -/
def boughtAndOut : List (Firing Bool ServerSig) × Config Bool ServerSig Exn Unit (Server lower) :=
  replay (exec sha256)
    [false, false, false, false, false, false, false, false, false, false, false, true] [] loggedOut

theorem references_boughtAndOut : boughtAndOut.2.st.tickets.ticket.rows.map TicketRow.ownerId = [5] ∧
    References twoSeats boughtAndOut.2.st :=
  ⟨by decide +kernel,
    references_of_connections sha256_injective (Runs.nil.replay (admits_anyhow _ _ _ _))⟩

theorem charged_boughtAndOut : ∃ tr₁ r tr₂,
    boughtAndOut.1 =
      tr₁ ++ ⟨false, ticketService (fun _ => false) (.buyTicket 7 1 5 (drawing 0)), r⟩ :: tr₂ ∧
    ∃ username cookie nonce before after,
      tr₁ = before ++ ⟨false, isAuthenticationCorrect (.user, username) cookie nonce, true⟩ :: after ∧
      Opened before (.user, username) cookie ∧
      ∃ row ∈ boughtAndOut.2.st.users.users, row.id = 5 ∧ lower row.username = lower username := by
  have run := Runs.nil.replay (by decide +kernel : Admits (exec sha256) FindsSession
    [false, false, false, false, false, false, false, false, false, false, false, true] [] loggedOut)
  have htr : boughtAndOut.1 = boughtAndOut.1.take 8 ++
      ⟨false, ticketService (fun _ => false) (.buyTicket 7 1 5 (drawing 0)), _⟩ ::
        boughtAndOut.1.drop 9 := rfl
  exact ⟨_, _, _, htr, charged_to_verified run htr⟩

end TicketIST
