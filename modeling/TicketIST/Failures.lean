import TicketIST.Runs

/-!
# Calls on a store whose statements fail

A repository function catches the exception of its statement and returns a neutral value: `false`,
nothing, `0` or the empty text.  Whether the service then refuses or carries on differs from call to
call.  For every store that keeps a book, every argument and every choice of failing statements, the
two theorems here say exactly when

* a purchase that returns a ticket, and a validation that returns true, did what they report
  (`success_truthful_iff`);
* a purchase or a listing that throws left the store as it was (`refusal_clean_iff`).
-/

namespace TicketIST

open TicketIST.Lib TicketOp

variable {sha : Text → Text} {fails : TicketOp → Bool} {b : Book} {db : TicketDB} {T e u : ℤ}
  {env : Env}

/-! ### What a success reports -/

/-- If the purchase returns a ticket, then the buyer owned fewer than six, the seat was on offer and
no longer is, the row of the ticket is there, and the row of the earlier purchase is not. -/
def BuyTruthful (sha : Text → Text) (fails : TicketOp → Bool) (b : Book) (db : TicketDB)
    (T e u : ℤ) (env : Env) : Prop :=
  ∀ t db', (TicketService.buyTicket sha T e u env).run (faulty fails) db = (.ok t, db') →
    TicketRepository.getNrOfTicketsOwned u db < 6 ∧ db.Listed T ∧ ¬db'.Listed T ∧
      Buy.row sha u t ∈ db'.ticket ∧
      ∀ t₀, b T = some t₀ → ∀ r ∈ db'.ticket, r.validationCode ≠ sha t₀.validationCode

/-- If the validation returns true, then the row of the code is in use. -/
def ValidateTruthful (sha : Text → Text) (fails : TicketOp → Bool) (db : TicketDB) (c : Text) :
    Prop :=
  ∀ info db', (TicketService.validateTicket sha c).run (faulty fails) db = (.ok (true, info), db') →
    ∃ r ∈ db'.ticket, r.validationCode = sha c ∧ r.used = true

/-- The statements before the last part of the purchase let it pass, with the listing `ti`. -/
structure Buy.Passes (sha : Text → Text) (fails : TicketOp → Bool) (db : TicketDB) (T e u : ℤ)
    (env : Env) (ti : TicketInfo) : Prop extends Buy.Reaches fails db T e u ti where
  insert : fails (addNewTicket (sha (issued ti u env).validationCode)
    (sha (issued ti u env).serialize) (issued ti u env).seat u) = false
  fresh : ∀ r ∈ db.ticket, r.validationCode ≠ sha (issued ti u env).validationCode

/-- A purchase that the earlier statements let pass has its count right, and no failure keeps it from
the row that it replaces. -/
def BuyReliable (sha : Text → Text) (fails : TicketOp → Bool) (b : Book) (db : TicketDB)
    (T e u : ℤ) (env : Env) : Prop :=
  ∀ ti, Buy.Passes sha fails db T e u env ti →
    (fails (getNrOfTicketsOwned u) = true → TicketRepository.getNrOfTicketsOwned u db < 6) ∧
    ∀ t₀, b T = some t₀ → fails (isTicketInResell T) = false ∧
      fails (getOldTicketValCodeHash T) = false ∧ fails (removeTicket (sha t₀.validationCode)) = false

/-- A validation that finds its row unused can set it in use. -/
def ValidateReliable (sha : Text → Text) (fails : TicketOp → Bool) (db : TicketDB) (c : Text) :
    Prop :=
  fails (existsTicketWithValidationCode (sha c)) = false →
    (∃ r ∈ db.ticket, r.validationCode = sha c ∧ r.used = false) →
    fails (setTicketInUse (sha c)) = false

/-- A purchase that passes returns its ticket, whatever fails after that. -/
theorem Buy.Passes.run {ti : TicketInfo} (h : Buy.Passes sha fails db T e u env ti) :
    ∃ tk, db.ticket.insert (Buy.row sha u (issued ti u env)) = some tk ∧
      (TicketService.buyTicket sha T e u env).run (faulty fails) db =
        (.ok (issued ti u env), Buy.retired fails T (Buy.sold db T tk)) := by
  obtain ⟨tk, hi⟩ : ∃ tk, db.ticket.insert (Buy.row sha u (issued ti u env)) = some tk :=
    Table.exists_insert h.fresh
  exact ⟨tk, hi, Buy.run_sold h.toReaches h.insert hi⟩

/-- A purchase that does not pass throws; past its first write it has taken the seat off the market. -/
theorem Buy.run_of_not_passes (h : ∀ ti, ¬Buy.Passes sha fails db T e u env ti) :
    ∃ x, (TicketService.buyTicket sha T e u env).run (faulty fails) db = (.error x, db) ∧
        (∀ ti, ¬Buy.Reaches fails db T e u ti) ∨
      (TicketService.buyTicket sha T e u env).run (faulty fails) db =
        (.error x, (TicketRepository.makeTicketUnavailable T db).2) ∧
        ∃ ti, Buy.Reaches fails db T e u ti := by
  by_cases hr : ∃ ti, Buy.Reaches fails db T e u ti
  · obtain ⟨ti, hr⟩ := hr
    have hins : fails (addNewTicket (sha (issued ti u env).validationCode)
        (sha (issued ti u env).serialize) (issued ti u env).seat u) = true ∨
        ∃ r ∈ (TicketRepository.makeTicketUnavailable T db).2.ticket,
          r.validationCode = sha (issued ti u env).validationCode := by
      by_contra hn
      rw [not_or, not_exists, Bool.not_eq_true] at hn
      obtain ⟨hf, hfresh⟩ := hn
      refine h ti ⟨hr, hf, ?_⟩
      intro r hr' hc
      exact hfresh r ⟨hr', hc⟩
    obtain ⟨x, hx⟩ := Buy.run_insert_refused hins
    exact ⟨x, .inr ⟨(Buy.run_of_reaches hr).trans hx, ti, hr⟩⟩
  · rw [not_exists] at hr
    obtain ⟨x, hx⟩ : ∃ x, (TicketService.buyTicket sha T e u env).run (faulty fails) db =
        (.error x, db) := Buy.run_of_not_reaches hr
    exact ⟨x, .inl ⟨hx, hr⟩⟩

section

variable (hne : ∀ x, sha x ≠ []) (hI : StoreInv sha b db)
include hne hI

theorem StoreInv.mem_retired {t : Ticket} {tk} (hi : db.ticket.insert (Buy.row sha u t) = some tk)
    {y : Text} (hy : ∀ x ∈ db.resellTickets, x.ticketId = T → x.hashValCode = y) {r : TicketRow} :
    r ∈ (Buy.retired fails T (Buy.sold db T tk)).ticket ↔
      (r ∈ db.ticket ∨ r = Buy.row sha u t) ∧ ¬(r.validationCode = y ∧ Buy.Resold db T ∧
        fails (isTicketInResell T) = false ∧ fails (getOldTicketValCodeHash T) = false ∧
        fails (removeTicket y) = false) := by
  refine Buy.mem_ticket_of_buy hi hy ?_
  intro _ r hr
  rcases (Table.mem_insert hi).1 hr with hr | rfl
  · obtain ⟨T', t', -, hrt⟩ := hI.row hr
    rw [hrt.code]
    exact hne _
  · exact hne _

theorem buyTruthful_iff : BuyTruthful sha fails b db T e u env ↔
    BuyReliable sha fails b db T e u env := by
  obtain ⟨y, hy, hyb⟩ := hI.keeps.exists_link T
  constructor
  · intro h ti hp
    obtain ⟨tk, hi, hrun⟩ := hp.run
    obtain ⟨hown, -, -, -, hgone⟩ := h _ _ hrun
    refine ⟨fun _ => hown, ?_⟩
    intro t₀ ht₀
    obtain ⟨r₀, hr₀, hrt₀⟩ := hI.exists_row ht₀
    by_contra hn
    -- a failure keeps the purchase from the old row
    have hstays : r₀ ∈ (Buy.retired fails T (Buy.sold db T tk)).ticket := by
      refine (hI.mem_retired hne hi hy).2 ⟨.inl hr₀, ?_⟩
      rintro ⟨-, -, h₁, h₂, h₃⟩
      rw [hyb t₀ ht₀] at h₃
      exact hn ⟨h₁, h₂, h₃⟩
    exact hgone t₀ ht₀ r₀ hstays hrt₀.code
  · intro h t db' hrun
    by_cases hp : ∃ ti, Buy.Passes sha fails db T e u env ti
    · obtain ⟨ti, hp⟩ := hp
      obtain ⟨tk, hi, hrun'⟩ := hp.run
      cases hrun.symm.trans hrun'
      obtain ⟨hcount, hret⟩ := h ti hp
      have hown : TicketRepository.getNrOfTicketsOwned u db < 6 := by
        cases hf : fails (getNrOfTicketsOwned u) with
        | true => exact hcount hf
        | false => exact hp.count hf
      have hunlisted : ¬(Buy.retired fails T (Buy.sold db T tk)).Listed T := by
        rintro ⟨x, hx, hxT⟩
        rw [Buy.retired_ticketInfo, Buy.mem_sold] at hx
        exact hx.2 hxT
      refine ⟨hown, ⟨ti, hp.listed⟩, hunlisted, (hI.mem_retired hne hi hy).2 ⟨.inr rfl, ?_⟩, ?_⟩
      · rintro ⟨hc, ⟨x, hx, rfl⟩, -⟩
        -- the row that is replaced was there before, so its code is not the new one
        obtain ⟨-, t₀, ht₀, -⟩ := hI.resell.1 hx
        obtain ⟨r₀, hr₀, hrt₀⟩ := hI.exists_row ht₀
        have hcode : r₀.validationCode = sha (issued ti u env).validationCode := by
          rw [hrt₀.code, ← hyb t₀ ht₀]
          exact hc.symm
        exact hp.fresh r₀ hr₀ hcode
      · intro t₀ ht₀ r hr hc
        obtain ⟨h₁, h₂, h₃⟩ := hret t₀ ht₀
        have hresold : Buy.Resold db T := ⟨_, hI.keeps.linked ht₀ ⟨ti, hp.listed⟩, rfl⟩
        rw [← hyb t₀ ht₀] at hc h₃
        exact ((hI.mem_retired hne hi hy).1 hr).2 ⟨hc, hresold, h₁, h₂, h₃⟩
    · rw [not_exists] at hp
      obtain ⟨x, ⟨hx, -⟩ | ⟨hx, -⟩⟩ := Buy.run_of_not_passes hp <;> cases hrun.symm.trans hx

end

theorem validateTruthful_iff {c : Text} : ValidateTruthful sha fails db c ↔
    ValidateReliable sha fails db c := by
  constructor
  · intro h hf hr
    obtain ⟨r, hr, hc, hu⟩ := hr
    obtain ⟨r', hr', hc', hu'⟩ := h _ _ (Validate.run_unused hr hc hu hf)
    by_contra hs
    rw [faulty_of_true (eq_true_of_ne_false hs)] at hr'
    rw [Table.eq_of_key hr' hr (hc'.trans hc.symm), hu] at hu'
    cases hu'
  · intro h info db' hrun
    rcases Validate.run_cases sha fails c db with ⟨hf, r, hr, hc, hu, hx⟩ | ⟨info', hx⟩
    · cases hrun.symm.trans hx
      rw [faulty_of_false (h hf ⟨r, hr, hc, hu⟩)]
      exact ⟨{ r with used := true },
        TicketRepository.mem_setTicketInUse.2 ⟨r, hr, if_pos hc⟩, hc, rfl⟩
    · cases hrun.symm.trans hx

/-- **When success is truthful.** -/
theorem success_truthful_iff (hne : ∀ x, sha x ≠ []) (hI : StoreInv sha b db)
    (fails : TicketOp → Bool) :
    (∀ T e u env, BuyTruthful sha fails b db T e u env ↔ BuyReliable sha fails b db T e u env) ∧
      ∀ c, ValidateTruthful sha fails db c ↔ ValidateReliable sha fails db c :=
  ⟨fun _ _ _ _ => buyTruthful_iff hne hI, fun _ => validateTruthful_iff⟩

/-! ### Statements that fail in silence -/

def silent : TicketOp → Bool
  | removeTicket _ => true
  | setTicketInUse _ => true
  | _ => false

theorem silent_failures : ∃ b db, StoreInv sha256 b db ∧
    ¬BuyTruthful sha256 silent b db 7 1 6 (drawing 1) ∧
    ¬ValidateTruthful sha256 silent db codeA := by
  refine ⟨_, _, relisting_inv, ?_, ?_⟩
  · intro h
    have hfresh : ∀ r ∈ (after relisting).2.ticket.rows, r.validationCode ≠
        sha256 (Ticket.generateValidationCode 10 (drawing 1).dist) := by decide +kernel
    have hp : Buy.Passes sha256 silent (after relisting).2 7 1 6 (drawing 1)
        (listing ticketOfUser5 (.ofNat 30)) :=
      ⟨⟨fun _ => by decide +kernel, rfl, by decide +kernel, rfl, rfl⟩, rfl, hfresh⟩
    have ht₀ : latest (after relisting).1 7 = some ticketOfUser5 := by
      decide +kernel
    cases (((buyTruthful_iff sha256_ne_nil relisting_inv).1 h _ hp).2 _ ht₀).2.2
  · intro h
    have hr : ∃ r ∈ (after relisting).2.ticket.rows, r.validationCode = sha256 codeA ∧
        r.used = false := by decide +kernel
    cases validateTruthful_iff.1 h rfl hr

theorem success_truthful_relisting :
    BuyTruthful sha256 (fun _ => false) (latest (after relisting).1) (after relisting).2 7 1 6
      (drawing 1) ∧
    ValidateTruthful sha256 (fun _ => false) (after relisting).2 codeA := by
  have h := success_truthful_iff sha256_ne_nil relisting_inv fun _ => false
  exact ⟨(h.1 7 1 6 (drawing 1)).2 fun _ _ => ⟨nofun, fun _ _ => ⟨rfl, rfl, rfl⟩⟩,
    (h.2 _).2 fun _ _ => rfl⟩

/-! ### What a refusal leaves behind -/

/-- If the purchase throws, the store is as it was. -/
def BuyClean (sha : Text → Text) (fails : TicketOp → Bool) (db : TicketDB) (T e u : ℤ)
    (env : Env) : Prop :=
  ∀ x db', (TicketService.buyTicket sha T e u env).run (faulty fails) db = (.error x, db') → db' = db

def SellClean (sha : Text → Text) (fails : TicketOp → Bool) (db : TicketDB) (data : Text)
    (newPrice : Double) : Prop :=
  ∀ x db', (TicketService.sellTicket sha data newPrice).run (faulty fails) db = (.error x, db') →
    db' = db

/-- A purchase that has taken the seat off the market can insert its row. -/
def BuyCompletes (sha : Text → Text) (fails : TicketOp → Bool) (db : TicketDB) (T e u : ℤ)
    (env : Env) : Prop :=
  ∀ ti, Buy.Reaches fails db T e u ti → Buy.Passes sha fails db T e u env ti

/-- A listing that has published its seat can record the resale. -/
def SellCompletes (sha : Text → Text) (fails : TicketOp → Bool) (db : TicketDB) (data : Text)
    (newPrice : Double) : Prop :=
  ∀ t, Ticket.deserialize data = .ok (true, t) → Sell.Reaches sha fails db t newPrice →
    fails (addTicketInfo (listing t newPrice)) = false → ¬db.Listed t.ticketID →
    fails (addTicketToResell (sha t.validationCode) t.ticketID) = false

theorem buyClean_iff : BuyClean sha fails db T e u env ↔ BuyCompletes sha fails db T e u env := by
  constructor
  · intro h ti hr
    by_contra hn
    have hnp : ∀ ti', ¬Buy.Passes sha fails db T e u env ti' := by
      intro ti' hp
      cases hr.found.symm.trans hp.found
      exact hn hp
    obtain ⟨x, ⟨-, hx⟩ | ⟨hx, -⟩⟩ := Buy.run_of_not_passes hnp
    · exact hx ti hr
    · -- the seat is gone from the offers, and was there before
      have hmem : ti ∈ (TicketRepository.makeTicketUnavailable T db).2.ticketInfo := by
        rw [h _ _ hx]
        exact hr.listed.1
      have hT := (Table.mem_delete.1 hmem).2
      rw [hr.listed.2] at hT
      simp at hT
  · intro h x db' hrun
    by_cases hp : ∃ ti, Buy.Passes sha fails db T e u env ti
    · obtain ⟨ti, hp⟩ := hp
      obtain ⟨tk, -, hrun'⟩ := hp.run
      cases hrun.symm.trans hrun'
    · rw [not_exists] at hp
      obtain ⟨x, ⟨hx, -⟩ | ⟨-, ti, hr⟩⟩ := Buy.run_of_not_passes hp
      · cases hrun.symm.trans hx
        rfl
      · exact absurd (h ti hr) (hp ti)

/-- Where the seat is published, what follows decides. -/
theorem sellClean_of_published (hsha : Function.Injective sha) (hI : StoreInv sha b db) {t : Ticket}
    {newPrice : Double} (hr : Sell.Reaches sha fails db t newPrice)
    (hf : fails (addTicketInfo (listing t newPrice)) = false) (hl : ¬db.Listed t.ticketID) :
    (∀ x db', (Sell.list sha t newPrice).run (faulty fails) db = (.error x, db') → db' = db) ↔
      fails (addTicketToResell (sha t.validationCode) t.ticketID) = false := by
  obtain ⟨t₀, ht₀, hc, -⟩ := hI.keeps.of_reaches hsha hr
  obtain ⟨tk, hi⟩ : ∃ tk, db.ticketInfo.insert (listing t newPrice) = some tk :=
    Table.exists_insert fun x hx hT => hl ⟨x, hx, hT⟩
  rw [Sell.run_list hf hi]
  cases hf' : fails (addTicketToResell (sha t.validationCode) t.ticketID) with
  | true =>
    obtain ⟨x, hx⟩ : ∃ x, (Sell.record sha t).run (faulty fails) { db with ticketInfo := tk } =
        (.error x, { db with ticketInfo := tk }) := Sell.run_record_refused (.inl hf')
    refine iff_of_false ?_ Bool.false_ne_true.symm
    intro h
    -- the listing stays, and was not there before
    have hlisted : TicketDB.Listed { db with ticketInfo := tk } t.ticketID :=
      ⟨_, (Table.mem_insert hi).2 (.inr rfl), rfl⟩
    rw [h _ _ hx] at hlisted
    exact hl hlisted
  | false =>
    obtain ⟨tk', hi'⟩ := hI.exists_record hsha ht₀ hl
    have hx : (Sell.record sha t).run (faulty fails) { db with ticketInfo := tk } =
        (.ok true, ⟨tk, db.ticket, tk'⟩) := Sell.run_record hf' (hc ▸ hi')
    rw [hx]
    exact iff_of_true (fun x db' h => by cases h) rfl

theorem sellClean_iff (hsha : Function.Injective sha) (hI : StoreInv sha b db) {data : Text}
    {newPrice : Double} : SellClean sha fails db data newPrice ↔
      SellCompletes sha fails db data newPrice := by
  unfold SellClean SellCompletes
  rw [Sell.sellTicket_eq]
  cases hd : Ticket.deserialize data with
  | error x => exact iff_of_true (fun x db' h => by cases h; rfl) nofun
  | ok wt =>
    obtain ⟨_ | _, t⟩ := wt
    · exact iff_of_true (fun x db' h => by cases h; rfl) nofun
    simp only [Bool.not_true, Bool.false_eq_true, if_false, Except.ok.injEq, Prod.mk.injEq,
      true_and, forall_eq']
    by_cases hr : Sell.Reaches sha fails db t newPrice
    · rw [Sell.run_of_reaches hr]
      by_cases hl : fails (addTicketInfo (listing t newPrice)) = true ∨ db.Listed t.ticketID
      · -- nothing is published
        obtain ⟨x, hx⟩ : ∃ x, (Sell.list sha t newPrice).run (faulty fails) db = (.error x, db) :=
          Sell.run_list_refused hl
        rw [hx]
        refine iff_of_true (fun x db' h => by cases h; rfl) ?_
        intro _ hf hnl
        rcases hl with hl | hl
        · rw [hf] at hl
          cases hl
        · exact absurd hl hnl
      · rw [not_or, Bool.not_eq_true] at hl
        rw [sellClean_of_published hsha hI hr hl.1 hl.2]
        constructor
        · exact fun hf _ _ _ => hf
        · exact fun h => h hr hl.1 hl.2
    · obtain ⟨x, hx⟩ := Sell.run_of_not_reaches hr
      rw [hx]
      exact iff_of_true (fun x db' h => by cases h; rfl) fun h => absurd h hr

/-- **When a refusal is clean.** -/
theorem refusal_clean_iff (hsha : Function.Injective sha) (hI : StoreInv sha b db)
    (fails : TicketOp → Bool) :
    (∀ T e u env, BuyClean sha fails db T e u env ↔ BuyCompletes sha fails db T e u env) ∧
      ∀ data newPrice, SellClean sha fails db data newPrice ↔
        SellCompletes sha fails db data newPrice :=
  ⟨fun _ _ _ _ => buyClean_iff, fun _ _ => sellClean_iff hsha hI⟩

/-! ### Refusals that leave something behind -/

def refusing : TicketOp → Bool
  | addNewTicket .. => true
  | addTicketToResell .. => true
  | _ => false

theorem refusals_not_clean :
    (∃ b db, StoreInv sha256 b db ∧ ¬BuyClean sha256 refusing db 7 1 5 (drawing 0)) ∧
    ∃ b db, StoreInv sha256 b db ∧ ¬SellClean sha256 refusing db ticketOfUser5.serialize (.ofNat 30) := by
  refine ⟨⟨_, ⟨twoSeats, .empty, .empty⟩, .init _, ?_⟩, ⟨_, _, purchase_inv, ?_⟩⟩
  · intro h
    have hr : Buy.Reaches refusing ⟨twoSeats, .empty, .empty⟩ 7 1 5 (seat 7 "86L") :=
      ⟨fun _ => by decide, rfl, by decide +kernel, rfl, rfl⟩
    cases (buyClean_iff.1 h _ hr).insert
  · intro h
    have hd : Ticket.deserialize ticketOfUser5.serialize =
        .ok (true, issued (seat 7 "86L") 5 (drawing 0)) := by decide +kernel
    have hr : Sell.Reaches sha256 refusing (after purchase).2 ticketOfUser5
        (.ofNat 30) := ⟨rfl, by decide +kernel, by decide +kernel⟩
    have hl : ∀ ti ∈ (after purchase).2.ticketInfo.rows, ti.ticketID ≠ 7 := by decide +kernel
    cases (sellClean_iff sha256_injective purchase_inv).1 h _ hd hr rfl fun ⟨ti, hti, hT⟩ =>
      hl ti hti hT

theorem refusal_clean_purchase :
    BuyClean sha256 (fun _ => false) (after purchase).2 7 1 6 (drawing 1) ∧
    SellClean sha256 (fun _ => false) (after purchase).2 ticketOfUser5.serialize (.ofNat 50) := by
  have h := refusal_clean_iff sha256_injective purchase_inv fun _ => false
  have hfresh : ∀ r ∈ (after purchase).2.ticket.rows, r.validationCode ≠
      sha256 (Ticket.generateValidationCode 10 (drawing 1).dist) := by decide +kernel
  exact ⟨(h.1 7 1 6 (drawing 1)).2 fun _ hr => ⟨hr, rfl, hfresh⟩, (h.2 _ _).2 fun _ _ _ _ _ => rfl⟩

end TicketIST
