import TicketIST.Events
import TicketIST.Outcomes

/-!
# Starting the server again

Before it listens, the server runs `reset_db`: it adds the four events, unless they are there, and
fills `ticket_info` anew.  `TRUNCATE` also restarts the count of ticket numbers, so that the seats it
puts on offer are numbered `1..80` as those of the last start were.  The tables `ticket` and
`resell_tickets` stay as they are, and refer to seats by number.

So what a restart leaves is consistent exactly if no ticket is out for one of these numbers and no
resale is open (`restart_consistent_iff`): for a server that was filled by an earlier start, exactly
if it has sold nothing (`clear_iff_nothing_sold`).
-/

namespace TicketIST

open TicketIST.Lib TicketOp

/-! ### `reset_db` -/

/-- `"INSERT INTO events (name) VALUES (?)"` for each name, up to the first that is taken; `next` is
the count of the column `id`. -/
def EventRepository.insertAll {coll : Text → Text} (next : ℤ) : List Text → EventDB coll → EventDB coll
  | [], db => db
  | name :: names, db =>
    match db.insert { id := next, name } with
    | some db => insertAll (next + 1) names db
    | none => db

def EventRepository.addDummyEvents {coll : Text → Text} (next : ℤ) (db : EventDB coll) :
    EventDB coll :=
  insertAll next
    ["websummit".toList, "taylorswift".toList, "calculo".toList, "fisica2".toList] db

/-- The seat that two values of `rand()` make. -/
def Ticket.generateRandomSeat (rand₁ rand₂ : ℕ) : Text :=
  showInt (rand₁ % 100 : ℕ) ++ [Char.ofNat ('A'.toNat + rand₂ % 26)]

namespace TicketRepository

/-- `TRUNCATE TABLE ticket_info`, for what it does to the rows. -/
def deleteAllTickets (db : TicketDB) : TicketDB := { db with ticketInfo := .empty }

/-- Inserts the rows with the numbers from `next` on: the column `ticketID` counts by itself. -/
def insertAll (next : ℤ) : List (ℤ → TicketInfo) → TicketDB → TicketDB
  | [], db => db
  | row :: rows, db =>
    match db.ticketInfo.insert (row next) with
    | some t => insertAll (next + 1) rows { db with ticketInfo := t }
    | none => db

/-- The rows of the two loops of `resetTickets`.  `rand` are the values that `rand()` returns: one
for the price, then two for the seat. -/
def resetRows (rand : ℕ → ℕ) : List (ℤ → TicketInfo) :=
  [1, 2, 3, 4].flatMap fun eventID : ℕ => (List.range 20).map fun i =>
    let k := 3 * (20 * (eventID - 1) + i)
    fun ticketID =>
      { ticketID, eventID, sellerID := 0, price := .ofNat ((rand k % 10 + 1) * 10)
        seat := Ticket.generateRandomSeat (rand (k + 1)) (rand (k + 2)) }

/-- The count starts at 1 after `TRUNCATE`. -/
def resetTickets (rand : ℕ → ℕ) (db : TicketDB) : TicketDB :=
  insertAll 1 (resetRows rand) (deleteAllTickets db)

end TicketRepository

/-- `reset_db`, the start-up step of the server. -/
def resetDb {coll : Text → Text} (nextEvent : ℤ) (rand : ℕ → ℕ) (s : EventDB coll × TicketDB) :
    EventDB coll × TicketDB :=
  (EventRepository.addDummyEvents nextEvent s.1, TicketRepository.resetTickets rand s.2)

/-! ### The seats on offer after a restart -/

namespace TicketRepository

variable {db : TicketDB} {rand : ℕ → ℕ}

theorem insertAll_tables (next : ℤ) (rows : List (ℤ → TicketInfo)) (db : TicketDB) :
    (insertAll next rows db).ticket = db.ticket ∧
      (insertAll next rows db).resellTickets = db.resellTickets := by
  induction rows generalizing next db with
  | nil => exact ⟨rfl, rfl⟩
  | cons row rows ih =>
    rw [insertAll]
    split
    · exact ih _ _
    · exact ⟨rfl, rfl⟩

/-- Rows that take the number they are given all go in, with consecutive numbers. -/
theorem mem_insertAll {rows : List (ℤ → TicketInfo)} {next : ℤ}
    (hrows : ∀ row ∈ rows, ∀ n, (row n).ticketID = n) (hnext : ∀ ti ∈ db.ticketInfo, ti.ticketID < next)
    {ti : TicketInfo} : ti ∈ (insertAll next rows db).ticketInfo ↔
      ti ∈ db.ticketInfo ∨ ∃ (k : ℕ) (row : ℤ → TicketInfo), rows[k]? = some row ∧
        ti = row (next + k) := by
  induction rows generalizing next db with
  | nil => simp [insertAll]
  | cons row rows ih =>
    have hrow : (row next).ticketID = next := hrows row List.mem_cons_self next
    obtain ⟨t, ht⟩ : ∃ t, db.ticketInfo.insert (row next) = some t :=
      Table.exists_insert fun x hx hk => (hnext x hx).ne (hk.trans hrow)
    have hnext' : ∀ x ∈ t, x.ticketID < next + 1 := by
      intro x hx
      rcases (Table.mem_insert ht).1 hx with hx | rfl
      · exact (hnext x hx).trans (lt_add_one next)
      · rw [hrow]
        exact lt_add_one next
    have hstep : insertAll next (row :: rows) db =
        insertAll (next + 1) rows { db with ticketInfo := t } := by rw [insertAll, ht]
    rw [hstep, ih (fun r hr => hrows r (List.mem_cons_of_mem _ hr)) hnext', Table.mem_insert ht,
      or_assoc]
    refine or_congr_right ?_
    constructor
    · rintro (rfl | ⟨k, r, hr, rfl⟩)
      · exact ⟨0, row, rfl, by simp⟩
      · exact ⟨k + 1, r, hr, by rw [Nat.cast_add, Nat.cast_one, add_right_comm, add_assoc]⟩
    · rintro ⟨k, r, hr, rfl⟩
      cases k with
      | zero =>
        cases hr
        exact .inl (by simp)
      | succ k => exact .inr ⟨k, r, hr, by rw [Nat.cast_add, Nat.cast_one, add_right_comm, add_assoc]⟩

theorem length_resetRows : (resetRows rand).length = 80 := by simp [resetRows]

theorem mem_resetRows {row : ℤ → TicketInfo} (h : row ∈ resetRows rand) (n : ℤ) :
    (row n).ticketID = n ∧ (row n).sellerID = 0 := by
  obtain ⟨e, -, h⟩ := List.mem_flatMap.1 h
  obtain ⟨i, -, rfl⟩ := List.mem_map.1 h
  exact ⟨rfl, rfl⟩

theorem mem_resetTickets {ti : TicketInfo} : ti ∈ (resetTickets rand db).ticketInfo ↔
    ∃ (k : ℕ) (row : ℤ → TicketInfo), (resetRows rand)[k]? = some row ∧ ti = row (1 + k) := by
  have hnext : ∀ ti ∈ (deleteAllTickets db).ticketInfo, ti.ticketID < 1 :=
    fun ti hti => absurd hti (Table.not_mem_empty ti)
  rw [resetTickets, mem_insertAll (fun row hrow n => (mem_resetRows hrow n).1) hnext]
  exact or_iff_right (Table.not_mem_empty ti)

/-- A restart offers the seats `1..80`. -/
theorem listed_resetTickets {T : ℤ} : (resetTickets rand db).Listed T ↔ 1 ≤ T ∧ T ≤ 80 := by
  have hlen : (resetRows rand).length = 80 := length_resetRows
  simp only [TicketDB.Listed, mem_resetTickets]
  constructor
  · rintro ⟨ti, ⟨k, row, hrow, rfl⟩, rfl⟩
    have hk : k < (resetRows rand).length := (List.getElem?_eq_some_iff.1 hrow).1
    rw [(mem_resetRows (List.mem_of_getElem? hrow) _).1]
    omega
  · rintro ⟨h1, h80⟩
    have hk : (T - 1).toNat < (resetRows rand).length := by omega
    have hrow := List.getElem?_eq_getElem hk
    refine ⟨_, ⟨(T - 1).toNat, _, hrow, rfl⟩, ?_⟩
    rw [(mem_resetRows (List.mem_of_getElem? hrow) _).1]
    omega

theorem number_resetTickets {ti : TicketInfo} (h : ti ∈ (resetTickets rand db).ticketInfo) :
    1 ≤ ti.ticketID ∧ ti.ticketID ≤ 80 := by
  have hl : (resetTickets rand db).Listed ti.ticketID := ⟨ti, h, rfl⟩
  exact listed_resetTickets.1 hl

/-- All of them are offered by the shop. -/
theorem seller_resetTickets {ti : TicketInfo} (h : ti ∈ (resetTickets rand db).ticketInfo) :
    ti.sellerID = 0 := by
  obtain ⟨k, row, hrow, rfl⟩ := mem_resetTickets.1 h
  exact (mem_resetRows (List.mem_of_getElem? hrow) _).2

theorem resetTickets_tables : (resetTickets rand db).ticket = db.ticket ∧
    (resetTickets rand db).resellTickets = db.resellTickets := insertAll_tables _ _ _

end TicketRepository

/-! ### What a restart keeps -/

variable {sha : Text → Text}

/-- `r` is the row of a ticket that was bought for `T`. -/
def BoughtFor (sha : Text → Text) (h : History) (T : ℤ) (r : TicketRow) : Prop :=
  ∃ t ∈ purchases h, t.ticketID = T ∧ RowOf sha t r

/-- What the tables say about the tickets of the history `h` is right, and no later purchase takes
a ticket from anyone but the one it buys from. -/
structure Consistent (sha : Text → Text) (h : History) (db : TicketDB) : Prop where
  /-- no seat that the shop offers has a row that was issued for it -/
  fresh : ∀ ti ∈ db.ticketInfo, ti.sellerID = 0 → ∀ r ∈ db.ticket, ¬BoughtFor sha h ti.ticketID r
  /-- a link joins a seat on offer to the row issued for it -/
  link : ∀ x ∈ db.resellTickets, db.Listed x.ticketId ∧
    ∃ r ∈ db.ticket, BoughtFor sha h x.ticketId r ∧ x.hashValCode = r.validationCode
  /-- the rows that a later purchase deletes are the seller's -/
  later : ∀ h' db', Serial (serve sha) (fun _ _ _ => True) db h' db' → ∀ T e u env,
    ∀ ti ∈ db'.ticketInfo, ti.ticketID = T → ∀ r ∈ db'.ticket,
      r ∉ (serve sha (.buyTicket T e u env) db').2.ticket → r.ownerId = ti.sellerID

/-- Before a restart: no ticket is out for a number that the restart uses, and no resale is open. -/
structure Clear (sha : Text → Text) (h : History) (db : TicketDB) : Prop where
  numbers : ∀ T, 1 ≤ T → T ≤ 80 → ∀ r ∈ db.ticket, ¬BoughtFor sha h T r
  resales : ∀ x, x ∉ db.resellTickets

section

variable {b : Book} {db db' : TicketDB}

/-- Seats that were sold are offered by the owners of their tickets. -/
def OwnersSell (b : Book) (db : TicketDB) : Prop :=
  ∀ ti ∈ db.ticketInfo, ∀ t, b ti.ticketID = some t → ti.sellerID = t.buyerID

theorem OwnersSell.list {t : Ticket} {newPrice : Double} (hK : Keeps sha b db)
    (hO : OwnersSell b db) (hsha : Function.Injective sha)
    (hr : Sell.Reaches sha (fun _ => false) db t newPrice) {tk}
    (hi : db.ticketInfo.insert (listing t newPrice) = some tk) (tk') :
    OwnersSell b { db with ticketInfo := tk, resellTickets := tk' } := by
  intro ti hti t' ht'
  rcases (Table.mem_insert hi).1 hti with hti | rfl
  · exact hO ti hti t' ht'
  · obtain ⟨t₀, ht₀, -, hser⟩ := hK.of_reaches hsha hr
    cases ht₀.symm.trans ht'
    exact Ticket.buyerID_of_serialize hser

theorem OwnersSell.step (hK : Keeps sha b db) (hO : OwnersSell b db) (hsha : Function.Injective sha)
    {c : Call} {r : Except Exn Reply} (h : Done sha (fun _ => false) db c r db') :
    OwnersSell (b.after r) db' := by
  cases h with
  | same ht hs => rwa [Book.after_of_ne ht]
  | lost hr => exact fun ti hti => hO ti (Table.mem_delete.1 hti).1
  | bought hr hi =>
    intro ti hti t ht
    rw [Buy.retired_ticketInfo, Buy.mem_sold] at hti
    rw [Book.after, Book.sell_of_ne fun h => hti.2 (h.symm.trans hr.listed.2)] at ht
    exact hO ti hti.1 t ht
  | unrecorded hd hr hi hrec => exact hO.list hK hsha hr hi db.resellTickets
  | listed hd hr hi hi' => exact hO.list hK hsha hr hi _
  | admitted hr hc hu => exact hO

/-- A purchase deletes no row but that of the ticket that was sold for its seat. -/
theorem Keeps.row_of_deleted (hK : Keeps sha b db) {T e u : ℤ} {env : Env} {r : TicketRow}
    {res : Except Exn Reply} (h : Done sha (fun _ => false) db (.buyTicket T e u env) res db')
    (hr : r ∈ db.ticket) (hgone : r ∉ db'.ticket) : ∃ t, b T = some t ∧ RowOf sha t r := by
  cases h with
  | same => exact absurd hr hgone
  | lost => exact absurd hr hgone
  | @bought _ _ _ _ ti tk hreach hi =>
    obtain ⟨y, hy, hyb⟩ := hK.exists_link T
    rw [mem_ticket_of_buy hi hy, not_and, not_not] at hgone
    obtain ⟨hcode, x, hx, rfl⟩ := hgone (.inl hr)
    obtain ⟨t, ht, -⟩ := hK.link hx
    obtain ⟨r₀, hr₀, hrt⟩ := hK.exists_row ht
    have hkey : r.validationCode = r₀.validationCode := by rw [hcode, hyb t ht, hrt.code]
    exact ⟨t, ht, Table.eq_of_key hr hr₀ hkey ▸ hrt⟩

/-- Where owners sell, purchases take rows from sellers only, along every run. -/
theorem rows_taken_from_sellers (hK : Keeps sha b db) (hO : OwnersSell b db)
    (hsha : Function.Injective sha) {h' : History}
    (run : Serial (serve sha) (fun _ _ _ => True) db h' db') {T e u : ℤ} {env : Env}
    {ti : TicketInfo} (hti : ti ∈ db'.ticketInfo) (hT : ti.ticketID = T) {r : TicketRow}
    (hr : r ∈ db'.ticket) (hgone : r ∉ (serve sha (.buyTicket T e u env) db').2.ticket) :
    r.ownerId = ti.sellerID := by
  obtain ⟨b', hK', hO'⟩ : ∃ b', Keeps sha b' db' ∧ OwnersSell b' db' := by
    refine run.inv (I := fun _ db => ∃ b, Keeps sha b db ∧ OwnersSell b db) ⟨b, hK, hO⟩ ?_
    rintro h db c ⟨b, hK, hO⟩ -
    exact ⟨_, hK.step hsha (done_of_serve c), hO.step hK hsha (done_of_serve c)⟩
  obtain ⟨t, ht, hrt⟩ := hK'.row_of_deleted (done_of_serve _) hr hgone
  rw [hO' ti hti t (hT ▸ ht), hrt.owner]

end

section

variable {h : History} {db : TicketDB} {info : Table TicketInfo ℤ TicketInfo.ticketID}
  {allowed : History → TicketDB → Call → Prop} {rand : ℕ → ℕ}

/-- The row of the ticket in the book was issued for its seat. -/
theorem Keeps.exists_boughtFor (hK : Keeps sha (latest h) db) {T : ℤ} {t : Ticket}
    (ht : latest h T = some t) : ∃ r ∈ db.ticket, RowOf sha t r ∧ BoughtFor sha h T r := by
  obtain ⟨r, hr, hrt⟩ := hK.exists_row ht
  exact ⟨r, hr, hrt, t, (mem_of_latest ht).1, (mem_of_latest ht).2, hrt⟩

/-- After a restart from a clear store nothing that was sold is on offer. -/
theorem Clear.not_listed (hC : Clear sha h db) (hK : Keeps sha (latest h) db) {T : ℤ} {t : Ticket}
    (ht : latest h T = some t) : ¬(TicketRepository.resetTickets rand db).Listed T := by
  intro hl
  obtain ⟨h1, h80⟩ := TicketRepository.listed_resetTickets.1 hl
  obtain ⟨r, hr, -, hbought⟩ := hK.exists_boughtFor ht
  exact hC.numbers T h1 h80 r hr hbought

theorem Clear.consistent (hC : Clear sha h db) (hK : Keeps sha (latest h) db)
    (hsha : Function.Injective sha) :
    Consistent sha h (TicketRepository.resetTickets rand db) := by
  have hticket : (TicketRepository.resetTickets rand db).ticket = db.ticket :=
    TicketRepository.resetTickets_tables.1
  have hresell : (TicketRepository.resetTickets rand db).resellTickets = db.resellTickets :=
    TicketRepository.resetTickets_tables.2
  have hno : ∀ x, x ∉ (TicketRepository.resetTickets rand db).resellTickets := by
    rw [hresell]
    exact hC.resales
  have hK' : Keeps sha (latest h) (TicketRepository.resetTickets rand db) := by
    refine ⟨hK.number, ?_, ?_, fun hx => absurd hx (hno _), fun ht hl => absurd hl (hC.not_listed hK ht)⟩
    · rw [hticket]
      exact hK.row
    · rw [hticket]
      exact hK.exists_row
  have hO : OwnersSell (latest h) (TicketRepository.resetTickets rand db) :=
    fun ti hti t ht => absurd ⟨ti, hti, rfl⟩ (hC.not_listed hK ht)
  constructor
  case fresh =>
    rw [hticket]
    intro ti hti _ r hr
    obtain ⟨h1, h80⟩ := TicketRepository.number_resetTickets hti
    exact hC.numbers _ h1 h80 r hr
  case link => exact fun x hx => absurd hx (hno x)
  case later =>
    intro h' db' run T e u env ti hti hT r hr hgone
    exact rows_taken_from_sellers hK' hO hsha run hti hT hr hgone

/-- **A restart keeps the store consistent exactly if nothing refers to the numbers it uses**, after
every serial run. -/
theorem restart_consistent_iff {coll : Text → Text} {events : EventDB coll} (nextEvent : ℤ)
    (hsha : Function.Injective sha)
    (run : Serial (serve sha) (fun _ _ _ => True) ⟨info, .empty, .empty⟩ h db) :
    Consistent sha h (resetDb nextEvent rand (events, db)).2 ↔ Clear sha h db := by
  have hK : Keeps sha (latest h) db := Keeps.of_serial hsha run
  dsimp only [resetDb]
  refine ⟨fun hC => ?_, fun hC => Clear.consistent hC hK hsha⟩
  have hticket : (TicketRepository.resetTickets rand db).ticket = db.ticket :=
    TicketRepository.resetTickets_tables.1
  have hresell : (TicketRepository.resetTickets rand db).resellTickets = db.resellTickets :=
    TicketRepository.resetTickets_tables.2
  have hnumbers : ∀ T, 1 ≤ T → T ≤ 80 → ∀ r ∈ db.ticket, ¬BoughtFor sha h T r := by
    intro T h1 h80 r hr
    rw [← hticket] at hr
    have hl : (TicketRepository.resetTickets rand db).Listed T :=
      TicketRepository.listed_resetTickets.2 ⟨h1, h80⟩
    obtain ⟨ti, hti, rfl⟩ := hl
    exact hC.fresh ti hti (TicketRepository.seller_resetTickets hti) r hr
  refine ⟨hnumbers, fun x hx => ?_⟩
  -- a link needs a seat on offer and a row for it, and the seats on offer have none
  rw [← hresell] at hx
  obtain ⟨hl, r, hr, hbought, -⟩ := hC.link x hx
  obtain ⟨h1, h80⟩ := TicketRepository.listed_resetTickets.1 hl
  rw [hticket] at hr
  exact hnumbers _ h1 h80 r hr hbought

/-- For a store that an earlier start filled, this means that nothing was sold. -/
theorem clear_iff_nothing_sold {db₀ : TicketDB} (hsha : Function.Injective sha)
    (run : Serial (serve sha) allowed
      ⟨(TicketRepository.resetTickets rand db₀).ticketInfo, .empty, .empty⟩ h db) :
    Clear sha h db ↔ purchases h = [] := by
  have hK : Keeps sha (latest h) db := Keeps.of_serial hsha run
  constructor
  · intro hC
    rw [List.eq_nil_iff_forall_not_mem]
    intro t ht
    obtain ⟨t', ht'⟩ := exists_latest ht
    have hnumber : 1 ≤ t.ticketID ∧ t.ticketID ≤ 80 := by
      refine (offers_inv (A := fun ti => 1 ≤ ti.ticketID ∧ ti.ticketID ≤ 80)
        (B := fun t => 1 ≤ t.ticketID ∧ t.ticketID ≤ 80) hsha run ?_ ?_ ?_).2 t ht
      · exact fun ti hti => TicketRepository.number_resetTickets (Table.mem_def.2 hti)
      · exact fun ti u env hti => hti
      · intro h db data newPrice t t₀ _ _ _ _ hser hnum
        rwa [listing, Ticket.ticketID_of_serialize hser]
    obtain ⟨h1, h80⟩ := hnumber
    obtain ⟨r, hr, -, hbought⟩ := hK.exists_boughtFor ht'
    exact hC.numbers _ h1 h80 r hr hbought
  · intro hnone
    have hbook : ∀ T t, latest h T ≠ some t := by
      intro T t ht
      exact absurd (mem_of_latest ht).1 (hnone ▸ List.not_mem_nil)
    refine ⟨fun T _ _ r hr => ?_, fun x hx => ?_⟩
    · obtain ⟨T', t, ht, -⟩ := hK.row hr
      exact absurd ht (hbook T' t)
    · obtain ⟨t, ht, -⟩ := hK.link hx
      exact hbook _ t ht

end

/-! ### Two restarts -/

/-- The tables after a restart in which every value of `rand()` is 0. -/
def restarted (db : TicketDB) : TicketDB := (resetDb 1 (fun _ => 0) ((.empty : EventDB id), db)).2

/-- User 5 buys a seat that is numbered 90. -/
def purchase90 : History × TicketDB :=
  serveAll (serve sha256) [.buyTicket 90 1 5 (drawing 0)] [] ⟨⟨[seat 90 "90Z"], by decide⟩, .empty, .empty⟩

/-- A ticket for seat 90 stays valid through a restart. -/
theorem restart_consistent_seat90 :
    (restarted purchase90.2).ticket.rows.map TicketRow.ownerId = [5] ∧
      Consistent sha256 purchase90.1 (restarted purchase90.2) := by
  have run : Serial (serve sha256) (fun _ _ _ => True)
      ⟨⟨[seat 90 "90Z"], by decide⟩, .empty, .empty⟩ purchase90.1 purchase90.2 :=
    Serial.nil.serveAll ⟨trivial, trivial⟩
  have hbought : (purchases purchase90.1).map Ticket.ticketID = [90] := by decide +kernel
  have hlinks : purchase90.2.resellTickets.rows = [] := by decide +kernel
  have hclear : Clear sha256 purchase90.1 purchase90.2 := by
    constructor
    · rintro T - h80 r - ⟨t, ht, rfl, -⟩
      have ht90 : t.ticketID ∈ [90] := hbought ▸ List.mem_map_of_mem ht
      rw [List.mem_singleton.1 ht90] at h80
      omega
    · intro x hx
      rw [Table.mem_def, hlinks] at hx
      exact List.not_mem_nil hx
  exact ⟨by decide +kernel, (restart_consistent_iff 1 sha256_injective run).2 hclear⟩

/-- User 5 buys seat 7 and puts it on sale, and the server starts again.  Now the shop offers seat 7,
and when user 6 buys it from the shop, the ticket of user 5 is gone. -/
theorem restart_takes_ticket :
    Serial (serve sha256) (fun _ _ _ => True) ⟨twoSeats, .empty, .empty⟩ (after relisting).1
      (after relisting).2 ∧
    ¬Consistent sha256 (after relisting).1 (restarted (after relisting).2) := by
  refine ⟨serial_after ⟨trivial, trivial, trivial⟩, fun hC => ?_⟩
  set db := restarted (after relisting).2
  have hoffer : (⟨7, 1, 0, .ofNat 10, ['0', 'A']⟩ : TicketInfo) ∈ db.ticketInfo.rows := by
    decide +kernel
  have hrow : ∃ r ∈ db.ticket.rows, r.ownerId = 5 := by decide +kernel
  have hrows : ∀ r ∈ (serve sha256 (.buyTicket 7 1 6 (drawing 1)) db).2.ticket.rows,
      r.ownerId = 6 := by decide +kernel
  obtain ⟨r, hr, howner⟩ := hrow
  have hgone : r ∉ (serve sha256 (.buyTicket 7 1 6 (drawing 1)) db).2.ticket := by
    intro hmem
    have := hrows r hmem
    omega
  have hseller := hC.later [] db .nil 7 1 6 (drawing 1) _ hoffer rfl r hr hgone
  rw [howner] at hseller
  cases hseller

end TicketIST
