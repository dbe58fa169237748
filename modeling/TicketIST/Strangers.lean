import TicketIST.Lib.Isolation
import TicketIST.Races
import TicketIST.Trades

/-!
# Calls that do not meet

A call looks at the rows of its seat, of its codes and of its buyer, and changes rows of its seat and
codes only (`Call.footprint`, `Call.keeps_to_footprint`).  Calls about different seats, codes and owners
(`Strangers`) therefore do not see each other's statements: in every interleaving each of them answers
what it answers alone, and the tables end as after the same calls one by one, in whatever order
(`serializable_of_strangers`).
-/

namespace TicketIST

open TicketIST.Lib TicketOp

variable {sha : Text → Text} {b : Book} {db s s' : TicketDB} {F : Footprint AnyRow}

/-! ### The tables as one set of rows -/

/-- A row of one of the three tables. -/
inductive AnyRow
  | ticketInfo (ti : TicketInfo)
  | ticket (r : TicketRow)
  | resell (x : ResellRow)

def TicketDB.shows (db : TicketDB) : Set AnyRow := {y | match y with
  | .ticketInfo ti => ti ∈ db.ticketInfo
  | .ticket r => r ∈ db.ticket
  | .resell x => x ∈ db.resellTickets}

@[simp] theorem mem_shows_ticketInfo {ti : TicketInfo} :
    AnyRow.ticketInfo ti ∈ db.shows ↔ ti ∈ db.ticketInfo := Iff.rfl

@[simp] theorem mem_shows_ticket {r : TicketRow} : AnyRow.ticket r ∈ db.shows ↔ r ∈ db.ticket :=
  Iff.rfl

@[simp] theorem mem_shows_resell {x : ResellRow} :
    AnyRow.resell x ∈ db.shows ↔ x ∈ db.resellTickets := Iff.rfl

theorem rows_eq_of_shows {db db' : TicketDB} (h : db.shows = db'.shows) : db.rows = db'.rows :=
  Rows.ext (Set.ext fun ti => Set.ext_iff.1 h (.ticketInfo ti))
    (Set.ext fun r => Set.ext_iff.1 h (.ticket r)) (Set.ext fun x => Set.ext_iff.1 h (.resell x))

/-! ### The statements -/

section Statements

variable {T u : ℤ} {h : Text} (hs : SameOn F.reads s.shows s'.shows)

include hs

theorem confined_getNrOfTicketsOwned (hr : ∀ r, r.ownerId = u → AnyRow.ticket r ∈ F.reads) :
    Confined exec TicketDB.shows F (getNrOfTicketsOwned u) s s' := by
  refine .query hs (fun _ => rfl) (Table.length_select_congr fun r hu => ?_)
  exact (hs _ (hr r (of_decide_eq_true hu))).symm

omit hs in
/-- Tables with the same rows of a key answer a query for the key in the same way. -/
theorem find?_congr {ρ κ : Type} [DecidableEq κ] {key : ρ → κ} {t t' : Table ρ κ key} {k : κ}
    (h : ∀ r, key r = k → (r ∈ t ↔ r ∈ t')) : t.find? k = t'.find? k := by
  ext r
  rw [Table.find?_eq_some, Table.find?_eq_some]
  exact and_congr_left (h r)

theorem confined_getTicketInfoById (hr : ∀ ti, ti.ticketID = T → AnyRow.ticketInfo ti ∈ F.reads) :
    Confined exec TicketDB.shows F (getTicketInfoById T) s s' :=
  .query hs (fun _ => rfl) (find?_congr fun ti hT => (hs _ (hr ti hT)).symm)

theorem confined_getTicketHash (hr : ∀ r, r.validationCode = h → AnyRow.ticket r ∈ F.reads) :
    Confined exec TicketDB.shows F (getTicketHashByValidationCode h) s s' :=
  .query hs (fun _ => rfl)
    (congrArg (Option.map _) (find?_congr fun r hh => (hs _ (hr r hh)).symm))

theorem confined_existsTicket (hr : ∀ r, r.validationCode = h → AnyRow.ticket r ∈ F.reads) :
    Confined exec TicketDB.shows F (existsTicketWithValidationCode h) s s' :=
  .query hs (fun _ => rfl)
    (congrArg (Option.map _) (find?_congr fun r hh => (hs _ (hr r hh)).symm))

/-- The two states agree on the links of `T`. -/
theorem resold_congr (hr : ∀ x, x.ticketId = T → AnyRow.resell x ∈ F.reads) :
    Buy.Resold s' T ↔ Buy.Resold s T :=
  exists_congr fun x => and_congr_left fun hT => (hs _ (hr x hT)).symm

theorem confined_isTicketInResell (hr : ∀ x, x.ticketId = T → AnyRow.resell x ∈ F.reads) :
    Confined exec TicketDB.shows F (isTicketInResell T) s s' :=
  .query hs (fun _ => rfl) <| Bool.eq_iff_iff.2 <|
    Buy.isTicketInResell_iff.trans ((resold_congr hs hr).trans Buy.isTicketInResell_iff.symm)

theorem confined_getOldTicketValCodeHash (hr : ∀ x, x.ticketId = T → AnyRow.resell x ∈ F.reads)
    (hlink : ∀ x ∈ s.resellTickets, x.ticketId = T → x.hashValCode = h) (hres : Buy.Resold s T) :
    Confined exec TicketDB.shows F (getOldTicketValCodeHash T) s s' := by
  refine .query hs (fun _ => rfl) ?_
  refine Eq.trans ?_ (Buy.getOldTicketValCodeHash_eq hlink hres).symm
  refine Buy.getOldTicketValCodeHash_eq (fun x hx hT => hlink x ?_ hT) ((resold_congr hs hr).2 hres)
  exact (hs _ (hr x hT)).2 hx

theorem confined_makeTicketUnavailable
    (hr : ∀ ti, ti.ticketID = T → AnyRow.ticketInfo ti ∈ F.writes) :
    Confined exec TicketDB.shows F (makeTicketUnavailable T) s s' := by
  have hP : ∀ s : TicketDB, TicketDB.shows (exec (makeTicketUnavailable T) s).2 =
      Patch.apply ⟨{y | ∃ ti, y = .ticketInfo ti ∧ ti.ticketID = T}, ∅⟩ s.shows := by
    intro s
    ext y
    cases y <;> simp [Patch.mem_apply, exec, TicketRepository.makeTicketUnavailable]
  have hw : {y | ∃ ti, y = AnyRow.ticketInfo ti ∧ ti.ticketID = T} ⊆ F.writes := by
    rintro _ ⟨ti, rfl, hT⟩
    exact hr ti hT
  exact .of_patch hs rfl (hP s) (hP s') (hw.trans F.writes_subset)
    (Set.inter_subset_right.trans hw) (Set.empty_subset _)

/-- The rows of a code, set in use, change within what shows them. -/
theorem confined_setTicketInUse (hr : ∀ r, r.validationCode = h → AnyRow.ticket r ∈ F.reads)
    (hw : ∀ r ∈ s.ticket, r.validationCode = h →
      AnyRow.ticket r ∈ F.writes ∧ AnyRow.ticket { r with used := true } ∈ F.writes) :
    Confined exec TicketDB.shows F (setTicketInUse h) s s' := by
  have hP : ∀ s₁ : TicketDB, SameOn F.reads s.shows s₁.shows →
      TicketDB.shows (exec (setTicketInUse h) s₁).2 =
        Patch.apply ⟨{y | ∃ r, y = .ticket r ∧ r.validationCode = h},
          {y | ∃ r ∈ s.ticket, r.validationCode = h ∧ y = .ticket { r with used := true }}⟩
          s₁.shows := by
    intro s₁ hs₁
    ext y
    rcases y with ti | r | x
    · simp [Patch.mem_apply, exec, TicketRepository.setTicketInUse]
    · refine TicketRepository.mem_setTicketInUse.trans ⟨?_, ?_⟩
      · rintro ⟨r', hr', rfl⟩
        by_cases hh : r'.validationCode = h
        · exact .inr ⟨r', (hs₁ _ (hr r' hh)).2 hr', hh, by rw [if_pos hh]⟩
        · rw [if_neg hh]
          exact .inl ⟨hr', by rintro ⟨_, hy, hc⟩; cases hy; exact hh hc⟩
      · rintro (⟨hmem, hnot⟩ | ⟨r', hr', hh, hy⟩)
        · exact ⟨r, hmem, if_neg fun hh => hnot ⟨r, rfl, hh⟩⟩
        · cases hy
          exact ⟨r', (hs₁ _ (hr r' hh)).1 hr', if_pos hh⟩
    · simp [Patch.mem_apply, exec, TicketRepository.setTicketInUse]
  refine .of_patch hs rfl (hP s (.refl _ _)) (hP s' hs) ?_ ?_ ?_
  · rintro _ ⟨r, rfl, hh⟩
    exact hr r hh
  · rintro _ ⟨hmem, r, rfl, hh⟩
    exact (hw r hmem hh).1
  · rintro _ ⟨r, hmem, hh, rfl⟩
    exact (hw r hmem hh).2

theorem confined_removeTicket (hr : ∀ r, r.validationCode = h → AnyRow.ticket r ∈ F.reads)
    (hw : ∀ r ∈ s.ticket, r.validationCode = h → AnyRow.ticket r ∈ F.writes) :
    Confined exec TicketDB.shows F (removeTicket h) s s' := by
  have hP : ∀ s : TicketDB, TicketDB.shows (exec (removeTicket h) s).2 =
      Patch.apply ⟨{y | ∃ r, y = .ticket r ∧ r.validationCode = h}, ∅⟩ s.shows := by
    intro s
    ext y
    cases y <;> simp [Patch.mem_apply, exec, TicketRepository.removeTicket]
  refine .of_patch hs rfl (hP s) (hP s') ?_ ?_ (Set.empty_subset _)
  · rintro _ ⟨r, rfl, hh⟩
    exact hr r hh
  · rintro _ ⟨hmem, r, rfl, hh⟩
    exact hw r hmem hh

theorem confined_removeTicketFromResell (hr : ∀ x, x.ticketId = T → AnyRow.resell x ∈ F.reads)
    (hw : ∀ x ∈ s.resellTickets, x.ticketId = T → AnyRow.resell x ∈ F.writes) :
    Confined exec TicketDB.shows F (removeTicketFromResell T) s s' := by
  have hP : ∀ s : TicketDB, TicketDB.shows (exec (removeTicketFromResell T) s).2 =
      Patch.apply ⟨{y | ∃ x, y = .resell x ∧ x.ticketId = T}, ∅⟩ s.shows := by
    intro s
    ext y
    cases y <;> simp [Patch.mem_apply, exec, TicketRepository.removeTicketFromResell]
  refine .of_patch hs rfl (hP s) (hP s') ?_ ?_ (Set.empty_subset _)
  · rintro _ ⟨x, rfl, hT⟩
    exact hr x hT
  · rintro _ ⟨hmem, x, rfl, hT⟩
    exact hw x hmem hT

/-- An `INSERT` is refused in both states, or adds its row in both. -/
theorem confined_insert {op : TicketOp} {P : TicketDB → Prop} {row : AnyRow} (no yes : op.Ret)
    (hP : P s' ↔ P s) (hno : ∀ s, P s → exec op s = (no, s))
    (hyes : ∀ s, ¬P s → (exec op s).1 = yes ∧
      TicketDB.shows (exec op s).2 = Patch.apply ⟨∅, {row}⟩ s.shows) (hw : row ∈ F.writes) :
    Confined exec TicketDB.shows F op s s' := by
  by_cases h : P s
  · have h' := hP.2 h
    refine .of_patch (P := .none) hs ?_ ?_ ?_ (Set.empty_subset _) ?_ (Set.empty_subset _)
    · rw [hno s h, hno s' h']
    · rw [hno s h, Patch.none_apply]
    · rw [hno s' h', Patch.none_apply]
    · exact (Set.inter_empty _).subset.trans (Set.empty_subset _)
  · have h' := mt hP.1 h
    refine .of_patch hs ((hyes s' h').1.trans (hyes s h).1.symm) (hyes s h).2 (hyes s' h').2
      (Set.empty_subset _) ?_ (Set.singleton_subset_iff.2 hw)
    exact (Set.inter_empty _).subset.trans (Set.empty_subset _)

theorem confined_addNewTicket {th i : Text}
    (hr : ∀ r, r.validationCode = h → AnyRow.ticket r ∈ F.reads)
    (hw : AnyRow.ticket { validationCode := h, ticketHash := th, info := i, ownerId := u } ∈ F.writes) :
    Confined exec TicketDB.shows F (addNewTicket h th i u) s s' := by
  refine confined_insert hs (P := fun s => ∃ r ∈ s.ticket, r.validationCode = h) false true
    ?_ (fun s => TicketRepository.addNewTicket_none) (fun s hn => ?_) hw
  · exact exists_congr fun r => and_congr_left fun hh => (hs _ (hr r hh)).symm
  · obtain ⟨tk, hi⟩ := Table.exists_insert (t := s.ticket)
      (r := { validationCode := h, ticketHash := th, info := i, ownerId := u })
      fun r hmem hh => hn ⟨r, hmem, hh⟩
    rw [exec, TicketRepository.addNewTicket_some hi]
    refine ⟨rfl, ?_⟩
    ext y
    cases y <;> simp [Patch.mem_apply, Table.mem_insert hi]

theorem confined_addTicketInfo {ti : TicketInfo}
    (hr : ∀ x, x.ticketID = ti.ticketID → AnyRow.ticketInfo x ∈ F.reads)
    (hw : AnyRow.ticketInfo ti ∈ F.writes) :
    Confined exec TicketDB.shows F (addTicketInfo ti) s s' := by
  refine confined_insert hs (P := fun s => ∃ x ∈ s.ticketInfo, x.ticketID = ti.ticketID)
    false true ?_ (fun s => TicketRepository.addTicketInfo_none) (fun s hn => ?_) hw
  · exact exists_congr fun x => and_congr_left fun hT => (hs _ (hr x hT)).symm
  · obtain ⟨tk, hi⟩ := Table.exists_insert (t := s.ticketInfo) (r := ti)
      fun x hmem hT => hn ⟨x, hmem, hT⟩
    rw [exec, TicketRepository.addTicketInfo_some hi]
    refine ⟨rfl, ?_⟩
    ext y
    cases y <;> simp [Patch.mem_apply, Table.mem_insert hi]

theorem confined_addTicketToResell
    (hr : ∀ x, x.hashValCode = h → AnyRow.resell x ∈ F.reads)
    (hw : AnyRow.resell { hashValCode := h, ticketId := T } ∈ F.writes) :
    Confined exec TicketDB.shows F (addTicketToResell h T) s s' := by
  refine confined_insert hs (P := fun s => ∃ x ∈ s.resellTickets, x.hashValCode = h) false true
    ?_ (fun s => TicketRepository.addTicketToResell_none) (fun s hn => ?_) hw
  · exact exists_congr fun x => and_congr_left fun hh => (hs _ (hr x hh)).symm
  · obtain ⟨tk, hi⟩ := Table.exists_insert (t := s.resellTickets)
      (r := { hashValCode := h, ticketId := T }) fun x hmem hh => hn ⟨x, hmem, hh⟩
    rw [exec, TicketRepository.addTicketToResell_some hi]
    refine ⟨rfl, ?_⟩
    ext y
    cases y <;> simp [Patch.mem_apply, Table.mem_insert hi]

end Statements

/-! ### What a call looks at, and what it may change -/

namespace Call

/-- The codes that a call draws or is shown, and that of the ticket that a purchase retires. -/
def codes (b : Book) : Call → Set Text
  | buyTicket T _ _ env =>
    {y | y = Ticket.generateValidationCode 10 env.dist ∨ ∃ t, b T = some t ∧ y = t.validationCode}
  | validateTicket code => {code}
  | checkIntegrity code _ => {code}
  | sellTicket data _ => {y | ∃ t, Ticket.deserialize data = .ok (true, t) ∧ y = t.validationCode}
  | getAllAvailableTicketsByEventId _ => ∅

/-- The owners of the rows that a call changes. -/
def owners (b : Book) : Call → Set ℤ
  | buyTicket T _ u _ => {v | v = u ∨ ∃ t, b T = some t ∧ v = t.buyerID}
  | validateTicket code => {v | ∃ T t, b T = some t ∧ t.validationCode = code ∧ v = t.buyerID}
  | _ => ∅

/-- The rows of the call's seat, of its codes and of its buyer; those of its seat and codes may change. -/
def footprint (sha : Text → Text) (b : Book) (c : Call) : Footprint AnyRow where
  reads := {y | match y with
    | .ticketInfo ti => c.concerns = some ti.ticketID
    | .ticket r => c.buyer? = some r.ownerId ∨ r.validationCode ∈ sha '' c.codes b
    | .resell x => c.concerns = some x.ticketId ∨ x.hashValCode ∈ sha '' c.codes b}
  writes := {y | match y with
    | .ticketInfo ti => c.concerns = some ti.ticketID
    | .ticket r => r.validationCode ∈ sha '' c.codes b ∧ r.ownerId ∈ c.owners b
    | .resell x => c.concerns = some x.ticketId ∧ x.hashValCode ∈ sha '' c.codes b}
  writes_subset := by
    rintro (ti | r | x) h
    · exact h
    · exact .inr h.1
    · exact .inl h.1

/-- The call is not the query for all offers of an event. -/
def Single : Call → Prop
  | getAllAvailableTicketsByEventId _ => False
  | _ => True

end Call

/-- The calls are about different seats and codes, and the buyer of the first owns no row that the second
changes. -/
structure Strangers (b : Book) (c c' : Call) : Prop where
  seats : ∀ T, c.concerns = some T → c'.concerns ≠ some T
  codes : Disjoint (c.codes b) (c'.codes b)
  buyer : ∀ u, c.buyer? = some u → u ∉ c'.owners b

theorem Strangers.apart {c c' : Call} (h : Strangers b c c') (hsha : Function.Injective sha) :
    Disjoint (c.footprint sha b).reads (c'.footprint sha b).writes := by
  have hcodes : ∀ {x}, x ∈ sha '' c.codes b → x ∉ sha '' c'.codes b := by
    rintro _ ⟨y, hy, rfl⟩ ⟨y', hy', heq⟩
    rw [hsha heq] at hy'
    exact Set.disjoint_left.1 h.codes hy hy'
  refine Set.disjoint_left.2 ?_
  rintro (ti | r | x) hread hwrite
  · exact h.seats _ hread hwrite
  · rcases hread with hu | hcode
    · exact h.buyer _ hu hwrite.2
    · exact hcodes hcode hwrite.1
  · rcases hread with hT | hcode
    · exact h.seats _ hT hwrite.1
    · exact hcodes hcode hwrite.2

/-! ### A purchase keeps to its footprint -/

section Buy

variable {T e u : ℤ} {env : Env} {t t₀ : Ticket}

/-- What a purchase of `T` by `u` finds at its seat, alone: the links of `T` lead to the row of its ticket,
and that row is of its owner or of the buyer. -/
structure Buy.Settled (sha : Text → Text) (b : Book) (T u : ℤ) (s : TicketDB) : Prop where
  link : ∀ x ∈ s.resellTickets, x.ticketId = T →
    ∃ t, b T = some t ∧ x.hashValCode = sha t.validationCode
  owner : ∀ t, b T = some t → ∀ r ∈ s.ticket, r.validationCode = sha t.validationCode →
    r.ownerId = u ∨ r.ownerId = t.buyerID

theorem Keeps.settled (hK : Keeps sha b db) (T u : ℤ) : Buy.Settled sha b T u db where
  link x hx hT := hT ▸ hK.link hx
  owner t ht r hr hc := by
    obtain ⟨r', hr', hrt⟩ := hK.exists_row ht
    obtain rfl : r = r' := Table.eq_of_key hr hr' (hc.trans hrt.code.symm)
    exact .inr hrt.owner

namespace Buy

theorem Settled.mono (h : Settled sha b T u s) (hlink : ∀ x ∈ s'.resellTickets, x ∈ s.resellTickets)
    (hrow : ∀ r ∈ s'.ticket, r ∈ s.ticket ∨ r.ownerId = u) : Settled sha b T u s' where
  link x hx := h.link x (hlink x hx)
  owner t ht r hr hc := (hrow r hr).elim (fun hr => h.owner t ht r hr hc) .inl

variable (sha b T e u env) in
/-- The footprint of the purchase. -/
abbrev print : Footprint AnyRow := (Call.buyTicket T e u env).footprint sha b

theorem code_mem (ht₀ : b T = some t₀) :
    sha t₀.validationCode ∈ sha '' (Call.buyTicket T e u env).codes b :=
  Set.mem_image_of_mem sha (.inr ⟨t₀, ht₀, rfl⟩)

theorem local_retire (ht₀ : b T = some t₀) (hs : Settled sha b T u s) :
    (retire t (sha t₀.validationCode)).Local exec TicketDB.shows (print sha b T e u env) s := by
  refine ⟨fun s' h => confined_removeTicket h (fun r hc => ?_) fun r hr hc => ?_, trivial⟩
  · exact .inr (hc ▸ code_mem ht₀)
  · exact ⟨hc ▸ code_mem ht₀, (hs.owner t₀ ht₀ r hr hc).imp_right fun ho => ⟨t₀, ht₀, ho⟩⟩

theorem local_unlist (ht : t.ticketID = T) (ht₀ : b T = some t₀) (hs : Settled sha b T u s) :
    (unlist t (sha t₀.validationCode)).Local exec TicketDB.shows (print sha b T e u env) s := by
  refine ⟨fun s' h => ?_, local_retire ht₀ (hs.mono (fun x hx => (Table.mem_delete.1 hx).1)
    fun r hr => .inl hr)⟩
  rw [ht]
  refine confined_removeTicketFromResell h (fun x hT => .inl (congrArg some hT.symm)) ?_
  intro x hx hT
  obtain ⟨t₁, ht₁, hc⟩ := hs.link x hx hT
  exact ⟨congrArg some hT.symm, hc ▸ code_mem ht₁⟩

theorem local_old (ht : t.ticketID = T) (hs : Settled sha b T u s) (hres : Resold s T) :
    (old t).Local exec TicketDB.shows (print sha b T e u env) s := by
  obtain ⟨t₀, ht₀⟩ : ∃ t₀, b T = some t₀ := by
    obtain ⟨x, hx, hT⟩ := hres
    exact (hs.link x hx hT).imp fun _ h => h.1
  have hlink : ∀ x ∈ s.resellTickets, x.ticketId = T → x.hashValCode = sha t₀.validationCode := by
    intro x hx hT
    obtain ⟨t₁, ht₁, hc⟩ := hs.link x hx hT
    rwa [Option.some.inj (ht₀.symm.trans ht₁)]
  have hold := getOldTicketValCodeHash_eq hlink hres
  refine ⟨fun s' h => ?_, ?_⟩
  · rw [ht]
    exact confined_getOldTicketValCodeHash h (fun x hT => .inl (congrArg some hT.symm)) hlink hres
  · rw [ht, exec, hold]
    exact local_unlist ht ht₀ hs

theorem local_resell (ht : t.ticketID = T) (hs : Settled sha b T u s) :
    (resell t).Local exec TicketDB.shows (print sha b T e u env) s := by
  refine ⟨fun s' h => ?_, ?_⟩
  · rw [ht]
    exact confined_isTicketInResell h fun x hT => .inl (congrArg some hT.symm)
  · rw [ht]
    by_cases hres : Resold s T
    · rw [exec, isTicketInResell_iff.2 hres]
      exact local_old ht hs hres
    · rw [exec, eq_false_of_ne_true (mt isTicketInResell_iff.1 hres)]
      trivial

theorem local_insert (ht : t.ticketID = T)
    (hcode : t.validationCode = Ticket.generateValidationCode 10 env.dist)
    (hs : Settled sha b T u s) :
    (insert sha u t).Local exec TicketDB.shows (print sha b T e u env) s := by
  have hmem : sha t.validationCode ∈ sha '' (Call.buyTicket T e u env).codes b :=
    Set.mem_image_of_mem sha (.inl hcode)
  refine ⟨fun s' h => ?_, ?_⟩
  · exact confined_addNewTicket h (fun r hc => .inr (hc ▸ hmem)) ⟨hmem, .inl rfl⟩
  · cases hi : s.ticket.insert (row sha u t) with
    | none =>
      have hr : ∃ r ∈ s.ticket, r.validationCode = sha t.validationCode :=
        Table.insert_eq_none.1 hi
      rw [exec, TicketRepository.addNewTicket_none hr]
      trivial
    | some tk =>
      rw [exec, TicketRepository.addNewTicket_some hi]
      refine local_resell ht (hs.mono (fun x hx => hx) fun r hr => ?_)
      exact ((Table.mem_insert hi).1 hr).imp_right fun heq => by rw [heq]; rfl

theorem local_delete (ht : t.ticketID = T)
    (hcode : t.validationCode = Ticket.generateValidationCode 10 env.dist)
    (hs : Settled sha b T u s) :
    (delete sha T u t).Local exec TicketDB.shows (print sha b T e u env) s :=
  ⟨fun _ h => confined_makeTicketUnavailable h fun _ hT => congrArg some hT.symm,
    local_insert ht hcode (hs.mono (fun _ hx => hx) fun _ hr => .inl hr)⟩

theorem local_count (hs : Settled sha b T u s) :
    (count sha T e u env).Local exec TicketDB.shows (print sha b T e u env) s := by
  refine ⟨fun s' h => confined_getNrOfTicketsOwned h fun r hu => .inl (congrArg some hu.symm), ?_⟩
  dsimp only [exec]
  split
  · trivial
  · refine ⟨fun s' h => confined_getTicketInfoById h fun ti hT => congrArg some hT.symm, ?_⟩
    dsimp only [exec]
    split
    · trivial
    · next ti hti =>
      split
      · trivial
      · exact local_delete (Table.find?_eq_some.1 hti).2 rfl hs

end Buy

end Buy

/-! ### So does every call -/

theorem local_sell {data : Text} {newPrice : Double} {t : Ticket}
    (hd : Ticket.deserialize data = .ok (true, t)) :
    (Sell.check sha t newPrice).Local exec TicketDB.shows
      ((Call.sellTicket data newPrice).footprint sha b) s := by
  have hmem : sha t.validationCode ∈ sha '' (Call.sellTicket data newPrice).codes b :=
    Set.mem_image_of_mem sha ⟨t, hd, rfl⟩
  have hT := concerns_sellTicket newPrice hd
  refine ⟨fun s' h => confined_getTicketHash h fun r hc => .inr (hc ▸ hmem), ?_⟩
  dsimp only [exec]
  split
  · trivial
  · split
    · trivial
    · split
      · trivial
      · refine ⟨fun s' h => confined_addTicketInfo h (fun x hx => hT.trans (congrArg some hx.symm)) hT,
          ?_⟩
        dsimp only
        split
        · trivial
        · refine ⟨fun s' h => confined_addTicketToResell h (fun x hc => .inr (hc ▸ hmem)) ⟨hT, hmem⟩, ?_⟩
          dsimp only
          split <;> trivial

theorem local_validate (hK : Keeps sha b db) (hsha : Function.Injective sha) (code : Text) :
    (Validate.look sha code).Local exec TicketDB.shows
      ((Call.validateTicket code).footprint sha b) db := by
  have hmem : sha code ∈ sha '' (Call.validateTicket code).codes b :=
    Set.mem_image_of_mem sha (Set.mem_singleton code)
  refine ⟨fun s' h => confined_existsTicket h fun r hc => .inr (hc ▸ hmem), ?_⟩
  dsimp only [exec]
  split
  · split
    · trivial
    · refine ⟨fun s' h => confined_setTicketInUse h (fun r hc => .inr (hc ▸ hmem)) ?_, trivial⟩
      intro r hr hc
      obtain ⟨T, t, ht, hrt⟩ := hK.row hr
      have hcode : t.validationCode = code := hsha (hrt.code.symm.trans hc)
      have hown : r.ownerId ∈ (Call.validateTicket code).owners b := ⟨T, t, ht, hcode, hrt.owner⟩
      exact ⟨⟨hc ▸ hmem, hown⟩, ⟨hc ▸ hmem, hown⟩⟩
  · trivial

theorem local_checkIntegrity (code integrityCode : Text) :
    (TicketService.checkIntegrity sha code integrityCode).Local exec TicketDB.shows
      ((Call.checkIntegrity code integrityCode).footprint sha b) s := by
  have hmem : sha code ∈ sha '' (Call.checkIntegrity code integrityCode).codes b :=
    Set.mem_image_of_mem sha (Set.mem_singleton code)
  refine ⟨fun s' h => confined_getTicketHash h fun r hc => .inr (hc ▸ hmem), ?_⟩
  dsimp only [exec, Prog.bind]
  split
  · trivial
  · next hash _ =>
    cases TicketService.integrityCode hash with
    | error x => trivial
    | ok real =>
      rw [Prog.ofExcept_ok, Prog.ret_bind]
      split <;> trivial

/-- **Every call keeps to its footprint** in a store that keeps a book. -/
theorem Call.keeps_to_footprint (hK : Keeps sha b db) (hsha : Function.Injective sha) {c : Call}
    (hc : c.Single) : (c.prog sha).Local exec TicketDB.shows (c.footprint sha b) db := by
  cases c with
  | buyTicket T e u env => exact (Buy.local_count (hK.settled T u)).map
  | validateTicket code =>
    refine Prog.Local.map ?_
    rw [Validate.validateTicket_eq]
    exact local_validate hK hsha code
  | checkIntegrity code integrityCode => exact (local_checkIntegrity code integrityCode).map
  | sellTicket data newPrice =>
    refine Prog.Local.map ?_
    rw [Sell.sellTicket_eq]
    rcases hd : Ticket.deserialize data with x | ⟨_ | _, t⟩
    · trivial
    · trivial
    · exact local_sell hd
  | getAllAvailableTicketsByEventId e => exact hc.elim

/-! ### Every interleaving -/

variable {ι : Type} [DecidableEq ι] {calls : ι → Call} {tr : List (Firing ι TicketSig)}
  {c : Config ι TicketSig Exn Reply TicketDB}
  {allowed : List (Firing ι TicketSig) → Config ι TicketSig Exn Reply TicketDB → ι → Prop}

omit [DecidableEq ι] in
theorem separate_of_strangers (hK : Keeps sha b db) (hsha : Function.Injective sha)
    (hc : ∀ i, (calls i).Single) (hstr : ∀ i j, i ≠ j → Strangers b (calls i) (calls j)) :
    Separate exec TicketDB.shows (fun i => (calls i).footprint sha b) (start sha calls db) where
  keeps i := Call.keeps_to_footprint hK hsha (hc i)
  apart i j hij := (hstr i j hij).apart hsha

/-- The store after the calls of the list, served one by one. -/
def served (sha : Text → Text) (calls : ι → Call) (l : List ι) (db : TicketDB) : TicketDB :=
  l.foldl (fun db i => (serve sha (calls i) db).2) db

/-- **Calls that do not meet are serializable**: however their statements interleave, a call that has
ended answered what it answers alone, and once all have ended the tables have the rows that they have
after the same calls one by one, in whatever order, in which they answer the same too. -/
theorem serializable_of_strangers (hK : Keeps sha b db) (hsha : Function.Injective sha)
    (hc : ∀ i, (calls i).Single) (hstr : ∀ i j, i ≠ j → Strangers b (calls i) (calls j))
    (run : Runs exec allowed (start sha calls db) tr c) :
    (∀ i, (c.pool i).next = none → c.pool i = .ofExcept (serve sha (calls i) db).1) ∧
      ∀ l : List ι, l.Nodup → (∀ l₁ i l₂, l = l₁ ++ i :: l₂ →
          (serve sha (calls i) (served sha calls l₁ db)).1 = (serve sha (calls i) db).1) ∧
        ((∀ i, i ∈ l) → (∀ i, (c.pool i).next = none) →
          c.st.rows = (served sha calls l db).rows) := by
  have hsep := separate_of_strangers hK hsha hc hstr
  refine ⟨fun i hi => (run.outcome_alone hsep hi).1, fun l hl => ⟨?_, fun hall hend => ?_⟩⟩
  · rintro l₁ i l₂ rfl
    refine hsep.run_serially ?_
    have hsub : (l₁ ++ [i]).Sublist (l₁ ++ i :: l₂) :=
      (List.Sublist.refl l₁).append ((List.nil_sublist l₂).cons_cons i)
    exact hsub.nodup hl
  · exact rows_eq_of_shows (run.shows_serially hsep hend hl hall)

def twoBuys : Bool → Call
  | false => buysResold
  | true => buysFresh

theorem strangers_twoBuys (i j : Bool) (h : i ≠ j) :
    Strangers (latest (after relisting).1) (twoBuys i) (twoBuys j) := by
  have h7 : latest (after relisting).1 7 = some ticketOfUser5 := by decide +kernel
  have h8 : latest (after relisting).1 8 = none := by decide +kernel
  have hcodes : Disjoint (buysResold.codes (latest (after relisting).1))
      (buysFresh.codes (latest (after relisting).1)) := by
    refine Set.disjoint_left.2 ?_
    rintro y hy (hy' | ⟨t, ht, -⟩)
    · subst hy'
      rcases hy with hy | ⟨t, ht, hy⟩
      · exact absurd hy (by decide)
      · cases h7.symm.trans ht
        exact absurd hy (by decide)
    · cases h8.symm.trans ht
  rcases i with _ | _ <;> rcases j with _ | _
  · exact absurd rfl h
  · refine ⟨fun T hT hT' => absurd (hT.trans hT'.symm) (by decide), hcodes, ?_⟩
    rintro _ ⟨⟩ (hv | ⟨t, ht, -⟩)
    · exact absurd hv (by decide)
    · cases h8.symm.trans ht
  · refine ⟨fun T hT hT' => absurd (hT.trans hT'.symm) (by decide), hcodes.symm, ?_⟩
    rintro _ ⟨⟩ (hv | ⟨t, ht, hv⟩)
    · exact absurd hv (by decide)
    · cases h7.symm.trans ht
      exact absurd hv (by decide)
  · exact absurd rfl h

/-- The two purchases take turns, statement by statement, and both go through as they would alone. -/
theorem serializable_of_twoBuys : ∃ tr c,
    Runs exec Anyhow (start sha256 twoBuys (after relisting).2) tr c ∧
    (c.pool false = .ofExcept (serve sha256 buysResold (after relisting).2).1 ∧
      c.pool true = .ofExcept (serve sha256 buysFresh (after relisting).2).1) ∧
    c.st.rows = (served sha256 twoBuys [true, false] (after relisting).2).rows ∧
    c.st.rows = (served sha256 twoBuys [false, true] (after relisting).2).rows := by
  have run := Runs.nil.replay (admits_anyhow exec [false, true, false, true, false, true, false, true,
    true, false, false, false, false] [] (start sha256 twoBuys (after relisting).2))
  obtain ⟨hout, hrows⟩ := serializable_of_strangers relisting_inv.keeps sha256_injective
    (by rintro (_ | _) <;> trivial) strangers_twoBuys run
  have hend : ∀ i, ((replay exec [false, true, false, true, false, true, false, true, true, false,
      false, false, false] [] (start sha256 twoBuys (after relisting).2)).2.pool i).next = none := by
    decide +kernel
  exact ⟨_, _, run, ⟨hout false (hend false), hout true (hend true)⟩,
    (hrows [true, false] (by decide)).2 (by decide) hend,
    (hrows [false, true] (by decide)).2 (by decide) hend⟩

end TicketIST
