import TicketIST.Runs

/-!
# Admissions over a serial run

`admissions h T` counts the validations in the history `h` that admitted somebody to the seat `T`,
over all codes that were ever issued for it.  Validation reads the `used` flag of the row of one code;
a resale replaces that row by a fresh one and never reads the flag.  So a seat is admitted once as
long as every purchase that retires a row finds it unused (`admissions_le_one`), and twice in a run
that sells an admitted seat again (`admitted_twice`).
-/

namespace TicketIST

open TicketIST.Lib

def admittedBy : Call × Except Exn Reply → Option Text
  | (.validateTicket code, .ok (.checked true _)) => some code
  | _ => none

def admitted (h : History) : List Text := h.filterMap admittedBy

def codesFor (h : History) (T : ℤ) : List Text :=
  ((purchases h).filter fun t => t.ticketID = T).map Ticket.validationCode

/-- How often a code of `T` was admitted. -/
def admissions (h : History) (T : ℤ) : ℕ := (admitted h).countP (· ∈ codesFor h T)

/-- If the call is a purchase that goes through, the row that it retires is unused. -/
def RetiresUnused (db : TicketDB) : Call → Prop
  | .buyTicket T e u _ => TicketRepository.getNrOfTicketsOwned u db < 6 →
      (TicketRepository.getTicketInfoById T db).any (fun ti => ti.eventID = e) = true →
      ∀ x ∈ db.resellTickets.rows, x.ticketId = T →
        ∀ r ∈ db.ticket.rows, r.validationCode = x.hashValCode → r.used = false
  | _ => True

instance : ∀ db c, Decidable (RetiresUnused db c)
  | db, .buyTicket T e u _ => inferInstanceAs (Decidable
      (TicketRepository.getNrOfTicketsOwned u db < 6 →
        (TicketRepository.getTicketInfoById T db).any (fun ti => ti.eventID = e) = true →
        ∀ x ∈ db.resellTickets.rows, x.ticketId = T →
          ∀ r ∈ db.ticket.rows, r.validationCode = x.hashValCode → r.used = false))
  | _, .getAllAvailableTicketsByEventId _ => isTrue trivial
  | _, .validateTicket _ => isTrue trivial
  | _, .checkIntegrity .. => isTrue trivial
  | _, .sellTicket .. => isTrue trivial

def NewAndUnused (h : History) (db : TicketDB) (c : Call) : Prop :=
  NewCode h db c ∧ RetiresUnused db c

instance : ∀ h db c, Decidable (NewAndUnused h db c) := fun _ _ _ => instDecidableAnd

section

variable {sha : Text → Text} {info : Table TicketInfo ℤ TicketInfo.ticketID} {h : History}
  {db : TicketDB} {T : ℤ}

/-- What the admissions so far say about the rows. -/
structure AdmissionInv (sha : Text → Text) (h : History) (db : TicketDB) : Prop where
  /-- an admitted code was issued -/
  was_issued : ∀ c ∈ admitted h, ∃ t ∈ purchases h, t.validationCode = c
  /-- a seat was admitted at most once -/
  once : ∀ T, admissions h T ≤ 1
  /-- and then the row of its latest purchase is in use -/
  used : ∀ T, 0 < admissions h T → ∃ t, latest h T = some t ∧
    ∀ r ∈ db.ticket, r.validationCode = sha t.validationCode → r.used = true

theorem admitted_snoc (h : History) (x : Call × Except Exn Reply) :
    admitted (h ++ [x]) = admitted h ++ (admittedBy x).toList := by
  unfold admitted
  cases hx : admittedBy x <;> simp [hx]

theorem mem_codesFor {c : Text} :
    c ∈ codesFor h T ↔ ∃ t ∈ purchases h, t.ticketID = T ∧ t.validationCode = c := by
  simp [codesFor, and_assoc]

theorem codesFor_snoc {x : Call × Except Exn Reply} (hb : boughtBy x = none) :
    codesFor (h ++ [x]) T = codesFor h T := by
  rw [codesFor, purchases_snoc, hb, Option.toList_none, List.append_nil, codesFor]

theorem admissions_snoc {x : Call × Except Exn Reply} (hb : boughtBy x = none)
    (ha : admittedBy x = none) : admissions (h ++ [x]) T = admissions h T := by
  rw [admissions, codesFor_snoc hb, admitted_snoc, ha, Option.toList_none, List.append_nil,
    admissions]

theorem AdmissionInv.admissions_bought (hI : AdmissionInv sha h db)
    {x : Call × Except Exn Reply} {t : Ticket} (hb : boughtBy x = some t) (ha : admittedBy x = none)
    (hnew : ∀ t' ∈ purchases h, t'.validationCode ≠ t.validationCode) :
    admissions (h ++ [x]) T = admissions h T := by
  rw [admissions, admitted_snoc, ha, Option.toList_none, List.append_nil, admissions]
  refine List.countP_congr ?_
  intro c hc
  obtain ⟨t', ht', rfl⟩ := hI.was_issued c hc
  have hne := hnew t' ht'
  simp only [mem_codesFor, purchases_snoc, hb, Option.toList_some, List.mem_append,
    List.mem_singleton, decide_eq_true_eq]
  constructor
  · rintro ⟨t'', ht'' | rfl, hT, hc⟩
    · exact ⟨t'', ht'', hT, hc⟩
    · exact absurd hc.symm hne
  · rintro ⟨t'', ht'', hT, hc⟩
    exact ⟨t'', .inl ht'', hT, hc⟩

/-- An admission counts for the seats its code was issued for. -/
theorem admissions_admitted {x : Call × Except Exn Reply} {c : Text} (hb : boughtBy x = none)
    (ha : admittedBy x = some c) :
    admissions (h ++ [x]) T = admissions h T + if c ∈ codesFor h T then 1 else 0 := by
  rw [admissions, codesFor_snoc hb, admitted_snoc, ha, List.countP_append, admissions]
  simp [List.countP_singleton]

theorem RunInv.mem_codesFor_iff (hI : RunInv sha info h db) {t : Ticket} (ht : t ∈ purchases h) :
    t.validationCode ∈ codesFor h T ↔ t.ticketID = T := by
  rw [mem_codesFor]
  constructor
  · rintro ⟨t', ht', rfl, hc⟩
    rw [hI.eq_of_code ht' ht hc]
  · rintro rfl
    exact ⟨t, ht, rfl, rfl⟩

theorem AdmissionInv.same (hA : AdmissionInv sha h db) {x : Call × Except Exn Reply}
    {db' : TicketDB} (hb : boughtBy x = none) (ha : admittedBy x = none)
    (ht : db'.ticket = db.ticket) : AdmissionInv sha (h ++ [x]) db' where
  was_issued := by
    rw [admitted_snoc, purchases_snoc, hb, ha, Option.toList_none, Option.toList_none,
      List.append_nil, List.append_nil]
    exact hA.was_issued
  once T := by
    rw [admissions_snoc hb ha]
    exact hA.once T
  used T := by
    have hl : latest (h ++ [x]) = latest h := by
      unfold latest
      rw [purchases_snoc, hb, Option.toList_none, List.append_nil]
    rw [admissions_snoc hb ha, hl, ht]
    exact hA.used T

theorem AdmissionInv.bought (hA : AdmissionInv sha h db) (hI : RunInv sha info h db)
    (hsha : Function.Injective sha) {e u : ℤ} {env : Env} {ti : TicketInfo} {tk}
    (hc : NewAndUnused h db (.buyTicket T e u env)) (hr : Buy.Reaches (fun _ => false) db T e u ti)
    (hi : db.ticket.insert (Buy.row sha u (issued ti u env)) = some tk) :
    AdmissionInv sha (h ++ [(.buyTicket T e u env, .ok (.ticket (issued ti u env)))])
      (Buy.retired (fun _ => false) T (Buy.sold db T tk)) := by
  have hcount : ∀ T', admissions (h ++ [(Call.buyTicket T e u env,
      .ok (.ticket (issued ti u env)))]) T' = admissions h T' := by
    intro T'
    refine hA.admissions_bought rfl rfl ?_
    intro t' ht' hcode
    exact hc.1 t' ht' (congrArg some hcode.symm)
  constructor
  case was_issued =>
    intro code hcode
    rw [admitted_snoc] at hcode
    obtain ⟨t, ht, rfl⟩ := hA.was_issued code (by simpa [admittedBy] using hcode)
    exact ⟨t, by simp [purchases_snoc, ht], rfl⟩
  case once =>
    intro T'
    rw [hcount]
    exact hA.once T'
  case used =>
    intro T' hpos
    rw [hcount] at hpos
    obtain ⟨t, ht, hu⟩ := hA.used T' hpos
    have hT : (issued ti u env).ticketID = T := hr.listed.2
    have hne : T' ≠ T := by
      rintro rfl
      -- a seat that was admitted is on offer again: the condition says that its row is unused
      obtain ⟨r, hrow, hrt⟩ := hI.store.exists_row ht
      have hev : (TicketRepository.getTicketInfoById T' db).any (fun ti => ti.eventID = e) =
          true := by rw [hr.found]; exact decide_eq_true hr.event
      have hun := hc.2 (hr.count rfl) hev _ (hI.store.keeps.linked ht ⟨ti, hr.listed⟩) rfl r
        hrow hrt.code
      rw [hu r hrow hrt.code] at hun
      cases hun
    refine ⟨t, ?_, ?_⟩
    · rw [latest_snoc, Book.after, Book.sell_of_ne (hT.trans_ne hne.symm), ht]
    · intro r hrow hcode
      rcases (Table.mem_insert hi).1 (Buy.of_mem_retired hrow) with hrow | rfl
      · exact hu r hrow hcode
      · exact absurd (congrArg some (hsha hcode)) (hc.1.book ht)

/-- An admission keeps the invariant: the row was unused, so its seat was not admitted before. -/
theorem AdmissionInv.admit (hA : AdmissionInv sha h db) (hI : RunInv sha info h db)
    (hsha : Function.Injective sha) {code : Text} {r : TicketRow} (hr : r ∈ db.ticket)
    (hc : r.validationCode = sha code) (hu : r.used = false) :
    AdmissionInv sha (h ++ [(.validateTicket code, .ok (.checked true r.info))])
      (TicketRepository.setTicketInUse (sha code) db) := by
  obtain ⟨T₀, t, ht, hrt⟩ := hI.store.row hr
  obtain rfl : t.validationCode = code := hsha (hrt.code.symm.trans hc)
  obtain ⟨hm, rfl⟩ := mem_of_latest ht
  have hcount : ∀ T', admissions (h ++ [(Call.validateTicket t.validationCode,
      .ok (.checked true r.info))]) T' = admissions h T' + if t.ticketID = T' then 1 else 0 := by
    intro T'
    rw [admissions_admitted rfl rfl]
    simp only [hI.mem_codesFor_iff hm]
  have hzero : admissions h t.ticketID = 0 := by
    by_contra hne
    obtain ⟨t', ht', hu'⟩ := hA.used _ (Nat.pos_of_ne_zero hne)
    cases ht.symm.trans ht'
    rw [hu' r hr hrt.code] at hu
    cases hu
  constructor
  case was_issued =>
    intro c hc
    rw [admitted_snoc] at hc
    rcases List.mem_append.1 hc with hc | hc
    · obtain ⟨t', ht', rfl⟩ := hA.was_issued c hc
      exact ⟨t', by simp [purchases_snoc, ht'], rfl⟩
    · cases List.mem_singleton.1 hc
      exact ⟨t, by simp [purchases_snoc, hm], rfl⟩
  case once =>
    intro T'
    rw [hcount]
    split
    · next hT =>
      subst hT
      rw [hzero]
    · exact hA.once T'
  case used =>
    intro T' hpos
    rw [hcount] at hpos
    have hl : latest (h ++ [(Call.validateTicket t.validationCode,
        .ok (.checked true r.info))]) = latest h := latest_snoc ..
    rw [hl]
    by_cases hT : t.ticketID = T'
    · subst hT
      exact ⟨t, ht, fun r' => TicketRepository.used_of_setTicketInUse (.inr rfl)⟩
    · rw [if_neg hT, Nat.add_zero] at hpos
      obtain ⟨t', ht', hu'⟩ := hA.used T' hpos
      exact ⟨t', ht', fun r' => TicketRepository.used_of_setTicketInUse (.inl hu')⟩

theorem AdmissionInv.step (hA : AdmissionInv sha h db) (hI : RunInv sha info h db)
    (hsha : Function.Injective sha) {c : Call} (hc : NewAndUnused h db c) :
    AdmissionInv sha (h ++ [(c, (serve sha c db).1)]) (serve sha c db).2 := by
  have hs := hI.store.served hsha c fun _ _ => hc.1.book
  generalize (serve sha c db).1 = r at hs ⊢
  generalize (serve sha c db).2 = db' at hs ⊢
  cases hs with
  | same hr hv =>
    have hb : boughtBy (c, r) = none := by
      rcases r with x | (l | t | ⟨ok, i⟩ | ok) <;> first | rfl | exact absurd rfl (hr _)
    have ha : admittedBy (c, r) = none := by
      rcases r with x | (l | t | ⟨_ | _, i⟩ | ok) <;> cases c <;>
        first | rfl | exact absurd rfl (hv _ _ rfl)
    exact hA.same hb ha rfl
  | listed hd ht₀ hl hi hi' => exact hA.same rfl rfl rfl
  | bought hr hi => exact hA.bought hI hsha hc hr hi
  | admitted hr hc' hu => exact hA.admit hI hsha hr hc' hu

/-- **One admission per seat**, in a run none of whose purchases retires a row in use. -/
theorem admissions_le_one (hsha : Function.Injective sha)
    (run : Serial (serve sha) NewAndUnused ⟨info, .empty, .empty⟩ h db) (T : ℤ) :
    admissions h T ≤ 1 := by
  have hI : RunInv sha info h db ∧ AdmissionInv sha h db := by
    refine run.inv (I := fun h db => RunInv sha info h db ∧ AdmissionInv sha h db)
      ⟨.of_serial hsha .nil, ?_⟩ ?_
    · exact ⟨nofun, fun _ => Nat.zero_le 1, fun _ hpos => absurd hpos (Nat.lt_irrefl 0)⟩
    · intro h db c ⟨hI, hA⟩ hc
      exact ⟨hI.step hsha hc.1, hA.step hI hsha hc⟩
  exact hI.2.once T

end

/-! ### A seat sold after it was used -/

/-- User 5 is admitted to seat 7, and then puts it on sale; user 6 buys it and is admitted. -/
def usedResale : List Call :=
  [.buyTicket 7 1 5 (drawing 0), .validateTicket codeA,
   .sellTicket ticketOfUser5.serialize (.ofNat 30), .buyTicket 7 1 6 (drawing 1),
   .validateTicket codeB]

theorem admitted_twice : ∃ h db,
    Serial (serve sha256) NewCode ⟨twoSeats, .empty, .empty⟩ h db ∧ admissions h 7 = 2 :=
  ⟨_, _, serial_after (by decide +kernel : AllAllowed _ _ usedResale _ _), by decide +kernel⟩

/-- User 5 puts an unused ticket on sale; user 6 buys it and is admitted. -/
def unusedResale : List Call := resale ++ [.validateTicket codeB]

theorem admissions_unusedResale : admissions (after unusedResale).1 7 ≤ 1 :=
  admissions_le_one sha256_injective (serial_after (by decide +kernel)) 7

end TicketIST
