import TicketIST.Races

/-!
# A resale among its buyers

One seller lists the seat of the ticket `t` again while any number of buyers try to buy it.  The
seller publishes the listing first and records the link from the seat to his code afterwards; a buyer
looks for the link only after he has bought.  So a fast buyer finds no link, and the seller's row
survives him.

`retired_iff` says when it does not: when some buyer still goes through the resale part of his
purchase after the link is recorded.  The invariant `ResaleInv` follows the link.  Until somebody
removes it, every buyer who has seen it carries the seller's code hash; once it was removed, the
seller's row is gone or somebody is about to remove it.
-/

namespace TicketIST

open TicketIST.Lib TicketOp

variable {ι : Type} [DecidableEq ι] {sha : Text → Text}

/-- The seller's call lists the seat of `t`, all other calls try to buy it and draw other codes, and
a link of the seat leads to the seller's row. -/
structure Resale (sha : Text → Text) (t : Ticket) (s : ι) (calls : ι → Call) (db : TicketDB) :
    Prop where
  sell : ∃ data p, calls s = .sellTicket data p ∧ Ticket.deserialize data = .ok (true, t)
  buy : ∀ i, i ≠ s → ∃ e u env, calls i = .buyTicket t.ticketID e u env ∧
    Ticket.generateValidationCode 10 env.dist ≠ t.validationCode
  link : ∀ x ∈ db.resellTickets, x.ticketId = t.ticketID → x.hashValCode = sha t.validationCode

structure Retired (sha : Text → Text) (t : Ticket) (db : TicketDB) : Prop where
  row : ∀ r ∈ db.ticket, r.validationCode ≠ sha t.validationCode
  link : ⟨sha t.validationCode, t.ticketID⟩ ∉ db.resellTickets

def records (s : ι) (h : Text) (T : ℤ) : Firing ι TicketSig → Bool
  | ⟨i, .addTicketToResell h' T', ok⟩ => i = s && h' = h && T' = T && ok
  | _ => false

def unlists (T : ℤ) (e : Firing ι TicketSig) : Bool := e.op = removeTicketFromResell T

def looksUp (T : ℤ) (e : Firing ι TicketSig) : Bool := e.op = isTicketInResell T || unlists T e

/-- The code hash that a buyer is about to retire, in the last two stages of a purchase. -/
def held : TicketProg Reply → Option Text
  | .call (removeTicketFromResell _) k => match (k ()).next with
    | some (removeTicket h) => some h
    | _ => none
  | .call (removeTicket h) _ => some h
  | _ => none

/-- Where a thread is: at a stage of the listing, or at one of a purchase with another code. -/
def AtResale (sha : Text → Text) (t : Ticket) (s i : ι) (p : TicketProg Reply) : Prop :=
  if i = s then ∃ newPrice q, p = Reply.sold <$> q ∧ Sell.Stage sha t newPrice q
  else ∃ e u env q, p = Reply.ticket <$> q ∧ Buy.Stage sha t.ticketID e u env q ∧
    Ticket.generateValidationCode 10 env.dist ≠ t.validationCode

/-! ### What the history says -/

section History

variable (s : ι) (h : Text) (T : ℤ) (tr : List (Firing ι TicketSig))

def Recorded : Prop := ∃ e ∈ tr, records s h T e = true

def Unlisted : Prop := ∃ e ∈ tr, unlists T e = true

/-- The links of `T` were removed after the link was recorded. -/
def UnlistedAfter : Prop :=
  Before (fun e => records s h T e = true) (fun e => unlists T e = true) tr

/-- A buyer went through the resale part of his purchase after the link was recorded. -/
def LookedUpAfter : Prop :=
  Before (fun e => records s h T e = true) (fun e => looksUp T e = true) tr

variable {s h T tr} {e : Firing ι TicketSig}

theorem exists_mem_snoc {α : Type} {p : α → Prop} {l : List α} {a : α} :
    (∃ x ∈ l ++ [a], p x) ↔ (∃ x ∈ l, p x) ∨ p a := by
  simp [or_and_right, exists_or]

theorem recorded_snoc : Recorded s h T (tr ++ [e]) ↔ Recorded s h T tr ∨ records s h T e = true :=
  exists_mem_snoc

omit [DecidableEq ι] in
theorem unlisted_snoc : Unlisted T (tr ++ [e]) ↔ Unlisted T tr ∨ unlists T e = true :=
  exists_mem_snoc

omit [DecidableEq ι] in
theorem not_unlisted_of_snoc (hn : ¬Unlisted T (tr ++ [e])) : ¬Unlisted T tr := by
  intro hu
  exact hn (unlisted_snoc.2 (.inl hu))

theorem unlistedAfter_snoc : UnlistedAfter s h T (tr ++ [e]) ↔
    UnlistedAfter s h T tr ∨ Recorded s h T tr ∧ unlists T e = true := before_snoc

theorem lookedUpAfter_snoc : LookedUpAfter s h T (tr ++ [e]) ↔
    LookedUpAfter s h T tr ∨ Recorded s h T tr ∧ looksUp T e = true := before_snoc

theorem recorded_keep (hr : records s h T e = false) :
    Recorded s h T (tr ++ [e]) ↔ Recorded s h T tr := by
  simp [recorded_snoc, hr]

omit [DecidableEq ι] in
theorem unlisted_keep (hu : unlists T e = false) : Unlisted T (tr ++ [e]) ↔ Unlisted T tr := by
  simp [unlisted_snoc, hu]

theorem unlistedAfter_keep (hu : unlists T e = false) :
    UnlistedAfter s h T (tr ++ [e]) ↔ UnlistedAfter s h T tr := by
  simp [unlistedAfter_snoc, hu]

theorem lookedUpAfter_keep (hl : looksUp T e = false) :
    LookedUpAfter s h T (tr ++ [e]) ↔ LookedUpAfter s h T tr := by
  simp [lookedUpAfter_snoc, hl]

theorem LookedUpAfter.recorded (hl : LookedUpAfter s h T tr) : Recorded s h T tr := by
  obtain ⟨tr₁, tr₂, rfl, ⟨e, he, hr⟩, -⟩ := hl
  exact ⟨e, List.mem_append_left _ he, hr⟩

theorem UnlistedAfter.lookedUp (hu : UnlistedAfter s h T tr) : LookedUpAfter s h T tr := by
  obtain ⟨tr₁, tr₂, htr, hr, e, he, hq⟩ := hu
  exact ⟨tr₁, tr₂, htr, hr, e, he, Bool.or_eq_true_iff.2 (.inr hq)⟩

theorem UnlistedAfter.unlisted (hu : UnlistedAfter s h T tr) : Unlisted T tr := by
  obtain ⟨tr₁, tr₂, rfl, -, e, he, hq⟩ := hu
  exact ⟨e, List.mem_append_right _ he, hq⟩

end History

/-- The link and the row while the calls go on. -/
structure ResaleInv (h : Text) (T : ℤ) (s : ι) (tr : List (Firing ι TicketSig))
    (c : Config ι TicketSig Exn Reply TicketDB) : Prop where
  /-- a link of the seat leads to the seller's row -/
  link : ∀ x ∈ c.st.resellTickets, x.ticketId = T → x.hashValCode = h
  /-- the seller has succeeded when he has recorded the link -/
  seller : c.pool s = .ret (.sold true) ↔ Recorded s h T tr
  /-- before the link is removed, a buyer who has seen it finds it … -/
  seen : ¬Unlisted T tr → ∀ i, (c.pool i).next = some (getOldTicketValCodeHash T) →
    Buy.Resold c.st T
  /-- … and carries its hash … -/
  holds : ¬Unlisted T tr → ∀ i, (c.pool i).next = some (removeTicketFromResell T) →
    Buy.Resold c.st T ∧ held (c.pool i) = some h
  /-- … and is not yet about to remove the row -/
  keeps : ¬Unlisted T tr → ∀ i x, (c.pool i).next ≠ some (removeTicket x)
  /-- afterwards the row is gone, or about to go -/
  gone : Unlisted T tr → (∀ r ∈ c.st.ticket, r.validationCode ≠ h) ∨
    ∃ i, (c.pool i).next = some (removeTicket h)
  /-- once recorded, the link is there until it is removed -/
  recorded : Recorded s h T tr → (Buy.Resold c.st T ↔ ¬UnlistedAfter s h T tr)
  /-- a buyer who looks for the recorded link removes it, unless somebody else does -/
  looked : LookedUpAfter s h T tr → UnlistedAfter s h T tr ∨
    ∃ i, (c.pool i).next = some (getOldTicketValCodeHash T) ∨
      (c.pool i).next = some (removeTicketFromResell T)

section Steps

variable {h : Text} {T : ℤ} {s i : ι} {tr : List (Firing ι TicketSig)}
  {c : Config ι TicketSig Exn Reply TicketDB} {op : TicketOp} {k : op.Ret → TicketProg Reply}

def inResale : Option TicketOp → Bool
  | some (getOldTicketValCodeHash _) => true
  | some (removeTicketFromResell _) => true
  | some (removeTicket _) => true
  | _ => false

/-- A step that neither records nor removes the link leaves the link as it was. -/
theorem ResaleInv.recorded_of_keep (hI : ResaleInv h T s tr c) {e : Firing ι TicketSig}
    (hrec : records s h T e = false) (hun : unlists T e = false) (hr : Recorded s h T (tr ++ [e])) :
    Buy.Resold c.st T ↔ ¬UnlistedAfter s h T (tr ++ [e]) := by
  rw [unlistedAfter_keep hun]
  exact hI.recorded ((recorded_keep hrec).1 hr)

/-- A removed row stays removed, and who is about to remove it stays so, whoever else steps. -/
theorem ResaleInv.gone_of_ne (hI : ResaleInv h T s tr c) (hp : c.pool i = .call op k)
    (hop : removeTicket h ≠ op) (htk : (exec op c.st).2.ticket = c.st.ticket)
    (hu : Unlisted T tr) : (∀ r ∈ (c.fire exec i op k).st.ticket, r.validationCode ≠ h) ∨
      ∃ j, ((c.fire exec i op k).pool j).next = some (removeTicket h) := by
  rcases hI.gone hu with hg | ⟨j, hj⟩
  · left
    intro r hr
    have hr' : r ∈ c.st.ticket := htk ▸ hr
    exact hg r hr'
  · right
    refine ⟨j, ?_⟩
    rwa [fire_pool_of_next hp hj hop]

/-- Who is about to remove the link stays so while somebody else steps. -/
theorem ResaleInv.looked_of_ne (hI : ResaleInv h T s tr c) (hp : c.pool i = .call op k)
    (hold : getOldTicketValCodeHash T ≠ op) (hrem : removeTicketFromResell T ≠ op)
    (hun : unlists T (⟨i, op, (exec op c.st).1⟩ : Firing ι TicketSig) = false)
    (hl : LookedUpAfter s h T tr) :
    UnlistedAfter s h T (tr ++ [⟨i, op, (exec op c.st).1⟩]) ∨
      ∃ j, ((c.fire exec i op k).pool j).next = some (getOldTicketValCodeHash T) ∨
        ((c.fire exec i op k).pool j).next = some (removeTicketFromResell T) := by
  rcases hI.looked hl with hu | ⟨j, hj | hj⟩
  · exact .inl ((unlistedAfter_keep hun).2 hu)
  · refine .inr ⟨j, .inl ?_⟩
    rwa [fire_pool_of_next hp hj hold]
  · refine .inr ⟨j, .inr ?_⟩
    rwa [fire_pool_of_next hp hj hrem]

/-- A step that changes nothing outside the resale part of a purchase keeps the invariant. -/
theorem ResaleInv.frame (hI : ResaleInv h T s tr c) (hp : c.pool i = .call op k)
    (hop : inResale (some op) = false) (hk : inResale (k (exec op c.st).1).next = false)
    (hl : looksUp T (⟨i, op, (exec op c.st).1⟩ : Firing ι TicketSig) = false)
    (hrec : records s h T ⟨i, op, (exec op c.st).1⟩ = false)
    (hs : i = s → k (exec op c.st).1 ≠ .ret (.sold true))
    (hres : (exec op c.st).2.resellTickets = c.st.resellTickets)
    (htk : ∀ r ∈ (exec op c.st).2.ticket, r.validationCode = h → r ∈ c.st.ticket) :
    ResaleInv h T s (tr ++ [⟨i, op, (exec op c.st).1⟩]) (c.fire exec i op k) := by
  have hun : unlists T (⟨i, op, (exec op c.st).1⟩ : Firing ι TicketSig) = false :=
    (Bool.or_eq_false_iff.1 hl).2
  have hU : ¬Unlisted T (tr ++ [⟨i, op, (exec op c.st).1⟩]) → ¬Unlisted T tr := by
    intro hn hu
    exact hn ((unlisted_keep hun).2 hu)
  have hresold : Buy.Resold (c.fire exec i op k).st T ↔ Buy.Resold c.st T := by
    simp [Buy.Resold, Config.fire, hres]
  -- the threads in the resale part are the same as before
  have hpool : ∀ j o, inResale (some o) = true → ((c.fire exec i op k).pool j).next = some o →
      (c.pool j).next = some o ∧ (c.fire exec i op k).pool j = c.pool j := by
    intro j o ho hj
    rcases fire_next_cases hj with ⟨-, hj⟩ | hsame
    · rw [hj, ho] at hk
      cases hk
    · exact hsame
  have hpool' : ∀ j o, inResale (some o) = true → (c.pool j).next = some o →
      ((c.fire exec i op k).pool j).next = some o := by
    intro j o ho hj
    rwa [fire_pool_of_next hp hj]
    rintro rfl
    rw [ho] at hop
    cases hop
  constructor
  case link =>
    intro x hx
    exact hI.link x (hres ▸ hx)
  case seller =>
    rw [recorded_keep hrec, ← hI.seller]
    by_cases his : s = i
    · subst his
      rw [fire_pool_self, hp]
      exact iff_of_false (hs rfl) fun h => by cases h
    · rw [fire_pool_of_ne his]
  case seen =>
    intro hn j hj
    obtain ⟨hj, -⟩ := hpool j _ rfl hj
    exact hresold.2 (hI.seen (hU hn) j hj)
  case holds =>
    intro hn j hj
    obtain ⟨hj, hsame⟩ := hpool j _ rfl hj
    rw [hresold, hsame]
    exact hI.holds (hU hn) j hj
  case keeps =>
    intro hn j x hj
    obtain ⟨hj, -⟩ := hpool j _ rfl hj
    exact hI.keeps (hU hn) j x hj
  case gone =>
    intro hu
    rcases hI.gone ((unlisted_keep hun).1 hu) with hg | ⟨j, hj⟩
    · left
      intro r hr hc
      exact hg r (htk r hr hc) hc
    · exact .inr ⟨j, hpool' j _ rfl hj⟩
  case recorded =>
    intro hr
    rw [hresold]
    exact hI.recorded_of_keep hrec hun hr
  case looked =>
    intro hl'
    rw [unlistedAfter_keep hun]
    rcases hI.looked ((lookedUpAfter_keep hl).1 hl') with hu | ⟨j, hj | hj⟩
    · exact .inl hu
    · exact .inr ⟨j, .inl (hpool' j _ rfl hj)⟩
    · exact .inr ⟨j, .inr (hpool' j _ rfl hj)⟩

theorem ResaleInv.seller_of_ne (hI : ResaleInv h T s tr c) (his : i ≠ s)
    (hrec : records s h T ⟨i, op, (exec op c.st).1⟩ = false) :
    (c.fire exec i op k).pool s = .ret (.sold true) ↔
      Recorded s h T (tr ++ [⟨i, op, (exec op c.st).1⟩]) := by
  rw [fire_pool_of_ne his.symm, hI.seller, recorded_keep hrec]

theorem ResaleInv.record (hI : ResaleInv h T s tr c) {k : Bool → TicketProg Reply}
    (hp : c.pool s = .call (addTicketToResell h T) k) (hk : k true = .ret (.sold true))
    {tk} (hi : c.st.resellTickets.insert ⟨h, T⟩ = some tk) :
    ResaleInv h T s (tr ++ [⟨s, addTicketToResell h T, (exec (addTicketToResell h T) c.st).1⟩])
      (c.fire exec s (addTicketToResell h T) k) := by
  have hexec : exec (addTicketToResell h T) c.st = (true, { c.st with resellTickets := tk }) :=
    TicketRepository.addTicketToResell_some hi
  have hst : (c.fire exec s (addTicketToResell h T) k).st = { c.st with resellTickets := tk } :=
    congrArg Prod.snd hexec
  have hret : k (exec (addTicketToResell h T) c.st).1 = .ret (.sold true) := by rw [hexec, hk]
  have hself : (c.fire exec s (addTicketToResell h T) k).pool s = .ret (.sold true) := by
    rw [fire_pool_self, hret]
  have hnot : ¬Recorded s h T tr := by
    intro hr
    rw [hI.seller.2 hr] at hp
    cases hp
  have hpool : ∀ j o, ((c.fire exec s (addTicketToResell h T) k).pool j).next = some o →
      (c.pool j).next = some o ∧ (c.fire exec s (addTicketToResell h T) k).pool j = c.pool j := by
    intro j o hj
    rcases fire_next_cases hj with ⟨-, hj⟩ | hsame
    · rw [hret] at hj
      cases hj
    · exact hsame
  have hresold : Buy.Resold (c.fire exec s (addTicketToResell h T) k).st T := by
    rw [hst]
    exact ⟨⟨h, T⟩, (Table.mem_insert hi).2 (.inr rfl), rfl⟩
  have hrec : records s h T ⟨s, addTicketToResell h T, (exec (addTicketToResell h T) c.st).1⟩ =
      true := by
    rw [hexec]
    simp [records]
  have hUA : ¬UnlistedAfter s h T
      (tr ++ [⟨s, addTicketToResell h T, (exec (addTicketToResell h T) c.st).1⟩]) := by
    rw [unlistedAfter_snoc]
    rintro (hu | ⟨hr, -⟩)
    · exact hnot hu.lookedUp.recorded
    · exact hnot hr
  constructor
  case link =>
    intro x hx hT
    rw [hst] at hx
    rcases (Table.mem_insert hi).1 hx with hx | rfl
    · exact hI.link x hx hT
    · rfl
  case seller => exact iff_of_true hself (recorded_snoc.2 (.inr hrec))
  case seen => exact fun _ _ _ => hresold
  case holds =>
    intro hn j hj
    obtain ⟨hj, hsame⟩ := hpool j _ hj
    rw [hsame]
    exact ⟨hresold, (hI.holds (not_unlisted_of_snoc hn) j hj).2⟩
  case keeps =>
    intro hn j x hj
    obtain ⟨hj, -⟩ := hpool j _ hj
    exact hI.keeps (not_unlisted_of_snoc hn) j x hj
  case gone =>
    intro hu
    exact hI.gone_of_ne hp (fun h => by cases h) (by rw [hexec]) ((unlisted_keep rfl).1 hu)
  case recorded => exact fun _ => iff_of_true hresold hUA
  case looked =>
    intro hl
    rcases lookedUpAfter_snoc.1 hl with hl | ⟨hr, -⟩
    · exact absurd hl.recorded hnot
    · exact absurd hr hnot

theorem ResaleInv.lookup (hI : ResaleInv h T s tr c) (his : i ≠ s) {k : Bool → TicketProg Reply}
    (hp : c.pool i = .call (isTicketInResell T) k)
    (htrue : (k true).next = some (getOldTicketValCodeHash T)) (hfalse : (k false).next = none) :
    ResaleInv h T s (tr ++ [⟨i, isTicketInResell T, (exec (isTicketInResell T) c.st).1⟩])
      (c.fire exec i (isTicketInResell T) k) := by
  have hself : Buy.Resold c.st T ∧
        (k (exec (isTicketInResell T) c.st).1).next = some (getOldTicketValCodeHash T) ∨
      ¬Buy.Resold c.st T ∧ (k (exec (isTicketInResell T) c.st).1).next = none := by
    cases hb : (exec (isTicketInResell T) c.st).1 with
    | true => exact .inl ⟨Buy.isTicketInResell_iff.1 hb, htrue⟩
    | false =>
      refine .inr ⟨?_, hfalse⟩
      intro hr
      cases hb.symm.trans (Buy.isTicketInResell_iff.2 hr)
  constructor
  case link => exact hI.link
  case seller => exact hI.seller_of_ne his rfl
  case seen =>
    intro hn j hj
    rcases fire_next_cases hj with ⟨-, hj⟩ | ⟨hj, -⟩
    · rcases hself with ⟨hr, -⟩ | ⟨-, hk⟩
      · exact hr
      · rw [hk] at hj
        cases hj
    · exact hI.seen (not_unlisted_of_snoc hn) j hj
  case holds =>
    intro hn j hj
    rcases fire_next_cases hj with ⟨-, hj⟩ | ⟨hj, hsame⟩
    · rcases hself with ⟨-, hk⟩ | ⟨-, hk⟩ <;> rw [hk] at hj <;> cases hj
    · rw [hsame]
      exact hI.holds (not_unlisted_of_snoc hn) j hj
  case keeps =>
    intro hn j x hj
    rcases fire_next_cases hj with ⟨-, hj⟩ | ⟨hj, -⟩
    · rcases hself with ⟨-, hk⟩ | ⟨-, hk⟩ <;> rw [hk] at hj <;> cases hj
    · exact hI.keeps (not_unlisted_of_snoc hn) j x hj
  case gone =>
    intro hu
    exact hI.gone_of_ne hp (fun h => by cases h) rfl ((unlisted_keep rfl).1 hu)
  case recorded =>
    intro hr
    exact hI.recorded_of_keep rfl rfl hr
  case looked =>
    intro hl
    rcases lookedUpAfter_snoc.1 hl with hl | ⟨hr, -⟩
    · exact hI.looked_of_ne hp (fun h => by cases h) (fun h => by cases h) rfl hl
    · -- whoever looks after the record finds the link, unless it was removed
      rcases hself with ⟨-, hk⟩ | ⟨hnr, -⟩
      · refine .inr ⟨i, .inl ?_⟩
        rw [fire_pool_self, hk]
      · have hu : UnlistedAfter s h T tr := by
          by_contra hu
          exact hnr ((hI.recorded hr).2 hu)
        exact .inl ((unlistedAfter_keep rfl).2 hu)

theorem ResaleInv.readOld (hI : ResaleInv h T s tr c) (his : i ≠ s) {k : Text → TicketProg Reply}
    (hp : c.pool i = .call (getOldTicketValCodeHash T) k)
    (hk : ∀ x, (k x).next = some (removeTicketFromResell T) ∧ held (k x) = some x) :
    ResaleInv h T s
      (tr ++ [⟨i, getOldTicketValCodeHash T, (exec (getOldTicketValCodeHash T) c.st).1⟩])
      (c.fire exec i (getOldTicketValCodeHash T) k) := by
  constructor
  case link => exact hI.link
  case seller => exact hI.seller_of_ne his rfl
  case seen =>
    intro hn j hj
    rcases fire_next_cases hj with ⟨-, hj⟩ | ⟨hj, -⟩
    · rw [(hk _).1] at hj
      cases hj
    · exact hI.seen (not_unlisted_of_snoc hn) j hj
  case holds =>
    intro hn j hj
    rcases fire_next_cases hj with ⟨rfl, -⟩ | ⟨hj, hsame⟩
    · -- the hash he has just read is the one in the link, which is still there
      have hr : Buy.Resold c.st T :=
        hI.seen (not_unlisted_of_snoc hn) j (by rw [hp, Prog.next_call])
      refine ⟨hr, ?_⟩
      rw [fire_pool_self, (hk _).2]
      exact congrArg some (Buy.getOldTicketValCodeHash_eq hI.link hr)
    · rw [hsame]
      exact hI.holds (not_unlisted_of_snoc hn) j hj
  case keeps =>
    intro hn j x hj
    rcases fire_next_cases hj with ⟨-, hj⟩ | ⟨hj, -⟩
    · rw [(hk _).1] at hj
      cases hj
    · exact hI.keeps (not_unlisted_of_snoc hn) j x hj
  case gone =>
    intro hu
    exact hI.gone_of_ne hp (fun h => by cases h) rfl ((unlisted_keep rfl).1 hu)
  case recorded =>
    intro hr
    exact hI.recorded_of_keep rfl rfl hr
  case looked =>
    intro _
    refine .inr ⟨i, .inr ?_⟩
    rw [fire_pool_self]
    exact (hk _).1

theorem ResaleInv.unlist (hI : ResaleInv h T s tr c) (his : i ≠ s) {k : Unit → TicketProg Reply}
    (hp : c.pool i = .call (removeTicketFromResell T) k)
    (hk : ∀ x, held (c.pool i) = some x → (k ()).next = some (removeTicket x)) :
    ResaleInv h T s
      (tr ++ [⟨i, removeTicketFromResell T, (exec (removeTicketFromResell T) c.st).1⟩])
      (c.fire exec i (removeTicketFromResell T) k) := by
  have hun : unlists T (⟨i, removeTicketFromResell T, ()⟩ : Firing ι TicketSig) = true :=
    decide_eq_true rfl
  have hU : Unlisted T (tr ++ [⟨i, removeTicketFromResell T, ()⟩]) := unlisted_snoc.2 (.inr hun)
  have hmem : ∀ {x}, x ∈ (exec (removeTicketFromResell T) c.st).2.resellTickets ↔
      x ∈ c.st.resellTickets ∧ x.ticketId ≠ T := by
    simp [exec, TicketRepository.removeTicketFromResell]
  have hnone : ¬Buy.Resold (c.fire exec i (removeTicketFromResell T) k).st T := by
    rintro ⟨x, hx, hT⟩
    exact (hmem.1 hx).2 hT
  have hafter : ∀ hr : Recorded s h T tr,
      UnlistedAfter s h T (tr ++ [⟨i, removeTicketFromResell T, ()⟩]) :=
    fun hr => unlistedAfter_snoc.2 (.inr ⟨hr, hun⟩)
  constructor
  case link =>
    intro x hx hT
    exact absurd hT (hmem.1 hx).2
  case seller => exact hI.seller_of_ne his rfl
  case seen => exact fun hn => absurd hU hn
  case holds => exact fun hn => absurd hU hn
  case keeps => exact fun hn => absurd hU hn
  case gone =>
    intro _
    by_cases hu : Unlisted T tr
    · exact hI.gone_of_ne hp (fun h => by cases h) rfl hu
    · -- the first to remove the link carries the seller's hash
      have hheld := (hI.holds hu i (by rw [hp, Prog.next_call])).2
      refine .inr ⟨i, ?_⟩
      rw [fire_pool_self]
      exact hk h hheld
  case recorded =>
    intro hr
    exact iff_of_false hnone fun hn => hn (hafter ((recorded_keep rfl).1 hr))
  case looked =>
    intro hl
    left
    rcases lookedUpAfter_snoc.1 hl with hl | ⟨hr, -⟩
    · exact hafter hl.recorded
    · exact hafter hr

theorem ResaleInv.remove (hI : ResaleInv h T s tr c) (his : i ≠ s) {x : Text}
    {k : Unit → TicketProg Reply} (hp : c.pool i = .call (removeTicket x) k) :
    ResaleInv h T s (tr ++ [⟨i, removeTicket x, (exec (removeTicket x) c.st).1⟩])
      (c.fire exec i (removeTicket x) k) := by
  have hu : Unlisted T tr := by
    by_contra hn
    exact hI.keeps hn i x (by rw [hp, Prog.next_call])
  have hU : Unlisted T (tr ++ [⟨i, removeTicket x, ()⟩]) := unlisted_snoc.2 (.inl hu)
  have hmem : ∀ {r}, r ∈ (exec (removeTicket x) c.st).2.ticket ↔
      r ∈ c.st.ticket ∧ r.validationCode ≠ x := by
    simp [exec, TicketRepository.removeTicket]
  constructor
  case link => exact hI.link
  case seller => exact hI.seller_of_ne his rfl
  case seen => exact fun hn => absurd hU hn
  case holds => exact fun hn => absurd hU hn
  case keeps => exact fun hn => absurd hU hn
  case gone =>
    intro _
    rcases hI.gone hu with hg | ⟨j, hj⟩
    · left
      intro r hr
      exact hg r (hmem.1 hr).1
    · by_cases hji : j = i
      · -- he was the one about to remove the seller's row
        subst hji
        rw [hp] at hj
        cases hj
        left
        intro r hr
        exact (hmem.1 hr).2
      · refine .inr ⟨j, ?_⟩
        rwa [fire_pool_of_ne hji]
  case recorded =>
    intro hr
    exact hI.recorded_of_keep rfl rfl hr
  case looked =>
    intro hl
    exact hI.looked_of_ne hp (fun h => by cases h) (fun h => by cases h) rfl
      ((lookedUpAfter_keep rfl).1 hl)

theorem ResaleInv.step_sell {t : Ticket} (hI : ResaleInv (sha t.validationCode) t.ticketID s tr c)
    {newPrice : Double} {k : op.Ret → TicketProg Bool}
    (hp : c.pool s = .call op fun r => Reply.sold <$> k r)
    (hs : Sell.Stage sha t newPrice (.call op k)) :
    ResaleInv (sha t.validationCode) t.ticketID s (tr ++ [⟨s, op, (exec op c.st).1⟩])
      (c.fire exec s op fun r => Reply.sold <$> k r) := by
  cases hs with
  | check =>
    refine hI.frame hp rfl ?_ rfl rfl (fun _ h => ?_) rfl fun r hr _ => hr
    · rw [Prog.next_map]
      dsimp only
      (repeat' split) <;> rfl
    · obtain ⟨b, hb, -⟩ := Prog.map_eq_ret h
      dsimp only at hb
      (repeat' split at hb) <;> cases hb
  | list =>
    refine hI.frame hp rfl ?_ rfl rfl (fun _ h => ?_) ?_ fun r hr _ => ?_
    · rw [Prog.next_map]
      dsimp only
      split <;> rfl
    · obtain ⟨b, hb, -⟩ := Prog.map_eq_ret h
      dsimp only at hb
      split at hb <;> cases hb
    · dsimp only [exec, TicketRepository.addTicketInfo]
      split <;> rfl
    · dsimp only [exec, TicketRepository.addTicketInfo] at hr
      split at hr <;> exact hr
  | record =>
    cases hi : c.st.resellTickets.insert ⟨sha t.validationCode, t.ticketID⟩ with
    | some tk => exact hI.record hp rfl hi
    | none =>
      have hexec : exec (addTicketToResell (sha t.validationCode) t.ticketID) c.st =
          (false, c.st) := TicketRepository.addTicketToResell_none (Table.insert_eq_none.1 hi)
      refine hI.frame hp rfl ?_ rfl ?_ (fun _ h => ?_) ?_ fun r hr _ => ?_
      · rw [hexec]
        rfl
      · rw [hexec]
        simp [records]
      · rw [hexec] at h
        cases h
      · rw [hexec]
      · rwa [hexec] at hr

theorem ResaleInv.step_buy {t : Ticket} (hI : ResaleInv (sha t.validationCode) t.ticketID s tr c)
    (hsha : Function.Injective sha) (his : i ≠ s) {e u : ℤ} {env : Env}
    {k : op.Ret → TicketProg Ticket} (hp : c.pool i = .call op fun r => Reply.ticket <$> k r)
    (hs : Buy.Stage sha t.ticketID e u env (.call op k))
    (hnew : Ticket.generateValidationCode 10 env.dist ≠ t.validationCode) :
    ResaleInv (sha t.validationCode) t.ticketID s (tr ++ [⟨i, op, (exec op c.st).1⟩])
      (c.fire exec i op fun r => Reply.ticket <$> k r) := by
  cases hs with
  | count =>
    refine hI.frame hp rfl ?_ rfl rfl (fun h => absurd h his) rfl fun r hr _ => hr
    rw [Prog.next_map]
    dsimp only
    split <;> rfl
  | find =>
    refine hI.frame hp rfl ?_ rfl rfl (fun h => absurd h his) rfl fun r hr _ => hr
    rw [Prog.next_map]
    dsimp only
    (repeat' split) <;> rfl
  | delete ti hT => exact hI.frame hp rfl rfl rfl rfl (fun h => absurd h his) rfl fun r hr _ => hr
  | insert ti hT =>
    refine hI.frame hp rfl ?_ rfl rfl (fun h => absurd h his) ?_ fun r hr hc => ?_
    · rw [Prog.next_map]
      dsimp only
      split <;> rfl
    · dsimp only [exec, TicketRepository.addNewTicket]
      split <;> rfl
    · dsimp only [exec, TicketRepository.addNewTicket] at hr
      split at hr
      · next tk hi =>
        rcases (Table.mem_insert hi).1 hr with hr | rfl
        exacts [hr, absurd (hsha hc) hnew]
      · exact hr
  | resell ti hT =>
    have hT' : (issued ti u env).ticketID = t.ticketID := hT
    rw [hT'] at hp ⊢
    exact hI.lookup his hp (by rw [Prog.next_map, ← hT']; rfl) rfl
  | old ti hT =>
    have hT' : (issued ti u env).ticketID = t.ticketID := hT
    rw [hT'] at hp ⊢
    refine hI.readOld his hp fun x => ⟨?_, rfl⟩
    rw [Prog.next_map, ← hT']
    rfl
  | unlist ti hT x =>
    have hT' : (issued ti u env).ticketID = t.ticketID := hT
    rw [hT'] at hp ⊢
    refine hI.unlist his hp fun y hy => ?_
    rw [hp] at hy
    cases hy
    rfl
  | retire ti hT x => exact hI.remove his hp

theorem AtResale.step {t : Ticket} (h : AtResale sha t s i (.call op k)) (db : TicketDB) :
    AtResale sha t s i (k (exec op db).1) := by
  unfold AtResale at h ⊢
  split at h
  · next his =>
    rw [if_pos his]
    obtain ⟨newPrice, q, hq, hs⟩ := h
    obtain ⟨k', rfl, rfl⟩ := Prog.map_eq_call hq.symm
    exact ⟨newPrice, _, rfl, hs.step _⟩
  · next his =>
    rw [if_neg his]
    obtain ⟨e, u, env, q, hq, hs, hnew⟩ := h
    obtain ⟨k', rfl, rfl⟩ := Prog.map_eq_call hq.symm
    exact ⟨e, u, env, _, rfl, hs.step db, hnew⟩

end Steps

/-! ### The end of a resale -/

def hasSold : TicketProg Reply → Bool
  | .ret (.sold ok) => ok
  | _ => false

theorem eq_of_hasSold {p : TicketProg Reply} (h : hasSold p = true) : p = .ret (.sold true) := by
  rcases p with (l | t | ⟨ok, info⟩ | ok) | x | op
  case ret.sold => obtain rfl : ok = true := h; rfl
  all_goals cases h

section

variable {t : Ticket} {s : ι} {calls : ι → Call} {db : TicketDB} {tr : List (Firing ι TicketSig)}
  {c : Config ι TicketSig Exn Reply TicketDB}

omit [DecidableEq ι] in
theorem Resale.prog_seller (hR : Resale sha t s calls db) :
    ∃ p, (calls s).prog sha = Reply.sold <$> Sell.check sha t p := by
  obtain ⟨data, p, hcall, hd⟩ := hR.sell
  refine ⟨p, ?_⟩
  rw [hcall, Call.prog, Sell.sellTicket_eq, hd]
  rfl

theorem Resale.atResale (hR : Resale sha t s calls db) (i : ι) :
    AtResale sha t s i ((calls i).prog sha) := by
  unfold AtResale
  split
  · next his =>
    subst his
    obtain ⟨p, hp⟩ := hR.prog_seller
    exact ⟨p, _, hp, .check⟩
  · next his =>
    obtain ⟨e, u, env, hcall, hnew⟩ := hR.buy i his
    rw [hcall]
    exact ⟨e, u, env, _, rfl, .count, hnew⟩

theorem Resale.inv_start (hR : Resale sha t s calls db) :
    ResaleInv (sha t.validationCode) t.ticketID s [] (start sha calls db) := by
  have hrec : ¬Recorded s (sha t.validationCode) t.ticketID [] := by
    rintro ⟨e, he, -⟩
    cases he
  have hun : ¬Unlisted t.ticketID ([] : List (Firing ι TicketSig)) := by
    rintro ⟨e, he, -⟩
    cases he
  have hnext : ∀ i o, inResale (some o) = true → ((start sha calls db).pool i).next ≠ some o := by
    intro i o ho hi
    dsimp only [start] at hi
    by_cases his : i = s
    · obtain ⟨p, hp⟩ := hR.prog_seller
      rw [his, hp] at hi
      cases hi
      cases ho
    · obtain ⟨e, u, env, hcall, -⟩ := hR.buy i his
      rw [hcall] at hi
      cases hi
      cases ho
  constructor
  case link => exact hR.link
  case seller =>
    refine iff_of_false ?_ hrec
    obtain ⟨p, hp⟩ := hR.prog_seller
    dsimp only [start]
    rw [hp]
    intro h
    cases h
  case seen => exact fun _ i hi => absurd hi (hnext i _ rfl)
  case holds => exact fun _ i hi => absurd hi (hnext i _ rfl)
  case keeps => exact fun _ i x hi => hnext i _ rfl hi
  case gone => exact fun hu => absurd hu hun
  case recorded => exact fun hr => absurd hr hrec
  case looked => exact fun hl => absurd hl not_before_nil

/-- The invariant holds in every interleaving. -/
theorem Resale.inv (hsha : Function.Injective sha) (hR : Resale sha t s calls db)
    (run : Runs exec Anyhow (start sha calls db) tr c) :
    ResaleInv (sha t.validationCode) t.ticketID s tr c := by
  refine run.inv_threads (A := AtResale sha t s)
    (I := ResaleInv (sha t.validationCode) t.ticketID s) hR.atResale
    (fun i op k db h => h.step db) hR.inv_start ?_
  intro tr c i op k hI hp hA _
  unfold AtResale at hA
  split at hA
  · next his =>
    subst his
    obtain ⟨newPrice, q, hq, hs⟩ := hA
    obtain ⟨k', rfl, rfl⟩ := Prog.map_eq_call hq.symm
    exact hI.step_sell hp hs
  · next his =>
    obtain ⟨e, u, env, q, hq, hs, hnew⟩ := hA
    obtain ⟨k', rfl, rfl⟩ := Prog.map_eq_call hq.symm
    exact hI.step_buy hsha his hp hs hnew

/-- **When a resale retires the seller's row**: when some buyer goes through the resale part of his
purchase after the link was recorded. -/
theorem retired_iff (hsha : Function.Injective sha) (hR : Resale sha t s calls db)
    (run : Runs exec Anyhow (start sha calls db) tr c) (hend : ∀ i, (c.pool i).next = none)
    (hsold : hasSold (c.pool s) = true) :
    Retired sha t c.st ↔ LookedUpAfter s (sha t.validationCode) t.ticketID tr := by
  have hI := hR.inv hsha run
  have hrec : Recorded s (sha t.validationCode) t.ticketID tr :=
    hI.seller.1 (eq_of_hasSold hsold)
  constructor
  · intro hret
    have hnone : ¬Buy.Resold c.st t.ticketID := by
      rintro ⟨⟨x, T⟩, hx, rfl⟩
      obtain rfl := hI.link _ hx rfl
      exact hret.link hx
    have hu : UnlistedAfter s (sha t.validationCode) t.ticketID tr := by
      by_contra hu
      exact hnone ((hI.recorded hrec).2 hu)
    exact hu.lookedUp
  · intro hl
    -- nobody is left in the middle of a purchase
    have hu : UnlistedAfter s (sha t.validationCode) t.ticketID tr := by
      rcases hI.looked hl with hu | ⟨i, hi | hi⟩
      · exact hu
      all_goals rw [hend i] at hi; cases hi
    have hrow : ∀ r ∈ c.st.ticket, r.validationCode ≠ sha t.validationCode := by
      rcases hI.gone hu.unlisted with hg | ⟨i, hi⟩
      · exact hg
      · rw [hend i] at hi
        cases hi
    refine ⟨hrow, ?_⟩
    intro hx
    exact (hI.recorded hrec).1 ⟨_, hx, rfl⟩ hu

end

/-! ### A buyer between the listing and its record -/

def relister : Bool → Call
  | false => .sellTicket ticketOfUser5.serialize (.ofNat 30)
  | true => .buyTicket 7 1 6 (drawing 1)

theorem resale_relister : Resale sha256 ticketOfUser5 false relister (after purchase).2 := by
  refine ⟨⟨_, _, rfl, by decide +kernel⟩, fun i hi => ?_, by decide +kernel⟩
  cases i with
  | false => exact absurd rfl hi
  | true => exact ⟨_, _, _, rfl, by decide +kernel⟩

def relisted (schedule : List Bool) :
    List (Firing Bool TicketSig) × Config Bool TicketSig Exn Reply TicketDB :=
  replay exec schedule [] (start sha256 relister (after purchase).2)

theorem runs_relisted (schedule : List Bool) :
    Runs exec Anyhow (start sha256 relister (after purchase).2) (relisted schedule).1
      (relisted schedule).2 :=
  Runs.nil.replay (admits_anyhow exec schedule [] _)

/-- User 6 buys between the two writes of the listing, and the row of user 5 survives. -/
theorem row_survives : ∃ tr c, Runs exec Anyhow (start sha256 relister (after purchase).2) tr c ∧
    (∀ i, (c.pool i).next = none) ∧ hasSold (c.pool false) = true ∧
    gotTicket (c.pool true) = true ∧ ¬Retired sha256 ticketOfUser5 c.st := by
  refine ⟨_, _, runs_relisted [false, false, true, true, true, true, true, false], ?_⟩
  have h : ∀ c, c = (relisted [false, false, true, true, true, true, true, false]).2 →
      (∀ i, (c.pool i).next = none) ∧ hasSold (c.pool false) = true ∧
      gotTicket (c.pool true) = true ∧
      ⟨sha256 ticketOfUser5.validationCode, 7⟩ ∈ c.st.resellTickets.rows := by
    rintro c rfl
    decide +kernel
  obtain ⟨hend, hsold, hgot, hlink⟩ := h _ rfl
  exact ⟨hend, hsold, hgot, fun hret => hret.link hlink⟩

/-- User 6 buys after the link was recorded, and the row of user 5 is retired. -/
theorem row_retired : ∃ tr c, Runs exec Anyhow (start sha256 relister (after purchase).2) tr c ∧
    Retired sha256 ticketOfUser5 c.st := by
  have run := runs_relisted [false, false, false, true, true, true, true, true, true, true, true]
  refine ⟨_, _, run, (retired_iff sha256_injective resale_relister run (by decide +kernel)
    (by decide +kernel)).2 ⟨_, _, (List.take_append_drop 3 _).symm, ?_, ?_⟩⟩ <;> decide +kernel

end TicketIST
