import TicketIST.Admissions
import TicketIST.BoxOffice

/-!
# Who held a seat, and who got in

Two results on the runs of the ticket service.  The tickets that were ever bought for a seat form a
chain: each was sold by the holder of the one before, for the same event and the same place, and the
first by who offered the seat at the start (`provenance_of_serial`).  And in the runs of the box office,
where every purchase draws a code that was not drawn before, every code is admitted at most once, so that
a seat is entered at most as often as it was bought (`admissions_le_purchases`).
-/

namespace TicketIST

open TicketIST.Lib

/-- The tickets that were bought for `T`, in the order of their purchases. -/
def ticketsFor (h : History) (T : ℤ) : List Ticket := (purchases h).filter fun t => t.ticketID = T

section

variable {sha : Text → Text} {info : Table TicketInfo ℤ TicketInfo.ticketID} {h : History}
  {db : TicketDB} {T : ℤ} {t : Ticket}

theorem latest_eq (h : History) (T : ℤ) : latest h T = (ticketsFor h T).getLast? := rfl

theorem ticketsFor_snoc_of_eq {x : Call × Except Exn Reply} (hx : boughtBy x = some t)
    (hT : t.ticketID = T) : ticketsFor (h ++ [x]) T = ticketsFor h T ++ [t] := by
  simp [ticketsFor, purchases_snoc, hx, hT]

theorem ticketsFor_snoc_of_ne {x : Call × Except Exn Reply} (hx : boughtBy x = some t)
    (hT : t.ticketID ≠ T) : ticketsFor (h ++ [x]) T = ticketsFor h T := by
  simp [ticketsFor, purchases_snoc, hx, hT]

theorem ticketsFor_snoc_of_none {x : Call × Except Exn Reply} (hx : boughtBy x = none) :
    ticketsFor (h ++ [x]) T = ticketsFor h T := by
  simp [ticketsFor, purchases_snoc, hx]

/-! ### The chain of holders -/

/-- The holder of `t` offers its seat as `ti`. -/
structure OfferedBy (t : Ticket) (ti : TicketInfo) : Prop where
  seller : ti.sellerID = t.buyerID
  event : ti.eventID = t.eventID
  seat : ti.seat = t.seat

/-- `t` is the ticket of a purchase of the offer `ti`. -/
structure BoughtAs (ti : TicketInfo) (t : Ticket) : Prop where
  seller : t.sellerID = ti.sellerID
  event : t.eventID = ti.eventID
  price : t.price = ti.price
  seat : t.seat = ti.seat

/-- The holder of `t` sold the seat to the holder of `t'`. -/
def SoldOn (t t' : Ticket) : Prop := ∃ ti, OfferedBy t ti ∧ BoughtAs ti t'

theorem boughtAs_issued (ti : TicketInfo) (u : ℤ) (env : Env) : BoughtAs ti (issued ti u env) :=
  ⟨rfl, rfl, rfl, rfl⟩

/-- Where the tickets that count and the offers come from. -/
structure Traced (info : Table TicketInfo ℤ TicketInfo.ticketID) (h : History) (db : TicketDB) :
    Prop where
  date : ∀ {T t}, latest h T = some t → '|' ∉ t.purchaseDate
  fresh : ∀ {ti}, ti ∈ db.ticketInfo → latest h ti.ticketID = none → ti ∈ info
  again : ∀ {t ti}, ti ∈ db.ticketInfo → latest h ti.ticketID = some t → OfferedBy t ti
  chain : ∀ T, (ticketsFor h T).IsChain SoldOn
  first : ∀ {T t}, (ticketsFor h T).head? = some t → ∃ ti ∈ info, ti.ticketID = T ∧ BoughtAs ti t

variable {db' : TicketDB} {c : Call} {r : Except Exn Reply}

/-- A call that buys nothing: every offer was there before, or is one of the holder. -/
theorem Traced.same (h' : Traced info h db) (hb : boughtBy (c, r) = none)
    (hoffers : ∀ ti ∈ db'.ticketInfo, ti ∈ db.ticketInfo ∨
      ∃ t, latest h ti.ticketID = some t ∧ OfferedBy t ti) : Traced info (h ++ [(c, r)]) db' := by
  have hlatest : latest (h ++ [(c, r)]) = latest h := by
    funext T
    rw [latest_eq, ticketsFor_snoc_of_none hb, latest_eq]
  constructor
  case date =>
    rw [hlatest]
    exact h'.date
  case fresh =>
    intro ti hti hnone
    rw [hlatest] at hnone
    rcases hoffers ti hti with hti | ⟨t, ht, -⟩
    · exact h'.fresh hti hnone
    · cases hnone.symm.trans ht
  case again =>
    intro t ti hti ht
    rw [hlatest] at ht
    rcases hoffers ti hti with hti | ⟨t', ht', hoff⟩
    · exact h'.again hti ht
    · cases ht.symm.trans ht'
      exact hoff
  case chain =>
    intro T
    rw [ticketsFor_snoc_of_none hb]
    exact h'.chain T
  case first =>
    intro T t ht
    rw [ticketsFor_snoc_of_none hb] at ht
    exact h'.first ht

theorem Traced.buy (h' : Traced info h db) {ti : TicketInfo} {u : ℤ} {env : Env}
    (hti : ti ∈ db.ticketInfo)
    (hoffers : ∀ x ∈ db'.ticketInfo, x ∈ db.ticketInfo ∧ x.ticketID ≠ ti.ticketID) :
    Traced info (h ++ [(c, .ok (.ticket (issued ti u env)))]) db' := by
  set h₁ := h ++ [(c, .ok (.ticket (issued ti u env)))] with hh₁
  have heq : ticketsFor h₁ ti.ticketID = ticketsFor h ti.ticketID ++ [issued ti u env] :=
    ticketsFor_snoc_of_eq rfl rfl
  have hne : ∀ {T}, ti.ticketID ≠ T → ticketsFor h₁ T = ticketsFor h T :=
    fun hT => ticketsFor_snoc_of_ne rfl hT
  have hold : ∀ {x}, x ∈ db'.ticketInfo → latest h₁ x.ticketID = latest h x.ticketID := by
    intro x hx
    rw [latest_eq, hne (hoffers x hx).2.symm, latest_eq]
  constructor
  case date =>
    intro T t ht
    by_cases hT : ti.ticketID = T
    · subst hT
      rw [latest_eq, heq, List.getLast?_concat] at ht
      cases ht
      exact Ticket.bar_not_mem_formatDate _
    · rw [latest_eq, hne hT] at ht
      exact h'.date ht
  case fresh => exact fun hx hnone => h'.fresh (hoffers _ hx).1 (hold hx ▸ hnone)
  case again => exact fun hx ht => h'.again (hoffers _ hx).1 (hold hx ▸ ht)
  case chain =>
    intro T
    by_cases hT : ti.ticketID = T
    · subst hT
      rw [heq]
      refine List.IsChain.append (h'.chain _) (List.isChain_singleton _) ?_
      -- the offer is that of the last holder
      intro t ht t' ht'
      obtain rfl : issued ti u env = t' := by simpa using ht'
      exact ⟨ti, h'.again hti ht, boughtAs_issued ti u env⟩
    · rw [hne hT]
      exact h'.chain T
  case first =>
    intro T t ht
    by_cases hT : ti.ticketID = T
    · subst hT
      rw [heq] at ht
      cases hfor : ticketsFor h ti.ticketID with
      | nil =>
        rw [hfor] at ht
        obtain rfl : issued ti u env = t := by simpa using ht
        have hnone : latest h ti.ticketID = none := by rw [latest_eq, hfor]; rfl
        exact ⟨ti, h'.fresh hti hnone, rfl, boughtAs_issued ti u env⟩
      | cons t₀ ts =>
        rw [hfor] at ht
        refine h'.first ?_
        rw [hfor]
        exact ht
    · rw [hne hT] at ht
      exact h'.first ht

/-- The hash that a resale passes says who holds the ticket and for which seat. -/
theorem offeredBy_listing {data : Text} {p : Double} {t' : Ticket}
    (hd : Ticket.deserialize data = .ok (true, t)) (hdate : '|' ∉ t'.purchaseDate)
    (hcode : t'.validationCode = t.validationCode) (hser : t'.serialize = t.serialize) :
    OfferedBy t' (listing t p) := by
  obtain ⟨⟨-, hevent, -, hbuyer⟩, -, -, hrest⟩ :=
    Ticket.front_of_serialize hdate (Ticket.plain_of_deserialize hd).purchaseDate hser
  rw [hcode] at hrest
  exact ⟨hbuyer.symm, hevent.symm, (List.append_cancel_right hrest).symm⟩

/-- The step lemma. -/
theorem Traced.step (h' : Traced info h db) (hK : Keeps sha (latest h) db)
    (hsha : Function.Injective sha) (hdone : Done sha (fun _ => false) db c r db') :
    Traced info (h ++ [(c, r)]) db' := by
  cases hb : boughtBy (c, r) with
  | some t =>
    obtain rfl := eq_of_boughtBy hb
    cases hdone with
    | same ht hs => exact absurd rfl (ht t)
    | bought hr hi =>
      refine h'.buy hr.listed.1 fun x hx => ?_
      rw [Buy.retired_ticketInfo, Buy.mem_sold] at hx
      exact ⟨hx.1, hr.listed.2 ▸ hx.2⟩
  | none =>
    refine h'.same hb fun ti hti => ?_
    rcases hdone.offers hti with hti | ⟨data, newPrice, t, -, hd, hr, rfl⟩
    · exact .inl hti
    · obtain ⟨t₀, ht₀, hcode, hser⟩ := hK.of_reaches hsha hr
      exact .inr ⟨t₀, ht₀, offeredBy_listing hd (h'.date ht₀) hcode hser.symm⟩

/-- What the history says about the seat `T`. -/
structure Provenance (info : Table TicketInfo ℤ TicketInfo.ticketID) (h : History) (db : TicketDB)
    (T : ℤ) : Prop where
  /-- every purchase but the first is from the buyer of the one before, at the price of an offer of his -/
  chain : (ticketsFor h T).IsChain SoldOn
  /-- the first is of the offer at the start -/
  first : ∀ t, (ticketsFor h T).head? = some t → ∃ ti ∈ info, ti.ticketID = T ∧ BoughtAs ti t
  /-- an offer now is the one at the start, or an offer of the last buyer -/
  offer : ∀ ti ∈ db.ticketInfo, ti.ticketID = T → (ticketsFor h T = [] ∧ ti ∈ info) ∨
    ∃ t, (ticketsFor h T).getLast? = some t ∧ OfferedBy t ti

/-- **The holders of a seat form a chain**, in every serial run, whatever codes are drawn. -/
theorem provenance_of_serial {allowed : History → TicketDB → Call → Prop}
    (hsha : Function.Injective sha)
    (run : Serial (serve sha) allowed ⟨info, .empty, .empty⟩ h db) (T : ℤ) :
    Provenance info h db T := by
  have hI : Keeps sha (latest h) db ∧ Traced info h db := by
    refine run.inv (I := fun h db => Keeps sha (latest h) db ∧ Traced info h db)
      ⟨(StoreInv.init info).keeps, nofun, fun hti _ => hti, nofun, fun _ => List.isChain_nil, nofun⟩ ?_
    rintro h db c ⟨hK, h'⟩ -
    rw [latest_snoc]
    exact ⟨hK.step hsha (done_of_serve c), h'.step hK hsha (done_of_serve c)⟩
  obtain ⟨-, h'⟩ := hI
  refine ⟨h'.chain T, fun t => h'.first, fun ti hti hT => ?_⟩
  subst hT
  cases ht : latest h ti.ticketID with
  | none => exact .inl ⟨by rwa [latest_eq, List.getLast?_eq_none_iff] at ht, h'.fresh hti ht⟩
  | some t => exact .inr ⟨t, ht, h'.again hti ht⟩

/-- User 5 bought seat 7 at the start's price, and user 6 bought it from user 5. -/
theorem provenance_resale :
    ticketsFor (after resale).1 7 = [ticketOfUser5, ticketOfUser6] ∧
      Provenance twoSeats (after resale).1 (after resale).2 7 :=
  have run : Serial (serve sha256) (fun _ _ _ => True) ⟨twoSeats, .empty, .empty⟩
      (after resale).1 (after resale).2 := serial_after (by decide)
  ⟨by decide +kernel, provenance_of_serial sha256_injective run 7⟩

/-! ### Admissions -/

variable {o o' : BoxOffice}

theorem boughtBy_checkReply (ic : Text) : boughtBy (c, BoxOffice.checkReply sha t ic) = none := by
  unfold BoxOffice.checkReply
  cases TicketService.integrityCode (sha t.serialize) with
  | error x => rfl
  | ok real => simp only [Except.map]; split <;> rfl

/-- The codes that were admitted. -/
structure Entered (h : History) (o : BoxOffice) : Prop where
  /-- no code twice -/
  nodup : (admitted h).Nodup
  /-- each was issued, and its holder is inside if it still counts -/
  was_issued : ∀ code ∈ admitted h, ∃ t ∈ purchases h, t.validationCode = code ∧
    (o.held t.ticketID = some t → t.ticketID ∈ o.inside)

theorem Entered.same (hE : Entered h o) (hb : boughtBy (c, r) = none)
    (ha : admittedBy (c, r) = none) (hheld : o'.held = o.held) (hinside : o'.inside = o.inside) :
    Entered (h ++ [(c, r)]) o' where
  nodup := by
    rw [admitted_snoc, ha, Option.toList_none, List.append_nil]
    exact hE.nodup
  was_issued := by
    rw [admitted_snoc, purchases_snoc, ha, hb, Option.toList_none, Option.toList_none,
      List.append_nil, List.append_nil, hheld, hinside]
    exact hE.was_issued

theorem Entered.buy (hE : Entered h o) (ha : admittedBy (c, r) = none)
    (hnew : ∀ t' ∈ purchases h, t'.validationCode ≠ t.validationCode) :
    Entered (h ++ [(c, r)]) (o.sell t) where
  nodup := by
    rw [admitted_snoc, ha, Option.toList_none, List.append_nil]
    exact hE.nodup
  was_issued := by
    rw [admitted_snoc, ha, Option.toList_none, List.append_nil]
    intro code hcode
    obtain ⟨t', ht', hc, hin⟩ := hE.was_issued code hcode
    refine ⟨t', by simp [purchases_snoc, ht'], hc, ?_⟩
    by_cases hT : t.ticketID = t'.ticketID
    · rw [BoxOffice.sell_held_of_eq hT]
      intro heq
      cases heq
      exact absurd rfl (hnew _ ht')
    · rw [BoxOffice.sell_held_of_ne hT, BoxOffice.mem_sell_inside]
      exact fun hheld => ⟨hin hheld, Ne.symm hT⟩

/-- An admission: the holder was not inside, so the code was not admitted before. -/
theorem Entered.letIn (hE : Entered h o) (hI : RunInv sha info h db) (hheld : o.held = latest h)
    {code : Text} (hg : o.Good code T t) (hout : T ∉ o.inside) (hb : boughtBy (c, r) = none)
    (ha : admittedBy (c, r) = some code) : Entered (h ++ [(c, r)]) (o.letIn T) := by
  have ht : latest h T = some t := hheld ▸ hg.held
  obtain ⟨hmem, hT⟩ := mem_of_latest ht
  subst hT
  constructor
  case nodup =>
    rw [admitted_snoc, ha]
    refine List.nodup_append.2 ⟨hE.nodup, List.nodup_singleton _, ?_⟩
    rintro code' hcode' x hx rfl
    obtain rfl : code' = code := List.mem_singleton.1 hx
    obtain ⟨t', ht', hc, hin⟩ := hE.was_issued code' hcode'
    obtain rfl : t' = t := hI.eq_of_code ht' hmem (hc.trans hg.code.symm)
    exact hout (hin hg.held)
  case was_issued =>
    rw [admitted_snoc, purchases_snoc, ha, hb, Option.toList_none, List.append_nil]
    intro code' hcode'
    rcases List.mem_append.1 hcode' with hcode' | hcode'
    · obtain ⟨t', ht', hc, hin⟩ := hE.was_issued code' hcode'
      exact ⟨t', ht', hc, fun hh => .inr (hin hh)⟩
    · obtain rfl : code' = code := List.mem_singleton.1 hcode'
      exact ⟨t, hmem, hg.code, fun _ => .inl rfl⟩

theorem admittedBy_checkReply {code ic : Text} (t : Ticket) :
    admittedBy (.checkIntegrity code ic, BoxOffice.checkReply sha t ic) = none := by
  cases hr : BoxOffice.checkReply sha t ic <;> rfl

/-- The step lemma. -/
theorem Entered.step (hE : Entered h o) (hI : RunInv sha info h db) (hheld : o.held = latest h)
    (hc : NewCode h db c) (hs : BoxOffice.Serves sha o c r o') : Entered (h ++ [(c, r)]) o' := by
  cases hs with
  | bought =>
    refine hE.buy rfl ?_
    intro t' ht' hcode
    exact hc t' ht' (congrArg some hcode.symm)
  | admitted hg hout => exact hE.letIn hI hheld hg hout rfl rfl
  | checked => exact hE.same (boughtBy_checkReply _) (admittedBy_checkReply _) rfl rfl
  | _ => exact hE.same rfl rfl rfl rfl

/-- **Every code is admitted at most once, and a seat is entered at most as often as it was bought**, in
every serial run whose purchases draw codes that were not drawn before: a holder who sells a seat after
he was admitted can let in one more, and no other way leads to a second admission. -/
theorem admissions_le_purchases (hsha : Function.Injective sha)
    (run : Serial (serve sha) NewCode ⟨info, .empty, .empty⟩ h db) :
    (admitted h).Nodup ∧ ∀ T, admissions h T ≤ (ticketsFor h T).length := by
  obtain ⟨o, -, -, hE⟩ := boxOffice_inv hsha run (I := fun h o => Entered h o)
    ⟨List.nodup_nil, nofun⟩ fun h db o c r o' hE hI hheld hc hs => hE.step hI hheld hc hs
  refine ⟨hE.nodup, fun T => ?_⟩
  have hsub : (admitted h).filter (· ∈ codesFor h T) ⊆ codesFor h T :=
    fun code hcode => of_decide_eq_true (List.mem_filter.1 hcode).2
  calc admissions h T
      = ((admitted h).filter (· ∈ codesFor h T)).length := List.countP_eq_length_filter
    _ ≤ (codesFor h T).length := ((hE.nodup.filter _).subperm hsub).length_le
    _ = (ticketsFor h T).length := by rw [codesFor, List.length_map, ticketsFor]

/-- User 5 enters seat 7 and sells it to user 6, who enters too: two admissions, for two purchases. -/
theorem admissions_usedResale :
    admissions (after usedResale).1 7 = 2 ∧ (ticketsFor (after usedResale).1 7).length = 2 ∧
      (admitted (after usedResale).1).Nodup ∧
      ∀ T, admissions (after usedResale).1 T ≤ (ticketsFor (after usedResale).1 T).length :=
  ⟨by decide +kernel, by decide +kernel,
    admissions_le_purchases sha256_injective (serial_after (by decide +kernel))⟩

end

end TicketIST
