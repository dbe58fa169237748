import TicketIST.InStep
import TicketIST.Wallet

/-!
# Every answer can be read

The clients cannot decode a reply without a text: `AcceptAuthMessage` and `RejectAuthMessage` are refused
if nothing follows the nonce.  Some texts come from the services, which answer with a text of their own or
throw an exception whose `what()` is sent.  None of them is empty, and so every reply to a request in the
name of a session is read and shown by the program that sent it (`InStep.legible`).
-/

namespace TicketIST

open TicketIST.Lib ServerOp

variable {coll sha : Text → Text} {k : SessionKey} {sur : Surroundings} {ssl : SSL} {s s' : Server coll}
  {steps : List (Step ServerSig)} {reply : Text}

/-! ### What the exceptions say -/

/-- An exception that a handler catches says something. -/
def Says (x : Exn) : Prop := ∀ what, x = .invalidArgument what → what.toList ≠ []

theorem says_of_ne {what : String} (h : what.toList ≠ []) : Says (.invalidArgument what) := by
  rintro _ ⟨⟩
  exact h

theorem says_outOfRange (what : String) : Says (.outOfRange what) := nofun

section Exceptions

variable {α β : Type}

/-- The exception that a computation ends in, if any, says something. -/
def ErrorSays (e : Except Exn α) : Prop := ∀ x, e = .error x → Says x

theorem ErrorSays.bind {e : Except Exn α} {f : α → Except Exn β} (h : ErrorSays e)
    (hf : ∀ a, ErrorSays (f a)) : ErrorSays (e >>= f) := by
  cases e with
  | error x =>
    rintro _ ⟨⟩
    exact h x rfl
  | ok a => exact hf a

theorem errorSays_ok (a : α) : ErrorSays (.ok a : Except Exn α) := nofun

theorem errorSays_stoi (part : Text) : ErrorSays (stoi part) := by
  intro x hx
  rcases stoi_cases part with ⟨⟨n, hn⟩, -⟩ | ⟨hn, -⟩ | ⟨hn, -⟩
  · cases hn.symm.trans hx
  · cases hn.symm.trans hx
    exact says_of_ne (by decide)
  · cases hn.symm.trans hx
    exact says_outOfRange _

theorem errorSays_stod (part : Text) : ErrorSays (stod part) := by
  intro x hx
  unfold stod at hx
  split at hx
  · cases hx
    exact says_of_ne (by decide)
  · split at hx
    · cases hx
    · cases hx
      exact says_outOfRange _
  · cases hx

theorem errorSays_deserialize (data : Text) : ErrorSays (Ticket.deserialize data) := by
  rw [Ticket.deserialize_eq_ofFields]
  refine (errorSays_stoi _).bind fun ticketID => (errorSays_stoi _).bind fun eventID => ?_
  refine (errorSays_stoi _).bind fun sellerID => (errorSays_stoi _).bind fun buyerID => ?_
  exact (errorSays_stod _).bind fun price => errorSays_ok _

end Exceptions

/-! ### What the services say -/

section Services

theorem says_buyTicket (T e u : ℤ) (env : Env) :
    (TicketService.buyTicket sha T e u env).Throws Says := by
  rw [Buy.buyTicket_eq]
  intro owned
  dsimp only
  split
  · exact says_of_ne (by decide)
  intro found
  cases found with
  | none => exact says_of_ne (by decide)
  | some ti =>
    dsimp only
    split
    · exact says_of_ne (by decide)
    intro unavailable
    cases unavailable with
    | false => exact says_of_ne (by decide)
    | true =>
      intro added
      cases added with
      | false => exact says_of_ne (by decide)
      | true =>
        intro resold
        cases resold with
        | false => trivial
        | true => exact fun _ _ _ => trivial

theorem says_sellTicket (data : Text) (newPrice : Double) :
    (TicketService.sellTicket sha data newPrice).Throws Says := by
  rw [Sell.sellTicket_eq]
  rcases hd : Ticket.deserialize data with x | ⟨_ | _, t⟩
  · exact errorSays_deserialize data x hd
  · exact says_of_ne (by decide)
  · intro stored
    cases stored with
    | none => exact says_of_ne (by decide)
    | some hash =>
      dsimp only
      split
      · exact says_of_ne (by decide)
      split
      · exact says_of_ne (by decide)
      intro listed
      cases listed with
      | false => exact says_of_ne (by decide)
      | true =>
        intro recorded
        cases recorded with
        | false => exact says_of_ne (by decide)
        | true => trivial

theorem says_validateTicket (code : Text) :
    (TicketService.validateTicket sha code).Throws Says := by
  rw [Validate.validateTicket_eq]
  rintro (_ | ⟨info, _ | _⟩)
  · trivial
  · exact fun _ => trivial
  · trivial

/-- The service says how the check went, or throws what no handler catches. -/
theorem checkIntegrity_worded (sha : Text → Text) (code integrityCode : Text) (fails : TicketOp → Bool)
    (db : TicketDB) :
    (∀ x, ((TicketService.checkIntegrity sha code integrityCode).run (faulty fails) db).1 = .error x →
      Says x) ∧
    ∀ a, ((TicketService.checkIntegrity sha code integrityCode).run (faulty fails) db).1 = .ok a →
      a.2 ≠ [] := by
  unfold TicketService.checkIntegrity
  rw [Prog.call_bind, Prog.run_call]
  dsimp only [Prog.ret_bind]
  split
  · exact ⟨nofun, by rintro _ ⟨⟩; exact List.cons_ne_nil _ _⟩
  · next hash _ =>
    unfold TicketService.integrityCode
    split
    · refine ⟨?_, nofun⟩
      rintro _ ⟨⟩
      exact says_outOfRange _
    · rw [Prog.ofExcept_ok, Prog.ret_bind]
      split <;> exact ⟨nofun, by rintro _ ⟨⟩; exact List.cons_ne_nil _ _⟩

theorem says_getUserId (u : Text) : (UserService.getUserId u).Throws Says := by
  simp only [UserService.getUserId, Prog.call_bind, Prog.ret_bind]
  intro id
  dsimp only
  split
  · exact says_of_ne (by decide)
  · trivial

theorem says_getEventByName (fails : Bool) (eventName : Text) (s : EventState coll) :
    ErrorSays (EventService.getEventByName fails eventName s).1 := by
  unfold EventService.getEventByName
  split
  · exact errorSays_ok _
  · split
    · exact errorSays_ok _
    · rintro _ ⟨⟩
      exact says_of_ne (by decide)

end Services

/-! ### What the handlers say -/

/-- A program that calls services, and at last advances the session `k` and answers with a text, or
throws an exception that says something; the services answer what they answer on some server. -/
inductive Speaks (coll sha : Text → Text) (k : SessionKey) : ServerProg Text → Prop
  | throw {x : Exn} : Says x → Speaks coll sha k (.throw x)
  | serve {op next} : Serves op → (∀ s : Server coll, Speaks coll sha k (next (exec sha op s).1)) →
      Speaks coll sha k (.call op next)
  | answer {tag : ActionType} {message : Text} : tag = .acceptAuth ∨ tag = .rejectAuth →
      message ≠ [] →
      Speaks coll sha k (.call (.advance k) fun v => .ret (writeHeader tag ⟨k.2, v.1, v.2⟩ ++ message))

section Speaks

theorem speaks_accept (r : Role) {message : Text} (u : Text) (h : message ≠ []) :
    Speaks coll sha (r, u) (createAcceptAuthMessageAs r message u) :=
  .answer (.inl rfl) h

theorem speaks_reject (r : Role) {message : Text} (u : Text) (h : message ≠ []) :
    Speaks coll sha (r, u) (createRejectAuthMessageAs r message u) :=
  .answer (.inr rfl) h

theorem speaks_ofExcept {α : Type} {x : Except Exn α} {f : α → ServerProg Text} (hx : ErrorSays x)
    (hf : ∀ a, x = .ok a → Speaks coll sha k (f a)) : Speaks coll sha k (Prog.ofExcept x >>= f) := by
  cases x with
  | error e => exact .throw (hx e rfl)
  | ok a => exact hf a rfl

theorem Speaks.tryCatch {p : ServerProg Text} {g : Exn → ServerProg Text}
    (hp : Speaks coll sha k p) (hg : ∀ x, Says x → Speaks coll sha k (g x)) :
    Speaks coll sha k (p.tryCatch g) := by
  induction hp with
  | throw hx => exact hg _ hx
  | serve hop _ ih => exact .serve hop ih
  | answer htag hne => exact .answer htag hne

theorem speaks_onInvalidArgument {r : Role} {u : Text} {onError : String → ServerProg Text}
    (he : ∀ what, what.toList ≠ [] →
      Speaks coll sha (r, u) (onError what >>= fun t => createRejectAuthMessageAs r t u))
    (x : Exn) (hx : Says x) : Speaks coll sha (r, u) (onInvalidArgument r u onError x) := by
  cases x with
  | invalidArgument what => exact he what (hx what rfl)
  | outOfRange what => exact .throw hx

theorem speaks_errorText {r : Role} {u : Text} (what : String) (h : what.toList ≠ []) :
    Speaks coll sha (r, u) (errorText what >>= fun t => createRejectAuthMessageAs r t u) :=
  speaks_reject r u h

/-- A call of the ticket service that throws only what says something. -/
theorem speaks_callTickets {c : Call} {f : c.Answer → ServerProg Text}
    (hc : (c.service sha).Throws Says) (hf : ∀ a, Speaks coll sha k (f a)) :
    Speaks coll sha k (callTickets sur c >>= f) := by
  refine .serve trivial fun s => speaks_ofExcept (fun x hx => ?_) fun a _ => hf a
  have hrun : ((c.service sha).run (faulty sur.ticketFails) s.tickets).1 = .error x := hx
  exact hc.run hrun

theorem speaks_callUsers {c : UserCall} {f : c.Answer → ServerProg Text}
    (hc : (c.service sha).Throws Says) (hf : ∀ a, Speaks coll sha k (f a)) :
    Speaks coll sha k (callUsers sur c >>= f) := by
  refine .serve trivial fun s => speaks_ofExcept (fun x hx => ?_) fun a _ => hf a
  have hrun : ((c.service sha).run (UserOp.faulty sur.userFails) s.users).1 = .error x := hx
  exact hc.run hrun

theorem speaks_callEvents {c : EventCall} {f : c.Answer → ServerProg Text}
    (hc : ∀ s : EventState coll, ErrorSays (c.serve sur.eventFails s).1)
    (hf : ∀ a, Speaks coll sha k (f a)) : Speaks coll sha k (callEvents sur c >>= f) :=
  .serve trivial fun s => speaks_ofExcept (hc s.events) fun a _ => hf a

variable {r : Role} {m : AuthenticatedMessage}

/-- **What a handler says in the name of a session.** -/
theorem Speaks.worded {p : ServerProg Text} (hp : Speaks coll sha (r, m.username) p)
    (hs : Holds s r m)
    (h : Amid (exec sha) (KeepsName m.username) p s steps (.ret reply) s') :
    ∃ tag message, (tag = .acceptAuth ∨ tag = .rejectAuth) ∧ message ≠ [] ∧
      reply = writeHeader tag m ++ message := by
  induction hp generalizing s steps with
  | throw hx => exact absurd h Amid.not_throw
  | @serve op next hop _ ih =>
    obtain ⟨s₁, steps', hr, -, hk⟩ := h.of_call
    have hs₁ : Holds (exec sha op s₁).2 r m := by
      rw [Holds, hop.controller s₁]
      exact (hr r).trans hs
    exact ih s₁ hs₁ hk
  | @answer tag message htag hne =>
    have hn : m.nonce - 1 + 1 = m.nonce := Int.sub_add_cancel m.nonce 1
    obtain ⟨rfl, -, -⟩ := amid_advance hs h
    rw [hn]
    exact ⟨tag, message, htag, hne, rfl⟩

theorem says_of_authenticated {onError : String → ServerProg Text} {body : ServerProg Text}
    (he : ∀ what, what.toList ≠ [] → Speaks coll sha (r, m.username)
      (onError what >>= fun t => createRejectAuthMessageAs r t m.username))
    (hb : Speaks coll sha (r, m.username) body) (hs : Holds s r m)
    (h : Amid (exec sha) (KeepsName m.username) (authenticated r m onError body) s steps
      (.ret reply) s') :
    ∃ tag message, (tag = .acceptAuth ∨ tag = .rejectAuth) ∧ message ≠ [] ∧
      reply = writeHeader tag m ++ message := by
  simp only [authenticated, Prog.call_bind, Prog.ret_bind, Prog.tryCatch_call] at h
  obtain ⟨s₁, steps', hr, rfl, hk⟩ := amid_check hs h
  have hs₁ : Holds s₁ r m := (hr r).trans hs
  exact (hb.tryCatch (speaks_onInvalidArgument he)).worded hs₁ hk

end Speaks

theorem availableTickets_ne_nil (event : Event) (tickets : List TicketInfo) :
    availableTickets event tickets ≠ [] := by
  unfold availableTickets
  split <;> exact List.cons_ne_nil _ _

theorem AuthRequest.worded (q : AuthRequest) (hs : Holds s q.role q.header)
    (h : Amid (exec sha) (KeepsName q.header.username) (q.handler sur) s steps (.ret reply) s') :
    ∃ tag message, (tag = .acceptAuth ∨ tag = .rejectAuth) ∧ message ≠ [] ∧
      reply = writeHeader tag q.header ++ message := by
  cases q with
  | getAvailableTickets m =>
    refine says_of_authenticated ?_ ?_ hs h
    · rintro - -
      refine .serve trivial fun s => ?_
      have hcache : (exec sha (eventService sur.eventFails .getEventCache) s).1 =
          .ok s.events.eventCache := rfl
      rw [hcache]
      refine speaks_reject _ _ ?_
      exact List.append_ne_nil_of_right_ne_nil _ (List.cons_ne_nil _ _)
    · refine speaks_callEvents (says_getEventByName _ _) fun event => ?_
      refine speaks_callTickets (fun _ => trivial) fun tickets => ?_
      exact speaks_accept _ _ (availableTickets_ne_nil event tickets)
  | buyTicket m =>
    refine says_of_authenticated speaks_errorText ?_ hs h
    refine speaks_callEvents (says_getEventByName _ _) fun event => ?_
    refine speaks_callUsers (says_getUserId _) fun userId => ?_
    refine speaks_callTickets (says_buyTicket _ _ _ _) fun ticket => ?_
    exact speaks_accept _ _ ticket.serialize_ne_nil
  | sellTicket m =>
    refine says_of_authenticated speaks_errorText ?_ hs h
    refine speaks_callTickets (says_sellTicket _ _) fun _ => ?_
    exact speaks_accept _ _ (List.cons_ne_nil _ _)
  | validateTicket m =>
    refine says_of_authenticated speaks_errorText ?_ hs h
    refine speaks_callTickets (says_validateTicket _) ?_
    rintro ⟨_ | _, info⟩
    · exact speaks_reject _ _ (List.cons_ne_nil _ _)
    · exact speaks_accept _ _ (List.cons_ne_nil _ _)
  | checkIntegrity m =>
    refine says_of_authenticated speaks_errorText ?_ hs h
    refine .serve trivial fun s => ?_
    obtain ⟨herror, hok⟩ :=
      checkIntegrity_worded sha m.valCode m.integrityCode sur.ticketFails s.tickets
    refine speaks_ofExcept herror ?_
    rintro ⟨_ | _, message⟩ ha
    · exact speaks_reject _ _ (hok _ ha)
    · exact speaks_accept _ _ (hok _ ha)

/-! ### What a program is shown -/

/-- **A program in step is shown the reply to its request**, whatever the request, the reply and the
tables. -/
theorem InStep.legible {g : Globals} (hI : InStep k g s) {q : MenuRequest} (hq : q.role = k.1)
    (h : Amid (exec sha) (KeepsName k.2) (messageHandler sur ssl (q.message g.next)) s steps
      (.ret reply) s') :
    ∃ tag message, (tag = .acceptAuth ∨ tag = .rejectAuth) ∧
      reply = writeHeader tag g.next.header ++ message ∧ message ≠ [] ∧ g.next.header.Sound := by
  obtain ⟨r, u⟩ := k
  obtain ⟨rfl, hu, hc, hsession, -⟩ := hI
  obtain rfl : q.role = r := hq
  obtain ⟨q', hrole, hheader, hsound, h'⟩ := request_of_message (g := g.next) q hu hc h
  have hname : q'.header.username = g.username := by rw [hheader]; rfl
  have hs : Holds s q'.role q'.header := by
    rw [hrole, hheader]
    exact holds_next hsession
  rw [← hname] at h'
  obtain ⟨tag, message, htag, hne, rfl⟩ := q'.worded hs h'
  rw [hheader]
  exact ⟨tag, message, htag, rfl, hne, hsound⟩

end TicketIST
