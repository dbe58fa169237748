import TicketIST.Dialogues
import TicketIST.InStep
import TicketIST.Wallet

/-!
# Requests and replies take turns

The connection carries one reply for each request, so a program that receives without having asked waits
for ever.  The client's menu receives right after it has sent a request and at no other time; the
validator's menu does the same after a number that it has no case for, since the `break` of the `default`
case leads to the `receiveData` that the other cases share.  `request_reply_alternation` has both.
-/

namespace TicketIST

open TicketIST.Lib TicketIST.Lib.Prog ClientOp

/-- The step has sent a request. -/
def sent : Step ClientSig → Bool
  | ⟨.sendData _, .ok ()⟩ => true
  | _ => false

/-- Up to the operation that is done next, every request that was sent is followed by receiving, at once
and once, and nothing is received besides. -/
inductive Alternates : List (Step ClientSig) → Option ClientOp → Prop
  | idle {next} : next ≠ some .receiveData → Alternates [] next
  | waiting (data) : Alternates [⟨.sendData data, .ok ()⟩] (some .receiveData)
  | exchange (data reply) {steps next} : Alternates steps next →
      Alternates (⟨.sendData data, .ok ()⟩ :: ⟨.receiveData, reply⟩ :: steps) next
  | other {st steps next} : sent st = false → st.1 ≠ .receiveData → Alternates steps next →
      Alternates (st :: steps) next

/-! ### Programs that wait where they have asked -/

/-- After this step the program is to receive: it has sent a request, or read a number that is
`astray`. -/
def asks (astray : ℤ → Bool) : Step ClientSig → Bool
  | ⟨.sendData _, .ok ()⟩ => true
  | ⟨.readInt, (choice, .good)⟩ => astray choice
  | _ => false

/-- Receiving is permitted after a step that asks, and there nothing else is. -/
def turns (astray : ℤ → Bool) : Monitor ClientSig Bool where
  next _ st := asks astray st
  ok waiting op := op = .receiveData ↔ waiting = true

section Alternates

variable {astray : ℤ → Bool} {steps : List (Step ClientSig)} {next : Option ClientOp}

theorem asks_cases (astray : ℤ → Bool) (st : Step ClientSig) :
    (∃ data, st = ⟨.sendData data, .ok ()⟩) ∨
      (∃ choice, st = ⟨.readInt, (choice, .good)⟩ ∧ asks astray st = astray choice) ∨
      asks astray st = false ∧ sent st = false ∧ ∀ choice, st ≠ ⟨.readInt, (choice, .good)⟩ := by
  obtain ⟨op, r⟩ := st
  cases op with
  | sendData data =>
    cases r with
    | ok u => exact .inl ⟨data, rfl⟩
    | error e => exact .inr (.inr ⟨rfl, rfl, fun _ => nofun⟩)
  | readInt =>
    obtain ⟨choice, input⟩ := r
    cases input with
    | good => exact .inr (.inl ⟨choice, rfl, rfl⟩)
    | failed => exact .inr (.inr ⟨rfl, rfl, fun _ => nofun⟩)
    | eof => exact .inr (.inr ⟨rfl, rfl, fun _ => nofun⟩)
  | _ => exact .inr (.inr ⟨rfl, rfl, fun _ => nofun⟩)

/-- A step that neither sends nor receives can be left out. -/
theorem alternates_cons {st : Step ClientSig} (hsent : sent st = false) (hop : st.1 ≠ .receiveData) :
    Alternates (st :: steps) next ↔ Alternates steps next := by
  constructor
  · intro h
    cases h with
    | waiting => cases hsent
    | exchange => cases hsent
    | other _ _ h => exact h
  · exact .other hsent hop

theorem alternates_exchange {data : Text} {reply : Except Failure Text} :
    Alternates (⟨.sendData data, .ok ()⟩ :: ⟨.receiveData, reply⟩ :: steps) next ↔
      Alternates steps next := by
  constructor
  · intro h
    cases h with
    | exchange _ _ h => exact h
    | other hsent => cases hsent
  · exact .exchange data reply

theorem not_alternates_receive {reply : Except Failure Text} :
    ¬Alternates (⟨.receiveData, reply⟩ :: steps) next := by
  intro h
  cases h with
  | other _ hop => exact hop rfl

/-- No number that was read is astray. -/
def NoneAstray (astray : ℤ → Bool) (steps : List (Step ClientSig)) : Prop :=
  ∀ choice, ⟨.readInt, (choice, .good)⟩ ∈ steps → astray choice = false

theorem noneAstray_cons {st : Step ClientSig} : NoneAstray astray (st :: steps) ↔
    (∀ choice, st = ⟨.readInt, (choice, .good)⟩ → astray choice = false) ∧
      NoneAstray astray steps := by
  simp only [NoneAstray, List.mem_cons, or_imp, forall_and, eq_comm (b := st)]

theorem noneAstray_cons_of_ne {st : Step ClientSig}
    (h : ∀ choice, st ≠ ⟨.readInt, (choice, .good)⟩) :
    NoneAstray astray (st :: steps) ↔ NoneAstray astray steps := by
  rw [noneAstray_cons, and_iff_right]
  exact fun choice heq => absurd heq (h choice)

/-- Where the steps keep to `turns`, they alternate exactly if no number was astray.  Read from a step
that asked, the first of them has to be the receiving. -/
theorem alternates_iff_noneAstray {waiting : Bool} (h : Permitted (turns astray) waiting steps)
    (hnext : next = some .receiveData ↔ steps.foldl (turns astray).next waiting = true) :
    (waiting = false → (Alternates steps next ↔ NoneAstray astray steps)) ∧
      (waiting = true →
        (∀ data, Alternates (⟨.sendData data, .ok ()⟩ :: steps) next ↔ NoneAstray astray steps) ∧
          ¬Alternates steps next) := by
  induction steps generalizing waiting with
  | nil =>
    have hnil : NoneAstray astray [] := fun _ hmem => absurd hmem List.not_mem_nil
    constructor
    · rintro rfl
      exact iff_of_true (.idle fun heq => Bool.false_ne_true (hnext.1 heq)) hnil
    · rintro rfl
      obtain rfl : next = some .receiveData := hnext.2 rfl
      refine ⟨fun data => iff_of_true (.waiting data) hnil, fun hidle => ?_⟩
      cases hidle with
      | idle hne => exact hne rfl
  | cons st steps ih =>
    obtain ⟨hok, hsteps⟩ := h
    have ih := ih hsteps hnext
    constructor
    · rintro rfl
      have hop : st.1 ≠ .receiveData := fun heq => Bool.false_ne_true (hok.1 heq)
      rcases asks_cases astray st with ⟨data, rfl⟩ | ⟨choice, rfl, hasks⟩ | ⟨hasks, hsent, hne⟩
      · rw [noneAstray_cons_of_ne (by rintro _ ⟨⟩)]
        exact (ih.2 rfl).1 data
      · rw [alternates_cons rfl hop]
        cases hchoice : astray choice with
        | true =>
          refine iff_of_false (ih.2 (hasks.trans hchoice)).2 fun hnone => ?_
          exact Bool.false_ne_true ((hnone choice List.mem_cons_self).symm.trans hchoice)
        | false =>
          rw [ih.1 (hasks.trans hchoice), noneAstray_cons, and_iff_right]
          rintro _ ⟨⟩
          exact hchoice
      · rw [alternates_cons hsent hop, noneAstray_cons_of_ne hne]
        exact ih.1 hasks
    · rintro rfl
      obtain ⟨op, reply⟩ := st
      obtain rfl : op = .receiveData := hok.2 rfl
      refine ⟨fun data => ?_, not_alternates_receive⟩
      rw [alternates_exchange, noneAstray_cons_of_ne (by rintro _ ⟨⟩)]
      exact ih.1 rfl

end Alternates

/-! ### The programs wait where they have asked -/

/-- The program keeps to `turns`, and does not wait when it ends. -/
abbrev TakesTurns {α : Type} (astray : ℤ → Bool) (p : ClientProg α) (waiting : Bool) : Prop :=
  p.Ensures (turns astray) (fun _ waiting => waiting = false) (fun _ waiting => waiting = false) waiting

section TakesTurns

variable {α β σ : Type} {astray : ℤ → Bool} {p : ClientProg α}

/-- No number is astray. -/
def never : ℤ → Bool := fun _ => false

theorem turns_readInt (waiting : Bool) (r : ℤ × Input) :
    (turns never).next waiting ⟨.readInt, r⟩ = false := by
  obtain ⟨choice, input⟩ := r
  cases input <;> rfl

theorem takesTurns_of_offline (h : p.Uses Offline) : TakesTurns never p false := by
  refine h.ensures (fun op hop => ⟨?_, fun r => ?_⟩) (fun _ => rfl) (throws_of_forall (fun _ => rfl) p)
  · refine iff_of_false ?_ Bool.false_ne_true
    rintro rfl
    exact hop
  · cases op with
    | sendData => exact hop.elim
    | readInt => exact turns_readInt false r
    | _ => rfl

theorem takesTurns_of_passive (h : p.Uses Passive) : TakesTurns never p false :=
  takesTurns_of_offline (offline_of_passive h)

theorem TakesTurns.bind {f : α → ClientProg β} {waiting : Bool} (h : TakesTurns astray p waiting)
    (hf : ∀ a, TakesTurns astray (f a) false) : TakesTurns astray (p >>= f) waiting := by
  refine Ensures.bind (h.mono ?_ fun _ _ he => he)
  rintro a _ rfl
  exact hf a

theorem TakesTurns.tryCatch {handler : Failure → ClientProg α} {waiting : Bool}
    (h : TakesTurns astray p waiting) (hh : ∀ e, TakesTurns astray (handler e) false) :
    TakesTurns astray (p.tryCatch handler) waiting := by
  refine Ensures.tryCatch (h.mono (fun _ _ ha => ha) ?_)
  rintro e _ rfl
  exact hh e

theorem takesTurns_ofExcept (x : Except Failure α) : TakesTurns astray (Prog.ofExcept x) false :=
  ensures_ofExcept.2 ⟨fun _ _ => rfl, fun _ _ => rfl⟩

theorem takesTurns_whileTrue {body : σ → ClientProg (σ ⊕ α)} (h : ∀ s, TakesTurns astray (body s) false)
    (n : ℕ) (s : σ) : TakesTurns astray (whileTrue n body s) false := by
  refine ensures_loop (I := fun _ waiting => waiting = false) ?_ ?_ n s rfl
  · rintro s _ rfl
    exact ⟨iff_of_false nofun nofun, nofun⟩
  · rintro s _ rfl
    refine (h s).mono ?_ fun _ _ he => he
    rintro (s' | a) waiting hwaiting <;> exact hwaiting

/-- Where the program waits, it receives. -/
theorem takesTurns_receiveData : TakesTurns astray TLSClient.receiveData true :=
  ⟨iff_of_true rfl rfl, fun reply => takesTurns_ofExcept reply⟩

/-- A request, and what waits for its reply. -/
theorem takesTurns_sendData {q : ClientProg α} (data : Text) (hq : TakesTurns astray q true) :
    TakesTurns astray (do TLSClient.sendData data; q) false := by
  refine ⟨iff_of_false nofun nofun, fun r => ?_⟩
  cases r with
  | error e => exact rfl
  | ok _ => exact hq

/-- A request and its reply. -/
theorem takesTurns_exchange {f : Text → ClientProg α} (data : Text)
    (hf : ∀ reply, TakesTurns astray (f reply) false) :
    TakesTurns astray (do
      TLSClient.sendData data
      let receivedMessage ← TLSClient.receiveData
      f receivedMessage) false :=
  takesTurns_sendData data (takesTurns_receiveData.bind hf)

theorem takesTurns_logout (g : Globals) : TakesTurns astray (g.logout : ClientProg α) false := by
  refine takesTurns_exchange _ fun reply => (takesTurns_ofExcept _).bind fun action => ?_
  split
  · exact ⟨iff_of_false nofun nofun, fun _ => ⟨iff_of_false nofun nofun, nofun⟩⟩
  · exact ⟨iff_of_false nofun nofun, nofun⟩

end TakesTurns

namespace Client

variable (p : Primitives) (sha : Text → Text) (n : ℕ) (g : ClientGlobals)

theorem takesTurns_exchange (pending : ActionType) (q : MenuRequest) :
    TakesTurns never (exchange p sha n g pending q) false := by
  refine TakesTurns.tryCatch (TicketIST.takesTurns_exchange _ fun reply => ?_) fun _ => rfl
  exact (takesTurns_of_offline (offline_handleReply p sha n g pending reply)).bind fun _ => rfl

/-- A choice of the client's menu that sends nothing. -/
theorem takesTurns_local {α : Type} {q : ClientProg Unit} (h : q.Uses Passive) (a : α) :
    TakesTurns never (do q; return a) false :=
  (takesTurns_of_passive h).bind fun _ => rfl

theorem takesTurns_clientMenuTurn : TakesTurns never (clientMenuTurn p sha n g) false := by
  refine ⟨iff_of_false nofun nofun, fun (action, input) => ?_⟩
  rw [turns_readInt]
  cases input with
  | eof => exact takesTurns_logout _
  | failed => exact rfl
  | good =>
    simp only [Prog.bind]
    split
    · refine (takesTurns_of_passive (passive_askForEventName n)).bind fun eventName => ?_
      exact takesTurns_exchange p sha n g.next _ _
    · refine (takesTurns_of_passive (passive_askForTicketId n)).bind fun ticketId => ?_
      refine (takesTurns_of_passive (passive_askForEventName n)).bind fun eventName => ?_
      exact takesTurns_exchange p sha n g.next _ _
    · exact takesTurns_local (passive_getOwnedTickets g) _
    · exact takesTurns_local (passive_showFile n g _) _
    · exact takesTurns_local (passive_showFile n g _) _
    · exact takesTurns_local (passive_showFile n g _) _
    · refine (takesTurns_of_passive (passive_askFileName n g)).bind fun filePath => ?_
      refine (takesTurns_of_passive (passive_getAndDecryptTicket p n g _)).bind fun ticketData => ?_
      refine (takesTurns_of_passive (passive_askForPrice n)).bind fun newPrice => ?_
      exact takesTurns_exchange p sha n g.next _ _
    · exact takesTurns_logout _
    · exact rfl

theorem takesTurns_awaitAuth (message : Text) : TakesTurns never (awaitAuth g message) false := by
  refine TakesTurns.bind ?_ fun received => ?_
  · exact TakesTurns.tryCatch (TicketIST.takesTurns_exchange message fun _ => rfl) fun _ => rfl
  · cases received with
    | none => exact rfl
    | some reply => exact takesTurns_of_offline (offline_onAuthReply g reply)

theorem takesTurns_enter (serialize : Credentials → Text) :
    TakesTurns never (enter p sha n serialize g) false :=
  (takesTurns_of_passive (passive_askForCredentials n)).bind fun _ => takesTurns_awaitAuth _ _

theorem takesTurns_authenticateTurn : TakesTurns never (authenticateTurn p sha n g) false := by
  refine ⟨iff_of_false nofun nofun, fun (action, input) => ?_⟩
  rw [turns_readInt]
  simp only [Prog.bind]
  split
  · exact rfl
  · split
    · exact takesTurns_enter p sha n g _
    · exact takesTurns_enter p sha n g _
    · exact rfl

end Client

namespace Validator

/-- The validator's menu has no case for the number. -/
def astray (choice : ℤ) : Bool := ¬(choice = 1 ∨ choice = 2 ∨ choice = 3)

variable (g : Globals)

theorem takesTurns_showReply : TakesTurns astray (showReply g) true := by
  refine takesTurns_receiveData.bind fun reply => (takesTurns_ofExcept _).bind fun text => ?_
  exact ⟨iff_of_false nofun nofun, fun _ => rfl⟩

theorem takesTurns_validatorMenuTurn : TakesTurns astray (validatorMenuTurn g) false := by
  refine ⟨iff_of_false nofun nofun, fun (choice, input) => ?_⟩
  simp only [Prog.bind]
  cases input with
  | failed => exact rfl
  | eof => exact rfl
  | good =>
    rw [if_neg (not_not.2 rfl)]
    split
    · refine ⟨iff_of_false nofun nofun, fun validationCode => ?_⟩
      exact takesTurns_sendData _ (takesTurns_showReply g.next)
    · refine ⟨iff_of_false nofun nofun, fun valCode => ?_⟩
      refine ⟨iff_of_false nofun nofun, fun integrityCode => ?_⟩
      exact takesTurns_sendData _ (takesTurns_showReply g.next)
    · exact takesTurns_logout g
    · rename_i h₁ h₂ h₃
      have hastray : astray choice = true := by
        rw [astray, decide_eq_true_eq]
        rintro (h | h | h)
        · exact h₁ h
        · exact h₂ h
        · exact h₃ h
      have hread : (turns astray).next false ⟨.readInt, (choice, .good)⟩ = true := hastray
      rw [hread]
      exact takesTurns_showReply g

end Validator

/-! ### Whole runs -/

/-- Along the paths of a program that waits where it has asked, requests and replies alternate exactly
if no number was astray. -/
theorem TakesTurns.alternates_iff {α : Type} {astray : ℤ → Bool} {p q : ClientProg α}
    {steps : List (Step ClientSig)} (h : TakesTurns astray p false) (hpath : Path p steps q) :
    Alternates steps q.next ↔ NoneAstray astray steps := by
  obtain ⟨hsteps, hq⟩ := h.path hpath
  refine (alternates_iff_noneAstray hsteps ?_).1 rfl
  cases q with
  | ret a => exact iff_of_false nofun fun hwaiting => Bool.false_ne_true (hq.symm.trans hwaiting)
  | throw e => exact iff_of_false nofun fun hwaiting => Bool.false_ne_true (hq.symm.trans hwaiting)
  | call op k => exact Option.some_inj.trans hq.1

/-- All of the client alternates: the menu, what comes before it and what comes after. -/
theorem Client.main_alternates {p : Primitives} {sha : Text → Text} {n : ℕ} {g : ClientGlobals}
    {steps : List (Step ClientSig)} {q : ClientProg Unit} (h : Path (Client.main p sha n g) steps q) :
    Alternates steps q.next := by
  refine (TakesTurns.alternates_iff ?_ h).2 fun choice _ => rfl
  refine takesTurns_whileTrue (fun g => ?_) n g
  refine TakesTurns.bind (takesTurns_whileTrue (takesTurns_authenticateTurn p sha n) n g) ?_
  rintro ⟨loggedIn, g⟩
  cases loggedIn with
  | false => exact rfl
  | true => exact (takesTurns_whileTrue (takesTurns_clientMenuTurn p sha n) n g).bind fun _ => rfl

/-- **Requests and replies alternate in the client's menu, and in the validator's exactly if every number
that is entered there is one of its choices.**  After any other number the validator waits for a reply to
nothing. -/
theorem request_reply_alternation (p : Primitives) (sha : Text → Text) (n : ℕ) :
    (∀ g steps q, Path (Client.clientMenu p sha n g) steps q → Alternates steps q.next) ∧
      ∀ g steps q, Path (Validator.validatorMenu n g) steps q →
        (Alternates steps q.next ↔
          ∀ choice, ⟨.readInt, (choice, .good)⟩ ∈ steps → choice = 1 ∨ choice = 2 ∨ choice = 3) := by
  constructor
  · intro g steps q h
    refine (TakesTurns.alternates_iff ?_ h).2 fun choice _ => rfl
    exact takesTurns_whileTrue (Client.takesTurns_clientMenuTurn p sha n) n g
  · intro g steps q h
    have hmenu : TakesTurns Validator.astray (Validator.validatorMenu n g) false :=
      takesTurns_whileTrue Validator.takesTurns_validatorMenuTurn n g
    rw [hmenu.alternates_iff h]
    simp only [NoneAstray, Validator.astray, decide_eq_false_iff_not, not_not]

/-- The client's globals after the log-in of `ana`. -/
def anasClient : ClientGlobals := { anasGlobals with hashedPassword := sha256' salted }

/-- The user logs out; the reply has yet to come. -/
def logsOutSteps : List (Step ClientSig) :=
  [⟨.readInt, (8, .good)⟩, ⟨.sendData (Client.logout anasGlobals.next), .ok ()⟩]

/-- The validator types no number, then asks about a code and gets its answer. -/
def validatesSteps : List (Step ClientSig) :=
  [⟨.readInt, (0, .failed)⟩, ⟨.readInt, (1, .good)⟩, ⟨.readWord, ticketOfUser5.validationCode⟩,
    ⟨.sendData ((MenuRequest.validateTicket ticketOfUser5.validationCode).message anasGlobals.next),
      .ok ()⟩,
    ⟨.receiveData, .ok (AcceptAuthMessage.serialize "Valid".toList anasGlobals.next.header)⟩]

theorem request_reply_alternation_ana :
    (∃ q, Path (Client.clientMenu openSSL sha256' 1 anasClient) logsOutSteps q ∧
        Alternates logsOutSteps q.next) ∧
      ∃ q, Path (Validator.validatorMenu 2 anasGlobals) validatesSteps q ∧
        Alternates validatesSteps q.next := by
  have hclient : ∃ q, Path (Client.clientMenu openSSL sha256' 1 anasClient) logsOutSteps q :=
    ⟨_, _, rfl, _, rfl, rfl⟩
  have hvalidator : ∃ q, Path (Validator.validatorMenu 2 anasGlobals) validatesSteps q :=
    ⟨_, _, rfl, _, rfl, _, rfl, _, rfl, _, rfl, rfl⟩
  obtain ⟨q, hq⟩ := hclient
  obtain ⟨q', hq'⟩ := hvalidator
  refine ⟨⟨q, hq, ?_⟩, q', hq', ?_⟩
  · exact (request_reply_alternation openSSL sha256' 1).1 _ _ _ hq
  · refine ((request_reply_alternation openSSL sha256' 2).2 _ _ _ hq').2 fun choice h => ?_
    simp only [validatesSteps, List.mem_cons, List.not_mem_nil, or_false] at h
    rcases h with h | h | h | h | h <;> cases h
    exact .inl rfl

/-- The validator enters 9, and waits for a reply. -/
theorem receives_unasked :
    ¬((∀ p sha n g steps q, Path (Client.clientMenu p sha n g) steps q → Alternates steps q.next) ∧
      ∀ n g steps q, Path (Validator.validatorMenu n g) steps q → Alternates steps q.next) := by
  rintro ⟨-, h⟩
  cases h 1 anasGlobals [⟨.readInt, (9, .good)⟩] _ ⟨_, rfl, rfl⟩ with
  | other _ _ hrest =>
    cases hrest with
    | idle hne => exact hne rfl

end TicketIST
