import TicketIST.OwnReplies

/-!
# Attempts to log in

Both programs ask for a username and a password until the server accepts them.  The client's loop returns
`true` after a reply that accepts and goes on after any other; but where sending or receiving fails it
returns `EXIT_FAILURE`, and this is `true` as well (`client_login_iff`).  The validator calls itself for
the next attempt and drops the result: what it returns is defined only if the first attempt succeeds,
although the globals are those of the reply in any case (`validator_login_iff`, `login_after_refusals`).
-/

namespace TicketIST

open TicketIST.Lib ClientOp

/-- The session that an accepting reply opens. -/
def AuthReply.session (m : AuthReply) : Globals := ⟨m.username, m.sessionCookies, m.nonce⟩

/-! ### The client -/

/-- What was received in this step. -/
def replyOf : Step ClientSig → Option Text
  | ⟨.receiveData, .ok reply⟩ => some reply
  | _ => none

/-- Sending or receiving failed in this step. -/
def networkFails : Step ClientSig → Bool
  | ⟨.sendData _, .error _⟩ => true
  | ⟨.receiveData, .error _⟩ => true
  | _ => false

def lastReply (steps : List (Step ClientSig)) : Option Text := (steps.filterMap replyOf).getLast?

/-- The last reply was a message that accepts, with these fields. -/
def LastAccepted (steps : List (Step ClientSig)) (m : AuthReply) : Prop :=
  ∃ reply, lastReply steps = some reply ∧ AcceptAuthMessage.deserialize reply = .ok m

/-- The result is `true` exactly after a last reply that accepts, and then the globals are those of the
reply. -/
def TellsLogin (steps : List (Step ClientSig)) (b : Bool) (g : ClientGlobals) : Prop :=
  (b = true ↔ ∃ m, LastAccepted steps m) ∧ ∀ m, LastAccepted steps m → g.toGlobals = m.session

/-- The last reply so far, and whether sending or receiving has failed. -/
def ledger : Monitor ClientSig (Option Text × Bool) where
  next l st := ((replyOf st).or l.1, l.2 || networkFails st)
  ok _ _ := True

theorem foldl_ledger (steps : List (Step ClientSig)) (l : Option Text × Bool) :
    steps.foldl ledger.next l = ((lastReply steps).or l.1, l.2 || steps.any networkFails) := by
  induction steps generalizing l with
  | nil => simp [lastReply]
  | cons st steps ih =>
    rw [List.foldl_cons, ih, List.any_cons, ← Bool.or_assoc]
    refine Prod.ext ?_ rfl
    cases hst : replyOf st with
    | none => simp [lastReply, ledger, hst]
    | some reply =>
      simp only [lastReply, List.filterMap_cons, hst, List.getLast?_cons, ledger]
      cases (steps.filterMap replyOf).getLast? <;> rfl

theorem ledger_offline {op : ClientOp} (h : op.Offline) (l : Option Text × Bool) :
    ledger.ok l op ∧ ∀ r, ledger.next l ⟨op, r⟩ = l := by
  refine ⟨trivial, fun r => ?_⟩
  cases op with
  | sendData => exact h.elim
  | receiveData => exact h.elim
  | _ => exact Prod.ext rfl (Bool.or_false _)

/-- Nothing has failed, and the last reply, if there is one, does not accept. -/
def Waiting (l : Option Text × Bool) : Prop :=
  l.2 = false ∧ ∀ reply m, l.1 = some reply → AcceptAuthMessage.deserialize reply ≠ .ok m

/-- The loop was left with `true`: by the handler, after replies that did not accept, or with the session
of the last reply. -/
def Left (result : Bool × ClientGlobals) (l : Option Text × Bool) : Prop :=
  result.1 = true ∧
    ((l.2 = true ∧ ∀ reply m, l.1 = some reply → AcceptAuthMessage.deserialize reply ≠ .ok m) ∨
      (l.2 = false ∧ ∃ reply m, l.1 = some reply ∧ AcceptAuthMessage.deserialize reply = .ok m ∧
        result.2.toGlobals = m.session))

/-- What is made of a reply to a sign-up or a log-in. -/
theorem getAndPrintAuthResponse_cases (g : Globals) (reply : Text) :
    (∃ m, AcceptAuthMessage.deserialize reply = .ok m ∧
        Client.getAndPrintAuthResponse g reply = (.acceptAuth, m.session)) ∨
      (∀ m, AcceptAuthMessage.deserialize reply ≠ .ok m) ∧
        ∃ action, action ≠ .acceptAuth ∧ Client.getAndPrintAuthResponse g reply = (action, g) := by
  unfold Client.getAndPrintAuthResponse
  cases htag : Client.getActionType reply with
  | error x =>
    refine .inr ⟨fun m hm => ?_, .unknown, nofun, rfl⟩
    cases htag.symm.trans (getActionType_of_readAuthReply hm)
  | ok action =>
    by_cases haction : action = .acceptAuth
    · subst haction
      cases hm : AcceptAuthMessage.deserialize reply with
      | error x => exact .inr ⟨fun _ => nofun, .unknown, nofun, rfl⟩
      | ok m => exact .inl ⟨m, rfl, rfl⟩
    · refine .inr ⟨fun m hm => haction ?_, ?_⟩
      · exact Except.ok.inj (htag.symm.trans (getActionType_of_readAuthReply hm))
      · cases action with
        | acceptAuth => exact absurd rfl haction
        | reject =>
          cases RejectMessage.deserialize reply with
          | error x => exact ⟨.unknown, nofun, rfl⟩
          | ok message => exact ⟨.reject, nofun, rfl⟩
        | _ => exact ⟨_, haction, rfl⟩

namespace Client

open Prog

section Turns

variable {p : Primitives} {sha : Text → Text} {n : ℕ} {g : ClientGlobals}

/-- The contract of a turn. -/
abbrev Turn (q : ClientProg (ClientGlobals ⊕ (Bool × ClientGlobals))) (l : Option Text × Bool) : Prop :=
  q.Ensures ledger (fun x l => Sum.elim (fun _ => Waiting l) (fun result => Left result l) x)
    (fun _ _ => False) l

theorem turn_onAuthReply (g : ClientGlobals) (reply : Text) :
    Turn (onAuthReply g reply) (some reply, false) := by
  rcases getAndPrintAuthResponse_cases g.toGlobals reply with ⟨m, hm, hresponse⟩ | ⟨hm, action, htag, hresponse⟩
  · have hleft : ∀ b, b = true → Left (b, { g with toGlobals := m.session }) (some reply, false) :=
      fun b hb => ⟨hb, .inr ⟨rfl, reply, m, rfl, hm, rfl⟩⟩
    rw [onAuthReply, hresponse]
    refine ⟨trivial, fun _ => Ensures.tryCatch (Ensures.bind ?_)⟩
    refine (offline_generateSymetricKey _).ensures (fun _ hop => ledger_offline hop _) ?_ ?_
    · exact fun _ => hleft true rfl
    · exact throws_of_forall (fun _ => hleft exitFailure rfl) _
  · rw [onAuthReply, hresponse]
    refine ⟨trivial, fun _ => ?_⟩
    simp only [Prog.bind, if_neg htag]
    refine ⟨rfl, fun reply' m heq => ?_⟩
    obtain rfl := Option.some.inj heq
    exact hm m

theorem turn_awaitAuth (g : ClientGlobals) (message : Text) {l : Option Text × Bool} (h : Waiting l) :
    Turn (awaitAuth g message) l := by
  refine ⟨trivial, fun sent => ?_⟩
  cases sent with
  | error e =>
    exact ⟨rfl, .inl ⟨Bool.or_true _, h.2⟩⟩
  | ok _ =>
    refine ⟨trivial, fun received => ?_⟩
    cases received with
    | error e => exact ⟨rfl, .inl ⟨Bool.or_true _, h.2⟩⟩
    | ok reply =>
      have hnext : ledger.next (ledger.next l ⟨.sendData message, .ok ()⟩) ⟨.receiveData, .ok reply⟩ =
          (some reply, false) := Prod.ext rfl (by simp [ledger, networkFails, h.1])
      show Turn (onAuthReply g reply) _
      rw [hnext]
      exact turn_onAuthReply g reply

theorem throws_askForCredentials {φ : Failure → Prop} (n : ℕ) : (askForCredentials n).Throws φ := by
  refine throws_loop ?_ (fun _ => Throws.bind ?_ fun _ => ?_) n ()
  · exact nofun
  · exact fun _ _ => trivial
  · trivial

theorem turn_enter (serialize : Credentials → Text) (g : ClientGlobals) {l : Option Text × Bool}
    (h : Waiting l) : Turn (enter p sha n serialize g) l :=
  Ensures.bind ((offline_of_passive (passive_askForCredentials n)).ensures
    (fun _ hop => ledger_offline hop l) (fun _ => turn_awaitAuth _ _ h) (throws_askForCredentials n))

theorem turn_authenticateTurn (g : ClientGlobals) {l : Option Text × Bool} (h : Waiting l) :
    Turn (authenticateTurn p sha n g) l := by
  refine ⟨trivial, fun (action, input) => ?_⟩
  rw [(ledger_offline (show readInt.Offline from trivial) l).2]
  simp only [Prog.bind]
  split
  · exact h
  · split
    · exact turn_enter _ _ h
    · exact turn_enter _ _ h
    · exact h

theorem ensures_authenticate (p : Primitives) (sha : Text → Text) (n : ℕ) (g : ClientGlobals) :
    (authenticate p sha n g).Ensures ledger Left (fun _ _ => False) (none, false) := by
  refine ensures_loop (I := fun _ l => Waiting l) ?_ ?_ n g ⟨rfl, fun _ _ => nofun⟩
  · exact fun _ _ _ => ⟨trivial, nofun⟩
  · intro g l h
    refine (turn_authenticateTurn g h).mono ?_ fun _ _ he => he
    rintro (g' | result) l hl <;> exact hl

end Turns

end Client

/-- **The client's log-in tells the truth exactly if neither sending nor receiving fails**: it returns
`true` after a last reply that accepts, with the session of the reply, and after nothing else.  After a
failure it returns `true` as well.  It never throws. -/
theorem client_login_iff (p : Primitives) (sha : Text → Text) (n : ℕ) (g : ClientGlobals) :
    (∀ steps e, ¬Path (Client.authenticate p sha n g) steps (.throw e)) ∧
      ∀ steps b g', Path (Client.authenticate p sha n g) steps (.ret (b, g')) →
        (TellsLogin steps b g' ↔ ∀ st ∈ steps, networkFails st = false) := by
  constructor
  · intro steps e h
    exact ((Client.ensures_authenticate p sha n g).path h).2
  · intro steps b g' h
    obtain ⟨-, hleft⟩ := (Client.ensures_authenticate p sha n g).path h
    rw [foldl_ledger, Option.or_none, Bool.false_or] at hleft
    obtain ⟨hb, ⟨hfails, hrefused⟩ | ⟨hfails, reply, m, hlast, hm, hg⟩⟩ := hleft
    · obtain ⟨st, hst, hfail⟩ := List.any_eq_true.1 hfails
      refine iff_of_false (fun htells => ?_) fun hnone => Bool.false_ne_true ((hnone st hst).symm.trans hfail)
      obtain ⟨m, reply, hlast, hm⟩ := htells.1.1 hb
      exact hrefused reply m hlast hm
    · refine iff_of_true ⟨iff_of_true hb ⟨m, reply, hlast, hm⟩, ?_⟩ fun st hst => ?_
      · rintro m' ⟨reply', hlast', hm'⟩
        cases hlast'.symm.trans hlast
        cases hm'.symm.trans hm
        exact hg
      · exact Bool.eq_false_iff.2 (List.any_eq_false.1 hfails st hst)

/-- The globals before the log-in. -/
def noGlobals : ClientGlobals := { username := [], cookie := [], nonce := 0, hashedPassword := [] }

def anasPassword : Text := saltPassword secret (generateSalt openSSL ana)

def anasClientGlobals : ClientGlobals := { anasGlobals with hashedPassword := sha256' anasPassword }

/-- The reply to the log-in of `ana`. -/
def hello : Text := AcceptAuthMessage.serialize "hello".toList anasGlobals.header

/-- `ana` enters a number that is no choice, then logs in; she has a key already. -/
def logInSteps : List (Step ClientSig) :=
  [⟨.readInt, (3, .good)⟩, ⟨.readInt, (2, .good)⟩, ⟨.readWord, ana⟩, ⟨.readWord, secret⟩,
    ⟨.sendData (LogInMessage.serialize { username := ana, password := anasPassword }), .ok ()⟩,
    ⟨.receiveData, .ok hello⟩, ⟨.print (Client.authResponseText hello), ()⟩,
    ⟨.fileExists anasClientGlobals.symKeyPath, .ok true⟩]

theorem client_login_ana :
    Path (Client.authenticate openSSL sha256' 2 noGlobals) logInSteps (.ret (true, anasClientGlobals)) ∧
      TellsLogin logInSteps true anasClientGlobals := by
  have hresponse : Client.getAndPrintAuthResponse noGlobals.toGlobals hello =
      (.acceptAuth, anasGlobals) := by decide +kernel
  have hpath : Path (Client.authenticate openSSL sha256' 2 noGlobals) logInSteps
      (.ret (true, anasClientGlobals)) := by
    have hreply : Path (Client.onAuthReply { noGlobals with hashedPassword := sha256' anasPassword } hello)
        [⟨.print (Client.authResponseText hello), ()⟩,
          ⟨.fileExists anasClientGlobals.symKeyPath, .ok true⟩]
        (.ret (.inr (true, anasClientGlobals))) := by
      rw [Client.onAuthReply, hresponse]
      refine ⟨_, rfl, ?_⟩
      simp only [Prog.bind, if_true]
      exact ⟨_, rfl, rfl⟩
    exact ⟨_, rfl, _, rfl, _, rfl, _, rfl, _, rfl, _, rfl, hreply.bind rfl⟩
  refine ⟨hpath, ((client_login_iff openSSL sha256' 2 noGlobals).2 _ _ _ hpath).2 ?_⟩
  simp [logInSteps, networkFails]

/-- `ana` logs in while the connection is broken. -/
def brokenSteps : List (Step ClientSig) :=
  [⟨.readInt, (2, .good)⟩, ⟨.readWord, ana⟩, ⟨.readWord, secret⟩,
    ⟨.sendData (LogInMessage.serialize { username := ana, password := anasPassword }),
      .error (.runtimeError "Failed to write data over TLS")⟩]

/-- Nothing was sent and nothing received, and the client enters its menu. -/
theorem logged_in_by_failure :
    ¬∀ p sha n g steps b g', Path (Client.authenticate p sha n g) steps (.ret (b, g')) →
      TellsLogin steps b g' := by
  intro h
  have hpath : Path (Client.authenticate openSSL sha256' 1 noGlobals) brokenSteps
      (.ret (true, { noGlobals with hashedPassword := sha256' anasPassword })) :=
    ⟨_, rfl, _, rfl, _, rfl, _, rfl, rfl⟩
  obtain ⟨m, reply, hlast, -⟩ := (h _ _ _ _ _ _ _ hpath).1.1 rfl
  cases hlast

/-! ### The validator -/

/-- What is typed at an attempt: reading a word gives no empty one. -/
structure Typed where
  username : Text
  password : Text
  username_ne : username ≠ []
  password_ne : password ≠ []

/-- The message of an attempt. -/
def Typed.message (p : Primitives) (typed : Typed) : Text :=
  LogInValidatorMessage.serialize
    { username := typed.username
      password := saltPassword typed.password (generateSalt p typed.username) }

/-- What is shown of a reply. -/
def shownSteps (reply : Text) : List (Step ClientSig) :=
  let text := Client.authResponseText reply
  if text = [] then [] else [⟨.print text, ()⟩]

/-- The steps of attempts at which these words are typed and these replies are received. -/
def attemptSteps (p : Primitives) : List Typed → List Text → List (Step ClientSig)
  | typed :: rest, reply :: replies =>
    ⟨.readWord, typed.username⟩ :: ⟨.readWord, typed.password⟩ ::
      ⟨.sendData (typed.message p), .ok ()⟩ :: ⟨.receiveData, .ok reply⟩ ::
        (shownSteps reply ++ attemptSteps p rest replies)
  | _, _ => []

/-- Whatever is typed at the attempts with these replies, the log-in returns `true`, with the session. -/
def ReturnsTrue (p : Primitives) (g : Globals) (replies : List Text) (session : Globals) : Prop :=
  ∀ (typed : List Typed) (n : ℕ), typed.length = replies.length → replies.length ≤ n →
    Path (Validator.authenticate p n g) (attemptSteps p typed replies) (.ret (some true, session))

/-- The reply has a type, not that of an accepting one, and can be shown. -/
def Refuses (reply : Text) : Prop :=
  ∃ action, Client.getActionType reply = .ok action ∧ action ≠ .acceptAuth ∧
    (action = .reject → ∃ message, RejectMessage.deserialize reply = .ok message)

section Validator

variable {p : Primitives} {n : ℕ} {g : Globals}

/-- The words of an attempt are read at once. -/
theorem path_attempt {typed : Typed} {reply : Text} {steps : List (Step ClientSig)}
    {q : ClientProg (Option Bool × Globals)} :
    Path (Validator.authenticate p (n + 1) g) (⟨.readWord, typed.username⟩ ::
        ⟨.readWord, typed.password⟩ :: ⟨.sendData (typed.message p), .ok ()⟩ ::
          ⟨.receiveData, .ok reply⟩ :: steps) q ↔
      Path (Validator.onAuthReply (Validator.authenticate p n g) reply) steps q := by
  obtain ⟨username, password, hu, hp⟩ := typed
  obtain ⟨c, username, rfl⟩ := List.exists_cons_of_ne_nil hu
  obtain ⟨d, password, rfl⟩ := List.exists_cons_of_ne_nil hp
  refine path_call.trans ?_
  refine path_call.trans ?_
  refine path_call.trans ?_
  exact path_call

section Reply

variable {call : ClientProg (Option Bool × Globals)} {reply : Text} {steps : List (Step ClientSig)}
  {session : Globals}

theorem shownSteps_of_append {text : Text} {c : Char}
    (h : Client.authResponseText reply = text ++ [c]) :
    shownSteps reply = [⟨.print (text ++ [c]), ()⟩] := by
  rw [shownSteps, h]
  exact if_neg (List.append_ne_nil_of_right_ne_nil _ (List.cons_ne_nil c []))

/-- A reply that accepts ends the attempt with `true`. -/
theorem path_accepted {m : AuthReply} (hm : AcceptAuthMessage.deserialize reply = .ok m) :
    Path (Validator.onAuthReply call reply) (shownSteps reply) (.ret (some true, m.session)) := by
  have htag : Client.getActionType reply = .ok .acceptAuth := getActionType_of_readAuthReply hm
  have htext : Client.authResponseText reply = m.message ++ ['\n'] := by
    simp only [Client.authResponseText, htag, hm, bind, Except.bind, pure, Except.pure]
  rw [shownSteps_of_append htext, Validator.onAuthReply, htag]
  simp only [decoded, Except.mapError, Prog.ofExcept_ok, Prog.ret_bind, hm]
  exact path_call.2 rfl

theorem not_true_of_callAgain : ¬Path (Validator.callAgain call) steps (.ret (some true, session)) := by
  intro h
  obtain ⟨a, steps', h'⟩ := Path.of_bind h
  obtain rfl := Path.of_ret h'
  cases h'

theorem not_path_throw {α : Type} {e : Failure} {a : α} :
    ¬Path (.throw e : ClientProg α) steps (.ret a) := by
  intro h
  obtain rfl := Path.of_throw h
  cases h

/-- A reply that does not accept does not lead to `true`, whatever the next attempt does. -/
theorem not_true_of_refused (hr : ∀ m, AcceptAuthMessage.deserialize reply ≠ .ok m) :
    ¬Path (Validator.onAuthReply call reply) steps (.ret (some true, session)) := by
  rw [Validator.onAuthReply]
  cases Client.getActionType reply with
  | error x => exact not_path_throw
  | ok action =>
    cases action with
    | acceptAuth =>
      cases hm : AcceptAuthMessage.deserialize reply with
      | error x => exact not_path_throw
      | ok m => exact absurd hm (hr m)
    | reject =>
      cases RejectMessage.deserialize reply with
      | error x => exact not_path_throw
      | ok message =>
        intro h
        obtain ⟨_, steps', h'⟩ := Path.of_bind (p := printLine message) h
        exact not_true_of_callAgain h'
    | _ => exact not_true_of_callAgain

/-- A reply that refuses makes the result of the next attempt undefined. -/
theorem path_refused {b : Option Bool} (hr : Refuses reply) (h : Path call steps (.ret (b, session))) :
    Path (Validator.onAuthReply call reply) (shownSteps reply ++ steps) (.ret (none, session)) := by
  obtain ⟨action, htag, hne, hreject⟩ := hr
  have hagain : Path (Validator.callAgain call) steps (.ret (none, session)) := by
    rw [← List.append_nil steps]
    exact h.bind rfl
  rw [Validator.onAuthReply, htag]
  cases action with
  | acceptAuth => exact absurd rfl hne
  | reject =>
    obtain ⟨message, hm⟩ := hreject rfl
    have htext : Client.authResponseText reply = message ++ ['\n'] := by
      simp only [Client.authResponseText, htag, hm, bind, Except.bind, pure, Except.pure]
    rw [shownSteps_of_append htext]
    simp only [decoded, Except.mapError, Prog.ofExcept_ok, Prog.ret_bind, hm]
    exact path_call.2 hagain
  | _ =>
    have htext : Client.authResponseText reply = [] := by
      simp only [Client.authResponseText, htag, bind, Except.bind, pure, Except.pure]
    have hshown : shownSteps reply = [] := by rw [shownSteps, htext, if_pos rfl]
    rw [hshown]
    exact hagain

end Reply

end Validator

/-- **After refusals the validator has the session of the reply that accepts in the end**, but its result
is defined only if there were none. -/
theorem login_after_refusals {p : Primitives} {g : Globals} {rs : List Text} {last : Text} {m : AuthReply}
    (hlast : AcceptAuthMessage.deserialize last = .ok m) (hrs : ∀ r ∈ rs, Refuses r) {typed : List Typed}
    {n : ℕ} (htyped : typed.length = rs.length + 1) (hn : rs.length < n) :
    Path (Validator.authenticate p n g) (attemptSteps p typed (rs ++ [last]))
      (.ret (if rs = [] then some true else none, m.session)) := by
  induction rs generalizing typed n with
  | nil =>
    obtain ⟨first, rfl⟩ := List.length_eq_one_iff.1 htyped
    obtain ⟨n, rfl⟩ := Nat.exists_eq_add_one_of_ne_zero (Nat.ne_zero_of_lt hn)
    refine path_attempt.2 ?_
    show Path _ (shownSteps last ++ []) _
    rw [List.append_nil]
    exact path_accepted hlast
  | cons r rs ih =>
    obtain ⟨first, rest, rfl⟩ := List.exists_cons_of_length_eq_add_one htyped
    obtain ⟨n, rfl⟩ := Nat.exists_eq_add_one_of_ne_zero (Nat.ne_zero_of_lt hn)
    rw [List.forall_mem_cons] at hrs
    refine path_attempt.2 ?_
    rw [if_neg (List.cons_ne_nil r rs)]
    exact path_refused hrs.1 (ih hrs.2 (Nat.add_right_cancel htyped) (Nat.lt_of_add_lt_add_right hn))

/-- **The validator's log-in returns `true` after a reply that accepts exactly if this is the first
reply.** -/
theorem validator_login_iff (p : Primitives) (g : Globals) {rs : List Text} {last : Text} {m : AuthReply}
    (hlast : AcceptAuthMessage.deserialize last = .ok m)
    (hrs : ∀ r ∈ rs, ∀ m, AcceptAuthMessage.deserialize r ≠ .ok m) :
    ReturnsTrue p g (rs ++ [last]) m.session ↔ rs = [] := by
  constructor
  · intro h
    cases rs with
    | nil => rfl
    | cons r rs =>
      have hpath := h (List.replicate (r :: rs ++ [last]).length ⟨['x'], ['x'], nofun, nofun⟩)
        (rs.length + 2) List.length_replicate (by simp)
      exact absurd (path_attempt.1 hpath) (not_true_of_refused (hrs r List.mem_cons_self))
  · rintro rfl typed n htyped hn
    exact login_after_refusals hlast (fun r hr => absurd hr List.not_mem_nil) htyped hn

def refusal : Text := RejectMessage.serialize "no".toList

theorem deserialize_hello : AcceptAuthMessage.deserialize hello =
    .ok { anasGlobals.header with message := "hello".toList } := by decide +kernel

theorem deserialize_refusal (m : AuthReply) : AcceptAuthMessage.deserialize refusal ≠ .ok m := by
  intro hm
  cases (getActionType_of_readAuthReply hm).symm.trans (Client.getActionType_tag .reject "no".toList)

theorem validator_login_ana :
    ReturnsTrue openSSL noGlobals.toGlobals [hello] anasGlobals ∧
      ¬ReturnsTrue openSSL noGlobals.toGlobals [refusal, hello] anasGlobals := by
  constructor
  · refine (validator_login_iff openSSL _ deserialize_hello fun r hr => ?_).2 rfl
    exact absurd hr List.not_mem_nil
  · intro h
    refine List.cons_ne_nil refusal [] ((validator_login_iff openSSL _ deserialize_hello ?_).1 h)
    rw [List.forall_mem_singleton]
    exact deserialize_refusal

/-- The validator mistypes the password once, and the result is not defined. -/
theorem login_undefined_after_refusal :
    ¬∀ p g rs last m, AcceptAuthMessage.deserialize last = .ok m →
      (∀ r ∈ rs, ∀ m, AcceptAuthMessage.deserialize r ≠ .ok m) →
        ReturnsTrue p g (rs ++ [last]) m.session := by
  intro h
  have hreturns := h openSSL noGlobals.toGlobals [refusal] hello _ deserialize_hello
    (List.forall_mem_singleton.2 deserialize_refusal)
  have typed : Typed := ⟨ana, secret, nofun, nofun⟩
  exact not_true_of_refused deserialize_refusal
    (path_attempt.1 (hreturns [typed, typed] 2 rfl (Nat.le_refl 2)))

end TicketIST
