import TicketIST.Dialogues
import TicketIST.InStep
import TicketIST.Wallet

/-!
# Whose replies the client acts on

The client knows its session by a username, a cookie and a nonce, and a reply to an authenticated request
repeats them.  Of such a reply the menu shows the text only if they agree with its globals.  The reply
that accepts a purchase takes another way, to `saveTicket`, which compares nothing: whatever it carries
is stored as a ticket (`own_replies_iff`).
-/

namespace TicketIST

open TicketIST.Lib ClientOp

/-! ### Replies of a session -/

/-- The reply is an accepting or a rejecting one with the fields of the session. -/
def OfSession (g : Globals) (reply : Text) : Prop :=
  ∃ tag m, (tag = .acceptAuth ∨ tag = .rejectAuth) ∧ readAuthReply tag reply = .ok m ∧
    m.toAuthenticatedMessage = g.header

/-- The text in place of the reply. -/
def ignored : Text := "Invalid message received. Ignored!\n".toList

/-- Unless the reply is of the session, no file is written on any way through the client's handling of
it, and if it is an accepting or a rejecting one, nothing of it is shown. -/
def ActsOnOwn (p : Primitives) (sha : Text → Text) (g : ClientGlobals) (pending : ActionType)
    (reply : Text) : Prop :=
  ∀ n steps q, Path (Client.handleReply p sha n g pending reply) steps q →
    ¬OfSession g.toGlobals reply →
      (∀ st ∈ steps, ∀ path content, st.1 ≠ .writeFile path content) ∧
        (Client.getActionType reply = .ok .acceptAuth ∨ Client.getActionType reply = .ok .rejectAuth →
          ∀ st ∈ steps, ∀ text, st.1 = .print text → text = ignored)

section Decoders

variable {tag : ActionType} {data : Text} {m : AuthReply}

theorem strtol_of_stol {s : Text} {n : ℤ} (h : stol s = .ok n) : strtol s = some n := by
  simp only [stol, stoInt] at h
  repeat' split at h
  all_goals cases h
  assumption

theorem stoi_of_checkAction {mismatch : String} {action : Text} {u : Unit}
    (h : checkAction tag mismatch action = .ok u) : stoi action = .ok tag.toInt := by
  simp only [checkAction, bind, Except.bind, pure, Except.pure] at h
  repeat' split at h
  all_goals cases h
  rename_i n hn hne
  rw [hn, not_not.1 hne]

/-- The fields that a decoded reply was taken from. -/
theorem exists_fields (h : readAuthReply tag data = .ok m) :
    ∃ actionTypeStr nonceStr, data = actionTypeStr ++ ':' :: (m.username ++ ':' ::
        (m.sessionCookies ++ ':' :: (nonceStr ++ ':' :: m.message))) ∧
      ':' ∉ actionTypeStr ∧ ':' ∉ m.username ∧ ':' ∉ m.sessionCookies ∧
      stoi actionTypeStr = .ok tag.toInt ∧ stol nonceStr = .ok m.nonce := by
  simp only [readAuthReply, bind, Except.bind, pure, Except.pure, throw, throwThe,
    MonadExceptOf.throw] at h
  repeat' split at h
  all_goals cases h
  rename_i actionTypeStr _ h₁ _ _ hcheck _ username _ h₂ _ cookie _ h₃ _ nonceStr message h₄ _ _ hnonce _
  obtain ⟨rfl, haction⟩ := eq_of_cut h₁
  obtain ⟨rfl, husername⟩ := eq_of_cut h₂
  obtain ⟨rfl, hcookie⟩ := eq_of_cut h₃
  obtain ⟨rfl, -⟩ := eq_of_cut h₄
  exact ⟨actionTypeStr, nonceStr, rfl, haction, husername, hcookie, stoi_of_checkAction hcheck, hnonce⟩

theorem getActionType_of_readAuthReply (h : readAuthReply tag data = .ok m) :
    Client.getActionType data = .ok tag := by
  obtain ⟨actionTypeStr, nonceStr, rfl, haction, -, -, htag, -⟩ := exists_fields h
  rw [Client.getActionType, cut_append haction]
  dsimp only
  rw [htag]
  exact congrArg Except.ok (ActionType.ofInt_toInt tag)

/-- The number at the beginning of a text, and of its first line. -/
theorem strtol_line {a b s : Text} {ss : IStream} {x y : ℤ}
    (hread : getline? { rest := a ++ ':' :: s } '\n' = some (b, ss))
    (ha : strtol a = some x) (hb : strtol b = some y) : x = y := by
  by_cases hline : '\n' ∈ a ++ ':' :: s
  · obtain ⟨b', t, h, hb'⟩ := List.eq_append_cons_of_mem hline
    rw [h, getline?_append hb'] at hread
    cases hread
    -- the shorter of the two texts is followed by no digit in the other
    rcases List.append_eq_append_iff.1 h with ⟨c, rfl, hc⟩ | ⟨c, rfl, hc⟩
    · refine Option.some_inj.1 ((strtol_append ha fun d hd => ?_).symm.trans hb)
      cases c with
      | nil => cases hd
      | cons d' c =>
        cases hd
        cases (List.cons.inj hc).1
        decide
    · refine Option.some_inj.1 (ha.symm.trans (strtol_append hb fun d hd => ?_))
      cases c with
      | nil => cases hd
      | cons d' c =>
        cases hd
        cases (List.cons.inj hc).1
        decide
  · rw [getline?_last hline (by simp)] at hread
    cases hread
    refine Option.some_inj.1 ((strtol_append ha fun d hd => ?_).symm.trans hb)
    cases hd
    decide

/-- `AuthenticatedMessage::deserialize` reads the nonce up to the end of a line where the decoders of the
replies read it up to a colon.  Where both find a number, it is the same. -/
theorem eq_of_readAuthReply {a : AuthenticatedMessage} (h : readAuthReply tag data = .ok m)
    (ha : AuthenticatedMessage.deserialize data = .ok a) : m.toAuthenticatedMessage = a := by
  obtain ⟨actionTypeStr, nonceStr, rfl, haction, hu, hc, -, hnonce⟩ := exists_fields h
  simp only [AuthenticatedMessage.deserialize, readHeader, getline?_append haction, getline?_append hu,
    getline?_append hc, Option.bind_eq_bind, Option.bind_some, Option.pure_def] at ha
  cases hline : getline? { rest := nonceStr ++ ':' :: m.message } '\n' with
  | none =>
    rw [hline] at ha
    cases ha
  | some x =>
    obtain ⟨line, ss⟩ := x
    simp only [hline, Option.bind_some, bind, Except.bind, pure, Except.pure] at ha
    split at ha
    · cases ha
    · rename_i n hn
      cases ha
      rw [← strtol_line hline (strtol_of_stol hnonce) (strtol_of_stol hn)]

end Decoders

theorem Globals.isAuthenticationCorrect_eq_true {g : Globals} {m : AuthenticatedMessage} :
    g.isAuthenticationCorrect m = true ↔ m = g.header := by
  simp only [isAuthenticationCorrect, Bool.and_eq_true, decide_eq_true_eq]
  constructor
  · rintro ⟨⟨hu, hc⟩, hn⟩
    rw [header, hu, hc, hn]
  · rintro rfl
    exact ⟨⟨rfl, rfl⟩, rfl⟩

/-! ### The two ways of a reply -/

section Ways

variable {p : Primitives} {sha : Text → Text} {g : ClientGlobals} {pending : ActionType} {reply : Text}

/-- Of an accepting or a rejecting reply the text is shown if the fields are those of the session. -/
theorem getAndPrintServerResponse_eq {g : Globals} {tag : ActionType}
    (htag : Client.getActionType reply = .ok tag) (h : tag = .acceptAuth ∨ tag = .rejectAuth) :
    Client.getAndPrintServerResponse g reply = (do
      let a ← AuthenticatedMessage.deserialize reply
      if g.isAuthenticationCorrect a then
        let m ← readAuthReply tag reply
        return (tag, m.message ++ ['\n'])
      else return (.unknown, ignored)) := by
  unfold Client.getAndPrintServerResponse
  rcases h with rfl | rfl
  all_goals
    rw [htag]
    cases AuthenticatedMessage.deserialize reply with
    | error x => rfl
    | ok a =>
      simp only [Except.map, Functor.map, bind, Except.bind, pure, Except.pure, true_or, or_true, if_true]
      cases g.isAuthenticationCorrect a <;> rfl

/-- The reply of another session is not shown. -/
theorem text_of_not_ofSession {g : Globals} {tag : ActionType} {r : ActionType × Text}
    (hnot : ¬OfSession g reply) (htag : Client.getActionType reply = .ok tag)
    (h : tag = .acceptAuth ∨ tag = .rejectAuth)
    (hr : Client.getAndPrintServerResponse g reply = .ok r) : r.2 = ignored := by
  rw [getAndPrintServerResponse_eq htag h] at hr
  cases ha : AuthenticatedMessage.deserialize reply with
  | error x =>
    rw [ha] at hr
    cases hr
  | ok a =>
    rw [ha] at hr
    cases hcorrect : g.isAuthenticationCorrect a with
    | false =>
      simp only [bind, Except.bind, hcorrect] at hr
      cases hr
      rfl
    | true =>
      cases hm : readAuthReply tag reply with
      | error x =>
        simp only [bind, Except.bind, hcorrect, hm] at hr
        cases hr
      | ok m =>
        refine absurd ⟨tag, m, h, hm, ?_⟩ hnot
        rw [eq_of_readAuthReply hm ha, Globals.isAuthenticationCorrect_eq_true.1 hcorrect]

/-- Whatever password is typed leads to a key, at the latest by insisting on it. -/
theorem exists_key (p : Primitives) (sha : Text → Text) (g : ClientGlobals) (password : Text) :
    ∃ steps, Path (Client.generateKDFKeyToSaveTicket p sha 1 g) steps
      (.ret (keyDerivationFunction p (saltPassword password (generateSalt p g.username)) 10000 32)) := by
  by_cases h : sha (saltPassword password (generateSalt p g.username)) = g.hashedPassword
  · refine ⟨[⟨.readWord, password⟩], _, rfl, ?_⟩
    simp only [Prog.bind, if_pos h]
    rfl
  · refine ⟨[⟨.readWord, password⟩, ⟨.readChar, 'Y'⟩], _, rfl, ?_⟩
    simp only [Prog.bind, if_neg h]
    exact ⟨_, rfl, rfl⟩

/-- What accepts a purchase can be stored, once the user has a key and has typed a password and the name
of a new file. -/
theorem exists_storeTicket (p : Primitives) (sha : Text → Text) (g : ClientGlobals) {m : AuthReply}
    (hm : AcceptAuthMessage.deserialize reply = .ok m) :
    ∃ steps content, Path (Client.storeTicket p sha 1 g reply) steps (.ret ()) ∧
      ⟨.writeFile (g.ticketPath ['t']) content, true⟩ ∈ steps := by
  obtain ⟨keySteps, hkey⟩ := exists_key p sha g secret
  obtain ⟨content, hcontent⟩ : ∃ content, TicketIST.saveTicket p (g.device symKey) iv₁ iv₂
      (keyDerivationFunction p (saltPassword secret (generateSalt p g.username)) 10000 32) reply =
        .ok content := by
    rw [TicketIST.saveTicket, hm]
    exact ⟨_, rfl⟩
  have hfolder : Path (Client.makeFolder g) [⟨.fileExists g.folderPath, .ok true⟩] (.ret ()) :=
    ⟨_, rfl, rfl⟩
  have hname : Path (Client.askNewFileName 1 g)
      [⟨.readWord, ['t']⟩, ⟨.fileExists (g.ticketPath ['t']), .ok false⟩] (.ret ['t']) :=
    ⟨_, rfl, _, rfl, rfl⟩
  have hwrite : Path (do
      require (← ask (writeFile (g.ticketPath ['t']) content))
        ("Failed to open file for writing: " ++ String.ofList (g.ticketPath ['t'])))
      [⟨.writeFile (g.ticketPath ['t']) content, true⟩] (.ret ()) := ⟨_, rfl, rfl⟩
  rw [Client.storeTicket, hm]
  refine ⟨[⟨.fileExists g.folderPath, .ok true⟩] ++ ⟨.fileExists g.symKeyPath, .ok true⟩ ::
    ⟨.readFile g.symKeyPath, some symKey⟩ :: (keySteps ++ ⟨.randBytes, iv₁⟩ :: ⟨.randBytes, iv₂⟩ ::
      ([⟨.readWord, ['t']⟩, ⟨.fileExists (g.ticketPath ['t']), .ok false⟩] ++
        [⟨.writeFile (g.ticketPath ['t']) content, true⟩])), content, hfolder.bind ?_, ?_⟩
  · refine ⟨_, rfl, _, rfl, hkey.bind ⟨_, rfl, _, rfl, ?_⟩⟩
    simp only [Prog.bind, hcontent]
    exact hname.bind hwrite
  · simp

/-- A purchase is stored whatever session its reply is of. -/
theorem exists_store (p : Primitives) (sha : Text → Text) (g : ClientGlobals) {m : AuthReply}
    (hm : AcceptAuthMessage.deserialize reply = .ok m) :
    ∃ steps content, Path (Client.handleReply p sha 1 g .buyTicket reply) steps (.ret ()) ∧
      ⟨.writeFile (g.ticketPath ['t']) content, true⟩ ∈ steps := by
  obtain ⟨steps, content, hpath, hmem⟩ := exists_storeTicket p sha g hm
  refine ⟨steps, content, ?_, hmem⟩
  rw [Client.handleReply, getActionType_of_readAuthReply hm]
  exact hpath.tryCatch _

/-- What handling a reply can do: nothing, or what `saveTicket` does with a purchase, or to print the
response. -/
theorem handleReply_cases {n : ℕ} {steps : List (Step ClientSig)} {q : ClientProg Unit}
    (h : Path (Client.handleReply p sha n g pending reply) steps q) :
    steps = [] ∨ (pending = .buyTicket ∧ ∃ m, AcceptAuthMessage.deserialize reply = .ok m) ∨
      ∃ r, Client.getAndPrintServerResponse g.toGlobals reply = .ok r ∧ steps = [⟨.print r.2, ()⟩] := by
  unfold Client.handleReply at h
  cases htag : Client.getActionType reply with
  | error x =>
    rw [htag] at h
    exact .inl h.of_throw
  | ok action =>
    rw [htag] at h
    change Path (if pending = .buyTicket ∧ action = .acceptAuth then _ else _) steps q at h
    split at h
    · rename_i hbuy
      cases hm : AcceptAuthMessage.deserialize reply with
      | error x =>
        have hsave : Client.saveTicket p sha n g reply = .ret () := by
          rw [Client.saveTicket, Client.storeTicket, hm]
          rfl
        rw [hsave] at h
        exact .inl h.of_ret
      | ok m => exact .inr (.inl ⟨hbuy.1, m, rfl⟩)
    · cases hr : Client.getAndPrintServerResponse g.toGlobals reply with
      | error x =>
        rw [hr] at h
        exact .inl h.of_throw
      | ok r =>
        rw [hr] at h
        change Path (ask (print r.2)) steps q at h
        rcases Path.of_call h with rfl | ⟨_, rfl⟩
        · exact .inl rfl
        · exact .inr (.inr ⟨r, rfl, rfl⟩)

/-- The fields of an accepting reply tell whether it is of the session. -/
theorem not_ofSession_of_ne {g : Globals} {m : AuthReply}
    (hm : AcceptAuthMessage.deserialize reply = .ok m) (hne : m.toAuthenticatedMessage ≠ g.header) :
    ¬OfSession g reply := by
  rintro ⟨tag, m', -, hm', heq⟩
  have htag : tag = .acceptAuth :=
    Except.ok.inj ((getActionType_of_readAuthReply hm').symm.trans (getActionType_of_readAuthReply hm))
  subst htag
  cases hm'.symm.trans hm
  exact hne heq

end Ways

/-- **The client acts on replies of its own session only, but for the one that accepts a purchase**: that
one is stored whatever its fields are. -/
theorem own_replies_iff (p : Primitives) (sha : Text → Text) (g : ClientGlobals) (pending : ActionType)
    (reply : Text) : ActsOnOwn p sha g pending reply ↔
      ¬(pending = .buyTicket ∧ ∃ m, AcceptAuthMessage.deserialize reply = .ok m ∧
        m.toAuthenticatedMessage ≠ g.header) := by
  constructor
  · rintro h ⟨rfl, m, hm, hne⟩
    obtain ⟨steps, content, hpath, hwrite⟩ := exists_store p sha g hm
    exact (h 1 steps _ hpath (not_ofSession_of_ne hm hne)).1 _ hwrite _ content rfl
  · intro hother n steps q hpath hnot
    rcases handleReply_cases hpath with rfl | ⟨hbuy, m, hm⟩ | ⟨r, hr, rfl⟩
    · exact ⟨nofun, fun _ => nofun⟩
    · refine absurd ⟨hbuy, m, hm, fun heq => ?_⟩ hother
      exact hnot ⟨.acceptAuth, m, .inl rfl, hm, heq⟩
    · simp only [List.mem_singleton, forall_eq]
      refine ⟨nofun, fun htag text heq => ?_⟩
      cases heq
      rcases htag with htag | htag
      · exact text_of_not_ofSession hnot htag (.inl rfl) hr
      · exact text_of_not_ofSession hnot htag (.inr rfl) hr

/-- An accepting reply of another session, with a text that is no ticket. -/
def forged : Text :=
  AcceptAuthMessage.serialize "no ticket".toList
    { username := "eve".toList, sessionCookies := "COOKIE_x".toList, nonce := 7 }

/-- `ana` buys, gets the reply of another session, and stores it. -/
theorem forged_ticket_is_stored :
    ¬∀ (p : Primitives) (sha : Text → Text) (g : ClientGlobals) (pending : ActionType) (reply : Text),
      ActsOnOwn p sha g pending reply := by
  intro h
  have hm : AcceptAuthMessage.deserialize forged =
      .ok ⟨⟨"eve".toList, "COOKIE_x".toList, 7⟩, "no ticket".toList⟩ := by decide +kernel
  have hne : (⟨"eve".toList, "COOKIE_x".toList, 7⟩ : AuthenticatedMessage) ≠ anasGlobals.header := by
    decide +kernel
  let g : ClientGlobals := { anasGlobals with hashedPassword := sha256' salted }
  obtain ⟨steps, content, hpath, hwrite⟩ := exists_store openSSL sha256' g hm
  exact (h openSSL sha256' g .buyTicket forged 1 steps _ hpath (not_ofSession_of_ne hm hne)).1 _ hwrite
    _ content rfl

end TicketIST
