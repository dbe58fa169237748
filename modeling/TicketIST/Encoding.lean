import TicketIST.Controller
import TicketIST.Lib.Rendering

/-!
# What the decoders make of what was encoded

A message has no escapes, so its decoder finds the fields again only if no field but the last contains
the separator.  For authenticated requests this is so, and the one field that changes on the way is a
price, which arrives as it was written; a price that is written too small does not arrive at all
(`requests_roundtrip`).  For sign-ups and log-ins the username has to be free of `:`, which no client
checks: otherwise the rest of the name arrives as a part of the password (`credentials_arrive_iff`).
-/

namespace TicketIST

open TicketIST.Lib

/-! ### Tags -/

theorem colon_not_mem_showInt (n : ℤ) : ':' ∉ showInt n := by
  intro h
  rcases mem_showInt h with h | h <;> revert h <;> decide

theorem newline_not_mem_showInt (n : ℤ) : '\n' ∉ showInt n := by
  intro h
  rcases mem_showInt h with h | h <;> revert h <;> decide

theorem showInt_ne_nil (n : ℤ) : showInt n ≠ [] := by
  cases n with
  | ofNat n => exact Nat.toDigits_ne_nil
  | negSucc n => exact List.cons_ne_nil _ _

theorem stoi_tag (tag : ActionType) : stoi (showInt tag.toInt) = .ok tag.toInt := by
  cases tag <;> exact stoi_showInt (by decide)

/-- The controller finds the type that an encoder wrote. -/
theorem getActionType_tag (tag : ActionType) (rest : Text) :
    getActionType (showInt tag.toInt ++ ':' :: rest) = .ok tag := by
  rw [getActionType, cut_append (colon_not_mem_showInt _)]
  dsimp only
  rw [stoi_tag]
  exact congrArg Except.ok (ActionType.ofInt_toInt tag)

theorem checkAction_tag (tag : ActionType) (mismatch : String) :
    checkAction tag mismatch (showInt tag.toInt) = .ok () := by
  rw [checkAction, stoi_tag]
  simp only [bind, Except.bind, ne_eq, not_true_eq_false, if_false]
  rfl

/-- A type of message, with its encoder and its decoder. -/
structure Codec (α : Type) where
  tag : ActionType
  serialize : α → Text
  deserialize : Text → Except Exn α

/-- The encoded `m` is found to be of its type, and decoded to `m'`. -/
def Codec.Arrives {α : Type} (c : Codec α) (m m' : α) : Prop :=
  getActionType (c.serialize m) = .ok c.tag ∧ c.deserialize (c.serialize m) = .ok m'

theorem Codec.not_arrives {α : Type} {c : Codec α} {m m' : α} {x : Exn}
    (h : c.deserialize (c.serialize m) = .error x) : ¬c.Arrives m m' := by
  rintro ⟨-, harr⟩
  rw [h] at harr
  cases harr

/-! ### Credentials -/

section Credentials

variable {tag : ActionType} {m : Credentials}

theorem readCredentials_write (h : ':' ∉ m.username) :
    readCredentials (writeCredentials tag m) = .ok m := by
  rw [readCredentials, writeCredentials, cut_append (colon_not_mem_showInt _)]
  dsimp only
  rw [cut_append h]

/-- A colon in the username ends it there. -/
theorem readCredentials_split {name rest password : Text} (h : ':' ∉ name) :
    readCredentials (writeCredentials tag ⟨name ++ ':' :: rest, password⟩) =
      .ok ⟨name, rest ++ ':' :: password⟩ := by
  rw [readCredentials, writeCredentials, cut_append (colon_not_mem_showInt _)]
  dsimp only
  rw [List.append_assoc, List.cons_append, cut_append h]

theorem arrives_iff : Codec.Arrives ⟨tag, writeCredentials tag, readCredentials⟩ m m ↔
    ':' ∉ m.username := by
  constructor
  · rintro ⟨-, hm⟩ hc
    obtain ⟨username, password⟩ := m
    obtain ⟨name, rest, rfl, hname⟩ := List.eq_append_cons_of_mem hc
    dsimp only at hm
    rw [readCredentials_split hname] at hm
    have hlen := congrArg (fun m => m.username.length) (Except.ok.inj hm)
    simp at hlen
  · intro h
    exact ⟨getActionType_tag tag _, readCredentials_write h⟩

theorem writeCredentials_inj {tag' : ActionType} {m' : Credentials} (h : ':' ∉ m.username)
    (h' : ':' ∉ m'.username) (heq : writeCredentials tag m = writeCredentials tag' m') : m = m' := by
  obtain ⟨-, hrest⟩ := append_sep_inj (colon_not_mem_showInt _) (colon_not_mem_showInt _) heq
  obtain ⟨hu, hp⟩ := append_sep_inj h h' hrest
  obtain ⟨username, password⟩ := m
  obtain ⟨username', password'⟩ := m'
  rw [Credentials.mk.injEq]
  exact ⟨hu, hp⟩

end Credentials

/-- The three messages with credentials. -/
def credentialMessages : List (Codec Credentials) :=
  [⟨.signUp, SignUpMessage.serialize, SignUpMessage.deserialize⟩,
   ⟨.logIn, LogInMessage.serialize, LogInMessage.deserialize⟩,
   ⟨.logInValidator, LogInValidatorMessage.serialize, LogInValidatorMessage.deserialize⟩]

theorem exists_tag {c : Codec Credentials} (hc : c ∈ credentialMessages) :
    ∃ tag, c = ⟨tag, writeCredentials tag, readCredentials⟩ := by
  simp only [credentialMessages, List.mem_cons, List.not_mem_nil, or_false] at hc
  rcases hc with rfl | rfl | rfl
  · exact ⟨.signUp, rfl⟩
  · exact ⟨.logIn, rfl⟩
  · exact ⟨.logInValidator, rfl⟩

/-- **Credentials arrive as typed exactly if the username has no colon**, in each of the messages; and
credentials with such usernames make the same message only if they are the same. -/
theorem credentials_arrive_iff (m : Credentials) :
    (∀ c ∈ credentialMessages, c.Arrives m m ↔ ':' ∉ m.username) ∧
      ∀ m' : Credentials, ':' ∉ m.username → ':' ∉ m'.username →
        ∀ c ∈ credentialMessages, ∀ c' ∈ credentialMessages, c.serialize m = c'.serialize m' →
          m = m' := by
  constructor
  · intro c hc
    obtain ⟨tag, rfl⟩ := exists_tag hc
    exact arrives_iff
  · intro m' h h' c hc c' hc' heq
    obtain ⟨tag, rfl⟩ := exists_tag hc
    obtain ⟨tag', rfl⟩ := exists_tag hc'
    exact writeCredentials_inj h h' heq

/-- What `std::cin >> s` reads. -/
def Word (s : Text) : Prop := s ≠ [] ∧ ∀ c ∈ s, isSpace c = false

/-- One who registers as `a:b` with the password `c` is registered as `a`, with the password `b:c`. -/
theorem registered_under_another_name :
    Word "a:b".toList ∧ Word "c".toList ∧
      SignUpMessage.deserialize (SignUpMessage.serialize ⟨"a:b".toList, "c".toList⟩) =
        .ok ⟨"a".toList, "b:c".toList⟩ ∧
      SignUpMessage.serialize ⟨"a:b".toList, "c".toList⟩ =
        SignUpMessage.serialize ⟨"a".toList, "b:c".toList⟩ ∧
      ¬∀ m : Credentials, Word m.username → Word m.password → ∀ c ∈ credentialMessages,
        c.Arrives m m := by
  have hw : Word "a:b".toList := ⟨by decide, by simp [isSpace]⟩
  have hw' : Word "c".toList := ⟨by decide, by simp [isSpace]⟩
  refine ⟨hw, hw', by decide +kernel, by decide +kernel, ?_⟩
  intro h
  have harr := (h ⟨"a:b".toList, "c".toList⟩ hw hw' _ List.mem_cons_self).2
  have hdec : SignUpMessage.deserialize (SignUpMessage.serialize ⟨"a:b".toList, "c".toList⟩) =
      .ok ⟨"a".toList, "b:c".toList⟩ := by decide +kernel
  have hm := Except.ok.inj (hdec.symm.trans harr)
  revert hm
  decide

/-! ### Authenticated requests -/

/-- The fields of an authenticated message do not run into each other; the nonce is a `long`. -/
structure AuthenticatedMessage.Sound (m : AuthenticatedMessage) : Prop where
  username : ':' ∉ m.username
  sessionCookies : ':' ∉ m.sessionCookies
  nonce : -2 ^ 63 ≤ m.nonce ∧ m.nonce < 2 ^ 63

/-- The header of what `ana` sends in the examples. -/
def fromAna : AuthenticatedMessage :=
  { username := ana, sessionCookies := "COOKIE_x".toList, nonce := -7 }

theorem fromAna_sound : fromAna.Sound := ⟨by decide, by decide, by decide⟩

/-- What a last field can be: `std::getline` takes it up to the end of its line. -/
def Line (s : Text) : Prop := s ≠ [] ∧ '\n' ∉ s

theorem Line.getline? {s : Text} (h : Line s) :
    getline? { rest := s } '\n' = some (s, { rest := [], eof := true }) := getline?_last h.2 h.1

section Header

variable {m : AuthenticatedMessage}

/-- The header that the encoder wrote, as it is read. -/
def AuthenticatedMessage.header (tag : ActionType) (m : AuthenticatedMessage) : Header :=
  { action := showInt tag.toInt, username := m.username, sessionCookies := m.sessionCookies,
    nonce := showInt m.nonce }

/-- A header and what follows it, field by field. -/
theorem writeHeader_append (tag : ActionType) (m : AuthenticatedMessage) (rest : Text) :
    writeHeader tag m ++ rest = showInt tag.toInt ++ ':' :: (m.username ++ ':' ::
      (m.sessionCookies ++ ':' :: (showInt m.nonce ++ ':' :: rest))) := by
  simp [writeHeader]

/-- The first three fields. -/
theorem readHeader_append {delim : Char} (hu : ':' ∉ m.username) (hc : ':' ∉ m.sessionCookies)
    (tag : ActionType) {nonce rest : Text} {ss : IStream}
    (hn : getline? { rest } delim = some (nonce, ss)) :
    readHeader (showInt tag.toInt ++ ':' :: (m.username ++ ':' :: (m.sessionCookies ++ ':' :: rest)))
      delim = some ({ m.header tag with nonce }, ss) := by
  simp only [readHeader, getline?_append (colon_not_mem_showInt _), getline?_append hu,
    getline?_append hc, hn, Option.bind_eq_bind, Option.bind_some, Option.pure_def,
    AuthenticatedMessage.header]

theorem readHeader_writeHeader (hu : ':' ∉ m.username) (hc : ':' ∉ m.sessionCookies)
    (tag : ActionType) (rest : Text) :
    readHeader (writeHeader tag m ++ rest) ':' = some (m.header tag, { rest }) := by
  rw [writeHeader_append]
  exact readHeader_append hu hc tag (getline?_append (colon_not_mem_showInt _) rest)

theorem AuthenticatedMessage.Sound.readHeader (hm : m.Sound) (tag : ActionType) (rest : Text) :
    readHeader (writeHeader tag m ++ rest) ':' = some (m.header tag, { rest }) :=
  readHeader_writeHeader hm.username hm.sessionCookies tag rest

theorem getActionType_writeHeader (tag : ActionType) (m : AuthenticatedMessage) (rest : Text) :
    getActionType (writeHeader tag m ++ rest) = .ok tag := by
  rw [writeHeader_append]
  exact getActionType_tag tag _

end Header

/-! ### Replies -/

section Replies

variable {m : AuthenticatedMessage} (hm : m.Sound)

include hm

/-- The message of a reply, whatever it contains, is what follows the header. -/
theorem readAuthReply_writeHeader (tag : ActionType) {message : Text} (hne : message ≠ []) :
    readAuthReply tag (writeHeader tag m ++ message) = .ok { m with message } := by
  have hne' : message.isEmpty = false := by
    rw [List.isEmpty_eq_false_iff]
    exact hne
  simp only [readAuthReply, writeHeader_append, cut_append (colon_not_mem_showInt _),
    cut_append hm.username, cut_append hm.sessionCookies, checkAction_tag, stol_showInt hm.nonce, hne',
    bind, Except.bind, pure, Except.pure, Bool.false_eq_true, if_false]

theorem AcceptAuthMessage.deserialize_serialize {message : Text} (hne : message ≠ []) :
    deserialize (serialize message m) = .ok { m with message } :=
  readAuthReply_writeHeader hm .acceptAuth hne

/-- The decoder of every authenticated message takes the nonce and the rest of its line as one field,
and the conversion stops at the separator. -/
theorem AuthenticatedMessage.deserialize_writeHeader (tag : ActionType) (message : Text) :
    deserialize (writeHeader tag m ++ message) = .ok m := by
  obtain ⟨line, ss, hline⟩ : ∃ line ss,
      getline? { rest := showInt m.nonce ++ ':' :: message } '\n' =
        some (showInt m.nonce ++ ':' :: line, ss) := by
    by_cases hn : '\n' ∈ message
    · obtain ⟨line, rest, rfl, hl⟩ := List.eq_append_cons_of_mem hn
      refine ⟨line, { rest }, ?_⟩
      have hfront : '\n' ∉ showInt m.nonce ++ ':' :: line := by
        simp [newline_not_mem_showInt, hl]
      simpa using getline?_append hfront rest
    · refine ⟨message, { rest := [], eof := true }, getline?_last ?_ (by simp)⟩
      simp [newline_not_mem_showInt, hn]
  have hstol : stol (showInt m.nonce ++ ':' :: line) = .ok m.nonce :=
    stoInt_showInt hm.nonce (by simp)
  simp only [deserialize, writeHeader_append,
    readHeader_append hm.username hm.sessionCookies tag hline, AuthenticatedMessage.header, hstol,
    bind, Except.bind, pure, Except.pure]

end Replies

/-- The two replies to an authenticated request. -/
def authReplies : List (Codec AuthReply) :=
  [⟨.acceptAuth, fun r => AcceptAuthMessage.serialize r.message r.toAuthenticatedMessage,
      AcceptAuthMessage.deserialize⟩,
   ⟨.rejectAuth, fun r => RejectAuthMessage.serialize r.message r.toAuthenticatedMessage,
      RejectAuthMessage.deserialize⟩]

/-- **The two decoders of a reply agree**: the one that a client checks the session with finds the
fields that the other, which reads the message as well, finds. -/
theorem reply_decoders_agree (r : AuthReply) (hr : r.Sound) (hne : r.message ≠ []) :
    ∀ c ∈ authReplies, c.Arrives r r ∧
      AuthenticatedMessage.deserialize (c.serialize r) = .ok r.toAuthenticatedMessage := by
  have hboth : ∀ tag, readAuthReply tag (writeHeader tag r.toAuthenticatedMessage ++ r.message) =
      .ok r := fun tag => readAuthReply_writeHeader hr tag hne
  have hhead : ∀ tag, AuthenticatedMessage.deserialize
      (writeHeader tag r.toAuthenticatedMessage ++ r.message) = .ok r.toAuthenticatedMessage :=
    fun tag => AuthenticatedMessage.deserialize_writeHeader hr tag r.message
  intro c hc
  simp only [authReplies, List.mem_cons, List.not_mem_nil, or_false] at hc
  rcases hc with rfl | rfl
  · exact ⟨⟨getActionType_writeHeader _ _ _, hboth .acceptAuth⟩, hhead .acceptAuth⟩
  · exact ⟨⟨getActionType_writeHeader _ _ _, hboth .rejectAuth⟩, hhead .rejectAuth⟩

/-- A reply whose message has colons and ends the line. -/
def manyLines : AuthReply := { fromAna with message := "7|1:2\n::".toList }

theorem reply_decoders_agree_manyLines :
    AcceptAuthMessage.deserialize (AcceptAuthMessage.serialize manyLines.message fromAna) =
        .ok manyLines ∧
      AuthenticatedMessage.deserialize (AcceptAuthMessage.serialize manyLines.message fromAna) =
        .ok fromAna ∧
      RejectAuthMessage.deserialize (RejectAuthMessage.serialize manyLines.message fromAna) =
        .ok manyLines ∧
      AuthenticatedMessage.deserialize (RejectAuthMessage.serialize manyLines.message fromAna) =
        .ok fromAna := by
  have hagree := reply_decoders_agree manyLines fromAna_sound (by decide)
  obtain ⟨⟨-, haccept⟩, haccept'⟩ := hagree _ List.mem_cons_self
  obtain ⟨⟨-, hreject⟩, hreject'⟩ := hagree _ (List.mem_cons_of_mem _ List.mem_cons_self)
  exact ⟨haccept, haccept', hreject, hreject'⟩

/-! ### Requests -/

def BuyTicketMessage.codec : Codec BuyTicketMessage := ⟨.buyTicket, serialize, deserialize⟩

def CheckIntegrityMessage.codec : Codec CheckIntegrityMessage :=
  ⟨.checkIntegrity, serialize, deserialize⟩

def GetAvailableTicketsMessage.codec : Codec GetAvailableTicketsMessage :=
  ⟨.getAvailableTickets, serialize, deserialize⟩

def LogOutMessage.codec : Codec LogOutMessage := ⟨.logOut, serialize, deserialize⟩

def SellTicketMessage.codec : Codec SellTicketMessage := ⟨.sellTicket, serialize, deserialize⟩

def ValidateTicketMessage.codec : Codec ValidateTicketMessage :=
  ⟨.validateTicket, serialize, deserialize⟩

section Requests

variable {a : AuthenticatedMessage} (ha : a.Sound)

include ha

theorem BuyTicketMessage.arrives {ticketId : ℤ} (hid : -2 ^ 31 ≤ ticketId ∧ ticketId < 2 ^ 31)
    {eventName : Text} (he : Line eventName) :
    codec.Arrives { a with ticketId, eventName } { a with ticketId, eventName } := by
  refine ⟨getActionType_writeHeader _ _ _, ?_⟩
  simp only [codec, serialize, deserialize, ha.readHeader, getline?_append (colon_not_mem_showInt _),
    he.getline?, AuthenticatedMessage.header, checkAction_tag, stol_showInt ha.nonce,
    stoi_showInt hid, bind, Except.bind, pure, Except.pure]

theorem CheckIntegrityMessage.arrives {valCode integrityCode : Text} (hv : ':' ∉ valCode)
    (hi : Line integrityCode) :
    codec.Arrives { a with valCode, integrityCode } { a with valCode, integrityCode } := by
  refine ⟨getActionType_writeHeader _ _ _, ?_⟩
  simp only [codec, serialize, deserialize, ha.readHeader, getline?_append hv,
    hi.getline?, AuthenticatedMessage.header, checkAction_tag, stol_showInt ha.nonce, bind,
    Except.bind, pure, Except.pure]

theorem GetAvailableTicketsMessage.arrives {eventName : Text} (he : Line eventName) :
    codec.Arrives { a with eventName } { a with eventName } := by
  refine ⟨getActionType_writeHeader _ _ _, ?_⟩
  simp only [codec, serialize, deserialize, ha.readHeader, he.getline?,
    AuthenticatedMessage.header, checkAction_tag, stol_showInt ha.nonce, bind, Except.bind, pure,
    Except.pure]

theorem ValidateTicketMessage.arrives {valCode : Text} (hv : Line valCode) :
    codec.Arrives { a with valCode } { a with valCode } := by
  refine ⟨getActionType_writeHeader _ _ _, ?_⟩
  simp only [codec, serialize, deserialize, ha.readHeader, hv.getline?,
    AuthenticatedMessage.header, checkAction_tag, stol_showInt ha.nonce, bind, Except.bind, pure,
    Except.pure]

theorem LogOutMessage.arrives : codec.Arrives { a with } { a with } := by
  have hlast : getline? { rest := showInt a.nonce } '\n' =
      some (showInt a.nonce, { rest := [], eof := true }) :=
    getline?_last (newline_not_mem_showInt _) (showInt_ne_nil _)
  refine ⟨getActionType_tag _ _, ?_⟩
  simp only [codec, serialize, deserialize, readHeader_append ha.username ha.sessionCookies _ hlast,
    AuthenticatedMessage.header, checkAction_tag, stol_showInt ha.nonce, bind, Except.bind, pure,
    Except.pure]

/-- The decoder of a sale, on what the encoder wrote: all is as it was but the price, which is read
back from its text. -/
theorem SellTicketMessage.deserialize_serialize {ticket : Text} (ht : Line ticket) (newPrice : Double) :
    deserialize (serialize { a with ticket, newPrice }) =
      (stod (showDouble newPrice)).map fun newPrice => { a with ticket, newPrice } := by
  have hp : ':' ∉ showDouble newPrice := not_mem_showDouble (by decide) (by decide)
  simp only [serialize, deserialize, ha.readHeader, getline?_append hp, ht.getline?,
    AuthenticatedMessage.header, checkAction_tag, stol_showInt ha.nonce, bind, Except.bind, pure,
    Except.pure]
  cases stod (showDouble newPrice) <;> rfl

theorem SellTicketMessage.arrives_iff {ticket : Text} (ht : Line ticket) {price : Decimal}
    (hp : price.Finite) :
    codec.Arrives { a with ticket, newPrice := .fin price }
      { a with ticket, newPrice := .fin price.rendered } ↔ ¬price.rendered.Tiny := by
  rw [← inRange_rendered_iff hp, Codec.Arrives]
  simp only [codec, deserialize_serialize ha ht, stod_showDouble_fin]
  cases inRange price.rendered with
  | true => exact ⟨fun _ => rfl, fun _ => ⟨getActionType_writeHeader _ _ _, rfl⟩⟩
  | false =>
    constructor
    · intro h
      cases h.2
    · intro h
      cases h

end Requests

/-- **Decoding undoes encoding**, for every authenticated request; a sale arrives, with the price that
was written, exactly if that price is not too small for a normal number. -/
theorem requests_roundtrip (a : AuthenticatedMessage) (ha : a.Sound) :
    (∀ ticketId eventName, -2 ^ 31 ≤ ticketId ∧ ticketId < 2 ^ 31 → Line eventName →
      BuyTicketMessage.codec.Arrives { a with ticketId, eventName } { a with ticketId, eventName }) ∧
    (∀ eventName, Line eventName →
      GetAvailableTicketsMessage.codec.Arrives { a with eventName } { a with eventName }) ∧
    (∀ valCode, Line valCode →
      ValidateTicketMessage.codec.Arrives { a with valCode } { a with valCode }) ∧
    (∀ valCode integrityCode, ':' ∉ valCode → Line integrityCode →
      CheckIntegrityMessage.codec.Arrives { a with valCode, integrityCode }
        { a with valCode, integrityCode }) ∧
    LogOutMessage.codec.Arrives { a with } { a with } ∧
    ∀ (price : Decimal) ticket, price.Finite → Line ticket →
      (SellTicketMessage.codec.Arrives { a with ticket, newPrice := .fin price }
        { a with ticket, newPrice := .fin price.rendered } ↔ ¬price.rendered.Tiny) := by
  refine ⟨?_, ?_, ?_, ?_, LogOutMessage.arrives ha, ?_⟩
  · intro ticketId eventName hid he
    exact BuyTicketMessage.arrives ha hid he
  · intro eventName he
    exact GetAvailableTicketsMessage.arrives ha he
  · intro valCode hv
    exact ValidateTicketMessage.arrives ha hv
  · intro valCode integrityCode hv hi
    exact CheckIntegrityMessage.arrives ha hv hi
  · intro price ticket hp ht
    exact SellTicketMessage.arrives_iff ha ht hp

theorem line_of_all {s : Text} (hne : s ≠ []) (h : s.all (· ≠ '\n') = true) : Line s :=
  ⟨hne, fun hc => of_decide_eq_true (List.all_eq_true.1 h _ hc) rfl⟩

theorem finite_forty : (Decimal.of false 40 0).Finite := Decimal.finite_of (by decide)

/-- A ticket put on sale for 40, and an event name with a colon. -/
theorem forty_arrives :
    BuyTicketMessage.codec.Arrives { fromAna with ticketId := -3, eventName := "web:summit".toList }
        { fromAna with ticketId := -3, eventName := "web:summit".toList } ∧
      SellTicketMessage.codec.Arrives
        { fromAna with ticket := "7|1:2".toList, newPrice := .fin (.of false 40 0) }
        { fromAna with ticket := "7|1:2".toList, newPrice := .fin (Decimal.of false 40 0).rendered } := by
  obtain ⟨hbuy, -, -, -, -, hsell⟩ := requests_roundtrip fromAna fromAna_sound
  have hnormal := (inRange_rendered_iff finite_forty).1 (by decide)
  exact ⟨hbuy _ _ (by decide) (line_of_all (by decide) (by decide)),
    (hsell _ _ finite_forty (line_of_all (by decide) (by decide))).2 hnormal⟩

/-- The smallest positive `double`, `2 ^ -1074`. -/
def denormMin : Decimal := .of false (5 ^ 1074) (-1074)

theorem finite_denormMin : denormMin.Finite := Decimal.finite_of (by decide +kernel)

/-- The smallest positive price is written as `4.94066e-324`, which `std::stod` does not take. -/
theorem smallest_price_is_refused :
    fromAna.Sound ∧ denormMin.Finite ∧ Line "7|1:2".toList ∧
      SellTicketMessage.serialize
          { fromAna with ticket := "7|1:2".toList, newPrice := .fin denormMin } =
        "13:ana:COOKIE_x:-7:4.94066e-324:7|1:2".toList ∧
      SellTicketMessage.deserialize "13:ana:COOKIE_x:-7:4.94066e-324:7|1:2".toList =
        .error (.outOfRange "stod") ∧
      ¬SellTicketMessage.codec.Arrives
        { fromAna with ticket := "7|1:2".toList, newPrice := .fin denormMin }
        { fromAna with ticket := "7|1:2".toList, newPrice := .fin denormMin.rendered } := by
  have hs : SellTicketMessage.serialize
      { fromAna with ticket := "7|1:2".toList, newPrice := .fin denormMin } =
        "13:ana:COOKIE_x:-7:4.94066e-324:7|1:2".toList := by decide +kernel
  have hd : SellTicketMessage.deserialize "13:ana:COOKIE_x:-7:4.94066e-324:7|1:2".toList =
      .error (.outOfRange "stod") := by decide +kernel
  refine ⟨fromAna_sound, finite_denormMin, line_of_all (by decide) (by decide), hs, hd, ?_⟩
  refine Codec.not_arrives (x := .outOfRange "stod") ?_
  simp only [SellTicketMessage.codec]
  rw [hs, hd]

end TicketIST
