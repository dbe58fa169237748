import TicketIST.Attempts
import TicketIST.Lib.Acts

/-!
# The client's files

`Client` keeps a key and the tickets of every user in files, and looks whether a file exists before it
writes one.  On a disk that answers truly, and that no one else writes to at the same time, no file that
is there is changed or removed, however often the program is run, by whichever users, and wherever a run
ends (`files_are_kept`).  So a ticket that was stored can be opened in any later run, by a user of the
same name who types the password that it was stored with (`stored_ticket_opens`).
-/

namespace TicketIST

open TicketIST.Lib TicketIST.Lib.Prog ClientOp

/-! ### The disk -/

/-- What is in the files, by the place that a path leads to. -/
abbrev Disk (L : Type) := L → Option Text

section

variable {L : Type} [DecidableEq L] (locate : Text → L)

/-- What a step and the disk have to do with each other.  A path that is said to be free leads to no file;
it is left open what else there is on the disk, and which files can be opened.  Keys and IVs are as long
as they are asked for. -/
def Disk.act (d : Disk L) : Step ClientSig → Disk L → Prop
  | ⟨.fileExists path, .ok false⟩, d' => d (locate path) = none ∧ d' = d
  | ⟨.readFile path, some content⟩, d' => d (locate path) = some content ∧ d' = d
  | ⟨.writeFile path content, true⟩, d' => d' = Function.update d (locate path) (some content)
  | ⟨.generateKey, some key⟩, d' => key.length = 32 ∧ d' = d
  | ⟨.randBytes, bytes⟩, d' => bytes.length = 16 ∧ d' = d
  | _, d' => d' = d

/-- Every file that was there is there, with the same content. -/
def Disk.Grown (d d' : Disk L) : Prop := ∀ l content, d l = some content → d' l = some content

/-- Every key file has a whole key. -/
def Disk.KeysWhole (d : Disk L) : Prop :=
  ∀ (g : ClientGlobals) key, d (locate g.symKeyPath) = some key → key.length = 32

/-- No ticket file is a key file, whoever they belong to. -/
def KeysApart : Prop :=
  ∀ (g g' : ClientGlobals) name, locate (g.ticketPath name) ≠ locate g'.symKeyPath

end

/-! ### Programs that look before they write -/

/-- The path that was last found free, if nothing was written since, and the last key that was generated.
A file may be written where the path was found free, and it is a ticket or the key. -/
def filing : Monitor ClientSig (Option Text × Option Text) where
  next m
    | ⟨.fileExists path, .ok false⟩ => (some path, m.2)
    | ⟨.generateKey, some key⟩ => (m.1, some key)
    | ⟨.writeFile _ _, _⟩ => (none, m.2)
    | _ => m
  ok m
    | .writeFile path content => m.1 = some path ∧
        ((∃ g name, path = ClientGlobals.ticketPath g name) ∨
          (∃ g, path = ClientGlobals.symKeyPath g) ∧ m.2 = some content)
    | _ => True

def ClientOp.NoWrite : ClientOp → Prop
  | .writeFile _ _ => False
  | _ => True

section Careful

variable {α β σ : Type} {m : Option Text × Option Text}

/-- The program keeps to `filing`. -/
abbrev Careful (p : ClientProg α) (m : Option Text × Option Text) : Prop :=
  p.Ensures filing (fun _ _ => True) (fun _ _ => True) m

theorem filing_ok_of_noWrite {op : ClientOp} (h : op.NoWrite) (m : Option Text × Option Text) :
    filing.ok m op := by
  cases op with
  | writeFile => exact h.elim
  | _ => trivial

theorem careful_of_noWrite {p : ClientProg α} (h : p.Uses NoWrite) (m : Option Text × Option Text) :
    Careful p m := by
  induction p generalizing m with
  | ret a => trivial
  | throw e => trivial
  | call op k ih => exact ⟨filing_ok_of_noWrite h.1 m, fun r => ih r (h.2 r) _⟩

theorem careful_of_passive {p : ClientProg α} (h : p.Uses Passive) (m : Option Text × Option Text) :
    Careful p m := by
  refine careful_of_noWrite (h.mono fun op hop => ?_) m
  cases op with
  | writeFile => exact hop
  | _ => trivial

theorem Careful.bind {p : ClientProg α} {f : α → ClientProg β} (h : Careful p m)
    (hf : ∀ a m, Careful (f a) m) : Careful (p >>= f) m :=
  Ensures.bind (h.mono (fun a m _ => hf a m) fun _ _ he => he)

theorem Careful.tryCatch {p : ClientProg α} {handler : Failure → ClientProg α} (h : Careful p m)
    (hh : ∀ e m, Careful (handler e) m) : Careful (p.tryCatch handler) m :=
  Ensures.tryCatch (h.mono (fun _ _ ha => ha) fun e m _ => hh e m)

theorem careful_whileTrue {body : σ → ClientProg (σ ⊕ α)} (h : ∀ s m, Careful (body s) m) (n : ℕ) (s : σ)
    (m : Option Text × Option Text) : Careful (whileTrue n body s) m := by
  refine ensures_loop (I := fun _ _ => True) ?_ ?_ n s trivial
  · exact fun _ _ _ => ⟨trivial, nofun⟩
  · refine fun s m _ => (h s m).mono ?_ fun _ _ he => he
    rintro (s' | a) _ _ <;> trivial

theorem noWrite_sendData (data : Text) : (TLSClient.sendData data).Uses NoWrite :=
  ⟨trivial, fun _ => Prog.uses_ofExcept _ _⟩

theorem noWrite_receiveData : TLSClient.receiveData.Uses NoWrite :=
  ⟨trivial, fun _ => Prog.uses_ofExcept _ _⟩

theorem noWrite_logout (g : Globals) : (g.logout : ClientProg α).Uses NoWrite := by
  refine (noWrite_sendData _).bind fun _ => noWrite_receiveData.bind fun receivedMessage => ?_
  refine (Prog.uses_ofExcept _ _).bind fun action => ?_
  split
  · exact uses_ask_bind trivial fun _ => ⟨trivial, nofun⟩
  · exact ⟨trivial, nofun⟩

end Careful

namespace Client

/-! ### What writes -/

section Careful

variable (p : Primitives) (sha : Text → Text) (n : ℕ) (g : ClientGlobals)

theorem careful_generateSymetricKey (m : Option Text × Option Text) :
    Careful (generateSymetricKey g) m := by
  refine ⟨trivial, fun found => ?_⟩
  cases found with
  | error e => trivial
  | ok found =>
    cases found with
    | true => trivial
    | false =>
      refine ⟨trivial, fun key => ?_⟩
      cases key with
      | none => trivial
      | some key =>
        refine ⟨trivial, fun made => ?_⟩
        cases made with
        | error e => trivial
        | ok made => exact ⟨⟨rfl, .inr ⟨⟨g, rfl⟩, rfl⟩⟩, fun _ => trivial⟩

theorem careful_onAuthReply (receivedMessage : Text) (m : Option Text × Option Text) :
    Careful (onAuthReply g receivedMessage) m := by
  rw [onAuthReply]
  obtain ⟨action, globals⟩ := getAndPrintAuthResponse g.toGlobals receivedMessage
  refine ⟨trivial, fun _ => ?_⟩
  simp only [Prog.bind]
  split
  · refine Careful.tryCatch ((careful_generateSymetricKey _ _).bind fun _ _ => ?_) fun _ _ => ?_
    all_goals trivial
  · trivial

/-- A name is asked for until the path that it leads to was found free. -/
theorem ensures_askNewFileName (m : Option Text × Option Text) :
    (askNewFileName n g).Ensures filing (fun name m => m.1 = some (g.ticketPath name))
      (fun _ _ => True) m := by
  refine ensures_loop (I := fun _ _ => True) ?_ ?_ n () trivial
  · exact fun _ _ _ => ⟨trivial, nofun⟩
  · intro _ m _
    refine ⟨trivial, fun fileName => ?_⟩
    simp only [Prog.bind]
    split
    · trivial
    · refine ⟨trivial, fun found => ?_⟩
      cases found with
      | error e => trivial
      | ok found =>
        cases found with
        | true => trivial
        | false => exact rfl

theorem careful_storeTicket (receivedMessage : Text) (m : Option Text × Option Text) :
    Careful (storeTicket p sha n g receivedMessage) m := by
  refine (careful_of_passive (Prog.uses_ofExcept _ _) m).bind fun _ m => ?_
  refine (careful_of_passive (passive_makeFolder g) m).bind fun _ m => ?_
  refine (careful_of_passive (passive_fileExists _) m).bind fun found m => ?_
  refine (careful_of_passive (uses_require found _) m).bind fun _ m => ?_
  refine (careful_of_passive (passive_readKey g) m).bind fun symKey m => ?_
  refine (careful_of_passive (passive_generateKDFKeyToSaveTicket p sha n g) m).bind fun kdfKey m => ?_
  refine (careful_of_passive (uses_ask (by trivial)) m).bind fun iv m => ?_
  refine (careful_of_passive (uses_ask (by trivial)) m).bind fun iv' m => ?_
  refine (careful_of_passive (Prog.uses_ofExcept _ _) m).bind fun content m => ?_
  refine Ensures.bind ((ensures_askNewFileName n g m).mono ?_ fun _ _ he => he)
  intro name m hfree
  refine ⟨⟨hfree, .inl ⟨g, name, rfl⟩⟩, fun written => ?_⟩
  exact careful_of_passive (uses_require written _) _

theorem careful_saveTicket (receivedMessage : Text) (m : Option Text × Option Text) :
    Careful (saveTicket p sha n g receivedMessage) m :=
  (careful_storeTicket p sha n g receivedMessage m).tryCatch fun _ _ => trivial

theorem careful_handleReply (pending : ActionType) (receivedMessage : Text)
    (m : Option Text × Option Text) : Careful (handleReply p sha n g pending receivedMessage) m := by
  refine (careful_of_passive (Prog.uses_ofExcept _ _) m).bind fun action m => ?_
  split
  · exact careful_saveTicket p sha n g receivedMessage m
  · refine (careful_of_passive (Prog.uses_ofExcept _ _) m).bind fun response m => ?_
    exact careful_of_passive (uses_ask (by trivial)) m

theorem careful_exchange (pending : ActionType) (q : MenuRequest) (m : Option Text × Option Text) :
    Careful (exchange p sha n g pending q) m := by
  refine Careful.tryCatch ?_ fun _ _ => trivial
  refine (careful_of_noWrite (noWrite_sendData _) m).bind fun _ m => ?_
  refine (careful_of_noWrite noWrite_receiveData m).bind fun receivedMessage m => ?_
  exact (careful_handleReply p sha n g pending receivedMessage m).bind fun _ _ => trivial

theorem careful_clientMenuTurn (m : Option Text × Option Text) :
    Careful (clientMenuTurn p sha n g) m := by
  have hlogout : ∀ m, Careful (g.toGlobals.logout : ClientProg (ClientGlobals ⊕ ClientGlobals)) m :=
    careful_of_noWrite (noWrite_logout g.toGlobals)
  have hlocal : ∀ {q : ClientProg Unit} m, q.Uses Passive →
      Careful (do q; return .inl g : ClientProg (ClientGlobals ⊕ ClientGlobals)) m :=
    fun m hq => (careful_of_passive hq m).bind fun _ _ => trivial
  refine (careful_of_passive (uses_ask (by trivial)) m).bind fun (action, input) m => ?_
  cases input with
  | eof => exact hlogout m
  | failed => trivial
  | good =>
    dsimp only
    split
    · refine (careful_of_passive (passive_askForEventName n) m).bind fun eventName m => ?_
      exact careful_exchange p sha n g.next _ _ m
    · refine (careful_of_passive (passive_askForTicketId n) m).bind fun ticketId m => ?_
      refine (careful_of_passive (passive_askForEventName n) m).bind fun eventName m => ?_
      exact careful_exchange p sha n g.next _ _ m
    · exact hlocal m (passive_getOwnedTickets g)
    · exact hlocal m (passive_showFile n g _)
    · exact hlocal m (passive_showFile n g _)
    · exact hlocal m (passive_showFile n g _)
    · refine (careful_of_passive (passive_askFileName n g) m).bind fun filePath m => ?_
      refine (careful_of_passive (passive_getAndDecryptTicket p n g _) m).bind fun ticketData m => ?_
      refine (careful_of_passive (passive_askForPrice n) m).bind fun newPrice m => ?_
      exact careful_exchange p sha n g.next _ _ m
    · exact hlogout m
    · trivial

theorem careful_enter (serialize : Credentials → Text) (m : Option Text × Option Text) :
    Careful (enter p sha n serialize g) m := by
  refine (careful_of_passive (passive_askForCredentials n) m).bind fun (username, password) m => ?_
  refine Careful.bind (Careful.tryCatch ?_ fun _ _ => trivial) fun received m => ?_
  · refine (careful_of_noWrite (noWrite_sendData _) m).bind fun _ m => ?_
    exact (careful_of_noWrite noWrite_receiveData m).bind fun _ _ => trivial
  · cases received with
    | none => trivial
    | some receivedMessage => exact careful_onAuthReply _ receivedMessage m

theorem careful_authenticateTurn (m : Option Text × Option Text) :
    Careful (authenticateTurn p sha n g) m := by
  refine (careful_of_passive (uses_ask (by trivial)) m).bind fun (action, input) m => ?_
  dsimp only
  split
  · trivial
  · split
    · exact careful_enter p sha n g _ m
    · exact careful_enter p sha n g _ m
    · trivial

/-- The whole program looks before it writes. -/
theorem careful_main (m : Option Text × Option Text) : Careful (main p sha n g) m := by
  refine careful_whileTrue (fun g m => ?_) n g m
  refine (careful_whileTrue (careful_authenticateTurn p sha n) n g m).bind fun (loggedIn, g) m => ?_
  cases loggedIn with
  | false => trivial
  | true =>
    exact (careful_whileTrue (careful_clientMenuTurn p sha n) n g m).bind fun _ _ => trivial

end Careful

end Client

/-! ### What stays on the disk -/

section Disk

variable {L : Type} [DecidableEq L] {locate : Text → L} {d d' d₁ : Disk L} {p : Primitives}
  {sha : Text → Text} {n : ℕ} {g : ClientGlobals}

namespace Disk

omit [DecidableEq L] in
theorem Grown.refl (d : Disk L) : d.Grown d := fun _ _ h => h

omit [DecidableEq L] in
theorem Grown.trans (h : d.Grown d₁) (h' : d₁.Grown d') : d.Grown d' := fun l c hl => h' l c (h l c hl)

/-- Writing where nothing is changes nothing that is there. -/
theorem grown_update {l : L} (h : d l = none) (content : Text) :
    d.Grown (Function.update d l (some content)) := by
  intro l' c hl
  rwa [Function.update_of_ne]
  rintro rfl
  cases h.symm.trans hl

/-- What the memory of `filing` says of the disk. -/
structure Filed (locate : Text → L) (m : Option Text × Option Text) (d : Disk L) : Prop where
  free : ∀ path, m.1 = some path → d (locate path) = none
  key : ∀ key, m.2 = some key → key.length = 32

/-- How a disk becomes another one. -/
structure Kept (locate : Text → L) (d d' : Disk L) : Prop where
  grown : d.Grown d'
  keysWhole : KeysApart locate → d.KeysWhole locate → d'.KeysWhole locate

/-- Keys stay whole where a key file, if it is one, gets a whole key. -/
theorem keysWhole_update {l : L} {content : Text} (hd : d.KeysWhole locate)
    (hl : ∀ g : ClientGlobals, locate g.symKeyPath = l → content.length = 32) :
    Disk.KeysWhole locate (Function.update d l (some content)) := by
  intro g key hkey
  by_cases hg : locate g.symKeyPath = l
  · rw [hg, Function.update_self] at hkey
    obtain rfl := Option.some.inj hkey
    exact hl g hg
  · rw [Function.update_of_ne hg] at hkey
    exact hd g key hkey

theorem kept_of_write {m : Option Text × Option Text} {path content : Text}
    (hok : filing.ok m (.writeFile path content)) (hm : Filed locate m d) :
    Kept locate d (Function.update d (locate path) (some content)) := by
  obtain ⟨hfree, hwhat⟩ := hok
  refine ⟨grown_update (hm.free path hfree) content, fun hapart hd => keysWhole_update hd fun g' hg' => ?_⟩
  rcases hwhat with ⟨g, name, rfl⟩ | ⟨-, hkey⟩
  · exact absurd hg'.symm (hapart g g' name)
  · exact hm.key content hkey

/-- **What a step keeps** of the disk, if it is permitted. -/
theorem kept_filing (locate : Text → L) :
    Lib.Kept filing (act locate) (Filed locate) (Kept locate) where
  refl d := ⟨.refl d, fun _ h => h⟩
  trans h h' := ⟨h.grown.trans h'.grown, fun ha hd => h'.keysWhole ha (h.keysWhole ha hd)⟩
  step := by
    rintro m d ⟨op, r⟩ d' hok hact hm
    have hsame : Kept locate d d := ⟨.refl d, fun _ h => h⟩
    cases op with
    | fileExists path =>
      rcases r with e | _ | _
      · obtain rfl : d' = d := hact
        exact ⟨hm, hsame⟩
      · obtain ⟨hfree, rfl⟩ : d (locate path) = none ∧ d' = d := hact
        refine ⟨⟨?_, hm.key⟩, hsame⟩
        rintro _ ⟨⟩
        exact hfree
      · obtain rfl : d' = d := hact
        exact ⟨hm, hsame⟩
    | generateKey =>
      rcases r with _ | key
      · obtain rfl : d' = d := hact
        exact ⟨hm, hsame⟩
      · obtain ⟨hlength, rfl⟩ : key.length = 32 ∧ d' = d := hact
        refine ⟨⟨hm.free, ?_⟩, hsame⟩
        rintro _ ⟨⟩
        exact hlength
    | writeFile path content =>
      rcases r with _ | _
      · obtain rfl : d' = d := hact
        exact ⟨⟨nofun, hm.key⟩, hsame⟩
      · obtain rfl : d' = Function.update d (locate path) (some content) := hact
        exact ⟨⟨nofun, hm.key⟩, kept_of_write hok hm⟩
    | readFile path =>
      rcases r with _ | content
      · obtain rfl : d' = d := hact
        exact ⟨hm, hsame⟩
      · obtain ⟨-, rfl⟩ : d (locate path) = some content ∧ d' = d := hact
        exact ⟨hm, hsame⟩
    | randBytes =>
      obtain ⟨-, rfl⟩ : _ ∧ d' = d := hact
      exact ⟨hm, hsame⟩
    | _ =>
      obtain rfl : d' = d := hact
      exact ⟨hm, hsame⟩

omit [DecidableEq L] in
theorem filed_start (d : Disk L) : Filed locate (none, none) d := ⟨nofun, nofun⟩

/-- What is done in a part of a run of the client, of any user and with any input. -/
def Used (locate : Text → L) (d d' : Disk L) : Prop :=
  ∃ p sha n g before steps q d₀, Path (Client.main p sha n g) (before ++ steps) q ∧
    Acts (act locate) d₀ before d ∧ Acts (act locate) d steps d'

end Disk

open Disk

/-- **No file is changed or removed** by runs of the client one after the other, however many there are
and wherever they end; and where tickets are kept apart from keys, all keys stay whole. -/
theorem kept_of_used (h : Relation.ReflTransGen (Used locate) d d') : Disk.Kept locate d d' := by
  induction h with
  | refl => exact (kept_filing locate).refl d
  | tail _ hlast ih =>
    obtain ⟨p, sha, n, g, before, steps, q, d₀, hpath, hbefore, hacts⟩ := hlast
    have hpermitted := (Ensures.path (Client.careful_main p sha n g (none, none)) hpath).1
    exact (kept_filing locate).trans ih
      ((kept_filing locate).last_part hpermitted hbefore hacts (filed_start d₀))

/-- The same, file by file. -/
theorem files_are_kept (h : Relation.ReflTransGen (Used locate) d d') :
    (∀ path content, d (locate path) = some content → d' (locate path) = some content) ∧
      (KeysApart locate → d.KeysWhole locate → d'.KeysWhole locate) :=
  ⟨fun path => (kept_of_used h).grown (locate path), (kept_of_used h).keysWhole⟩

end Disk

/-- A disk on which `eve` has a key, every path its own place. -/
def evesDisk : Disk Text :=
  Function.update (fun _ => none) { anasClientGlobals with username := "eve".toList }.symKeyPath (some symKey)

/-- The same, with a key of `ana`. -/
def anasDisk : Disk Text := Function.update evesDisk anasClientGlobals.symKeyPath (some symKey)

theorem evesDisk_free : evesDisk anasClientGlobals.symKeyPath = none := by decide

/-- `ana` logs in for the first time on this machine. -/
def firstLogIn : List (Step ClientSig) :=
  [⟨.readInt, (2, .good)⟩, ⟨.readWord, ana⟩, ⟨.readWord, secret⟩,
    ⟨.sendData (LogInMessage.serialize { username := ana, password := anasPassword }), .ok ()⟩,
    ⟨.receiveData, .ok hello⟩, ⟨.print (Client.authResponseText hello), ()⟩,
    ⟨.fileExists anasClientGlobals.symKeyPath, .ok false⟩, ⟨.generateKey, some symKey⟩,
    ⟨.createDirectories anasClientGlobals.folderPath, .ok true⟩,
    ⟨.writeFile anasClientGlobals.symKeyPath symKey, true⟩]

theorem path_firstLogIn : Path (Client.authenticate openSSL sha256' 2 noGlobals) firstLogIn
    (.ret (true, anasClientGlobals)) := by
  have hresponse : Client.getAndPrintAuthResponse noGlobals.toGlobals hello =
      (.acceptAuth, anasGlobals) := by decide +kernel
  have hreply : Path (Client.onAuthReply { noGlobals with hashedPassword := sha256' anasPassword } hello)
      (⟨.print (Client.authResponseText hello), ()⟩ :: firstLogIn.drop 6)
      (.ret (.inr (true, anasClientGlobals))) := by
    rw [Client.onAuthReply, hresponse]
    refine ⟨_, rfl, ?_⟩
    simp only [Prog.bind, if_true]
    exact ⟨_, rfl, _, rfl, _, rfl, _, rfl, rfl⟩
  exact ⟨_, rfl, _, rfl, _, rfl, _, rfl, _, rfl, hreply.bind rfl⟩

theorem acts_firstLogIn : Acts (Disk.act id) evesDisk firstLogIn anasDisk := by
  refine .cons rfl (.cons rfl (.cons rfl (.cons rfl (.cons rfl (.cons rfl ?_)))))
  exact .cons ⟨evesDisk_free, rfl⟩ (.cons ⟨rfl, rfl⟩ (.cons rfl (.cons rfl .nil)))

/-- `ana` gets her key, and `eve` keeps hers. -/
theorem files_are_kept_ana : Relation.ReflTransGen (Disk.Used id) evesDisk anasDisk ∧
    (∀ path content, evesDisk path = some content → anasDisk path = some content) ∧
      (KeysApart (id : Text → Text) → evesDisk.KeysWhole id → anasDisk.KeysWhole id) := by
  have hpath : ∃ q, Path (Client.main openSSL sha256' 2 noGlobals) ([] ++ firstLogIn) q :=
    ⟨_, (path_firstLogIn.bind_left _).bind_left _⟩
  obtain ⟨q, hpath⟩ := hpath
  have hused : Relation.ReflTransGen (Disk.Used id) evesDisk anasDisk :=
    .single ⟨_, _, _, _, _, _, q, _, hpath, .nil, acts_firstLogIn⟩
  exact ⟨hused, files_are_kept hused⟩

section Disk

variable {L : Type} [DecidableEq L] {locate : Text → L} {d d' d₁ : Disk L} {p : Primitives}
  {sha : Text → Text} {n : ℕ} {g : ClientGlobals}

open Disk

/-! ### A ticket on the disk -/

theorem path_ofExcept {α : Type} {x : Except Failure α} {a : α} {steps : List (Step ClientSig)}
    (h : Path (Prog.ofExcept x : ClientProg α) steps (.ret a)) : x = .ok a := by
  cases x with
  | error e =>
    obtain rfl := h.of_throw
    cases h
  | ok b =>
    obtain rfl := h.of_ret
    cases h
    rfl

theorem path_decoded {α : Type} {x : Except Exn α} {a : α} {steps : List (Step ClientSig)}
    (h : Path (decoded x) steps (.ret a)) : x = .ok a := by
  have hx := path_ofExcept h
  cases x with
  | error e => cases hx
  | ok b =>
    cases hx
    rfl

theorem path_ask {op : ClientOp} {r : op.Ret} {steps : List (Step ClientSig)}
    (h : Path (ask op) steps (.ret r)) : steps = [⟨op, r⟩] := by
  rcases h.of_call with rfl | ⟨r', rfl⟩
  · cases h
  · cases (path_call.1 h : Prog.ret r' = .ret r)
    rfl

theorem path_readKey {key : Text} {steps : List (Step ClientSig)}
    (h : Path (Client.readKey g) steps (.ret key)) : ⟨.readFile g.symKeyPath, some key⟩ ∈ steps := by
  obtain ⟨found, before, after, rfl, hask, hkey⟩ := Path.split_bind h
  obtain rfl := path_ask hask
  cases found with
  | none =>
    obtain rfl := hkey.of_throw
    cases hkey
  | some key' =>
    obtain rfl := hkey.of_ret
    cases hkey
    exact List.mem_append_left _ (List.mem_singleton_self _)

theorem not_path_cut {α : Type} {a : α} (steps : List (Step ClientSig)) :
    ¬Path (.call .cut Empty.elim : ClientProg α) steps (.ret a) := by
  intro h
  cases steps with
  | nil => cases h
  | cons st steps =>
    obtain ⟨k, heq, -⟩ := h
    obtain ⟨op, r⟩ := st
    cases heq
    exact r.elim

/-- The key that a ticket is saved with is made of a password that was typed. -/
theorem path_generateKDFKeyToSaveTicket {kdfKey : Text} {steps : List (Step ClientSig)}
    (h : Path (Client.generateKDFKeyToSaveTicket p sha n g) steps (.ret kdfKey)) :
    ∃ password, ⟨.readWord, password⟩ ∈ steps ∧
      kdfKey = keyDerivationFunction p (saltPassword password (generateSalt p g.username)) 10000 32 := by
  obtain ⟨_, before, turn, rfl, hturn⟩ := Path.of_loop not_path_cut h
  obtain ⟨password, word, rest, rfl, hask, hrest⟩ := Path.split_bind hturn
  obtain rfl := path_ask hask
  refine ⟨password, by simp, ?_⟩
  dsimp only at hrest
  split at hrest
  · obtain rfl := hrest.of_ret
    cases hrest
    rfl
  · obtain ⟨choice, char, rest', rfl, -, hchoice⟩ := Path.split_bind hrest
    obtain rfl := hchoice.of_ret
    split at hchoice
    · cases hchoice
      rfl
    · cases hchoice

theorem path_askNewFileName {name : Text} {steps : List (Step ClientSig)}
    (h : Path (Client.askNewFileName n g) steps (.ret name)) : ⟨.readWord, name⟩ ∈ steps := by
  obtain ⟨_, before, turn, rfl, hturn⟩ := Path.of_loop not_path_cut h
  obtain ⟨fileName, word, rest, rfl, hask, hrest⟩ := Path.split_bind hturn
  obtain rfl := path_ask hask
  split at hrest
  · obtain rfl := hrest.of_ret
    cases hrest
  · obtain ⟨found, exists', rest', rfl, -, hfound⟩ := Path.split_bind hrest
    cases found with
    | true =>
      obtain rfl := hfound.of_ret
      cases hfound
    | false =>
      obtain rfl := hfound.of_ret
      cases hfound
      simp

theorem path_require {ok : Bool} {what : String} {steps : List (Step ClientSig)}
    (h : Path (require ok what) steps (.ret ())) : ok = true := by
  cases ok with
  | false =>
    obtain rfl := Path.of_throw h
    cases h
  | true => rfl

/-- What storing a ticket did, if it went well. -/
theorem path_storeTicket {reply : Text} {steps : List (Step ClientSig)}
    (h : Path (Client.storeTicket p sha n g reply) steps (.ret ())) :
    ∃ m symKey password iv iv' name content, AcceptAuthMessage.deserialize reply = .ok m ∧
      ⟨.readFile g.symKeyPath, some symKey⟩ ∈ steps ∧ ⟨.readWord, password⟩ ∈ steps ∧
      ⟨.randBytes, iv⟩ ∈ steps ∧ ⟨.randBytes, iv'⟩ ∈ steps ∧ ⟨.readWord, name⟩ ∈ steps ∧
      ⟨.writeFile (g.ticketPath name) content, true⟩ ∈ steps ∧
      content = protectSymetric p iv' (protectSymetric p iv m.message symKey)
        (generateKDFKeyToDecryptTicket p (g.device symKey) password) := by
  obtain ⟨m, s₁, _, rfl, hm, h₁⟩ := Path.split_bind h
  obtain ⟨_, s₂, _, rfl, -, h₂⟩ := Path.split_bind h₁
  obtain ⟨_, s₃, _, rfl, -, h₃⟩ := Path.split_bind h₂
  obtain ⟨_, s₄, _, rfl, -, h₄⟩ := Path.split_bind h₃
  obtain ⟨symKey, s₅, _, rfl, hkey, h₅⟩ := Path.split_bind h₄
  obtain ⟨kdfKey, s₆, _, rfl, hkdf, h₆⟩ := Path.split_bind h₅
  obtain ⟨iv, s₇, _, rfl, hiv, h₇⟩ := Path.split_bind h₆
  obtain ⟨iv', s₈, _, rfl, hiv', h₈⟩ := Path.split_bind h₇
  obtain ⟨content, s₉, _, rfl, hcontent, h₉⟩ := Path.split_bind h₈
  obtain ⟨name, s₁₀, _, rfl, hname, h₁₀⟩ := Path.split_bind h₉
  obtain ⟨written, s₁₁, s₁₂, rfl, hwritten, hrequire⟩ := Path.split_bind h₁₀
  obtain ⟨password, hpassword, rfl⟩ := path_generateKDFKeyToSaveTicket hkdf
  have hm' := path_decoded hm
  have hkey' := path_readKey hkey
  have hname' := path_askNewFileName hname
  have hcontent' := path_ofExcept hcontent
  rw [TicketIST.saveTicket, hm'] at hcontent'
  cases hcontent'
  obtain rfl := path_ask hiv
  obtain rfl := path_ask hiv'
  obtain rfl := path_ask hwritten
  obtain rfl := path_require hrequire
  refine ⟨m, symKey, password, iv, iv', name, _, hm', ?_, ?_, ?_, ?_, ?_, ?_, rfl⟩
  · simp [hkey']
  · simp [hpassword]
  · simp
  · simp
  · simp [hname']
  · simp [generateKDFKeyToDecryptTicket, ClientGlobals.device]

/-- What opening a ticket read, if it went well. -/
theorem path_openTicket {filePath data password : Text} {device : Device} {steps : List (Step ClientSig)}
    (h : Path (Client.openTicket n g filePath) steps (.ret (data, device, password))) :
    ∃ content symKey, ⟨.readFile filePath, content⟩ ∈ steps ∧ data = content.getD [] ∧
      ⟨.readFile g.symKeyPath, some symKey⟩ ∈ steps ∧ device = g.device symKey := by
  obtain ⟨content, s₁, _, rfl, hcontent, h₁⟩ := Path.split_bind h
  obtain ⟨symKey, s₂, _, rfl, hkey, h₂⟩ := Path.split_bind h₁
  obtain ⟨typed, s₃, s₄, rfl, -, h₃⟩ := Path.split_bind h₂
  obtain rfl := path_ask hcontent
  have hkey' := path_readKey hkey
  obtain rfl := h₃.of_ret
  cases h₃
  exact ⟨content, symKey, by simp, rfl, by simp [hkey'], rfl⟩

/-- What a run reads of a file that was there before is what was there. -/
theorem read_of_careful {α : Type} {q r : ClientProg α} {steps : List (Step ClientSig)}
    (h : ∀ m, Careful q m) (hpath : Path q steps r) (hacts : Acts (act locate) d steps d')
    {path content content' : Text} (hd : d (locate path) = some content)
    (hread : ⟨.readFile path, some content'⟩ ∈ steps) : content' = content := by
  obtain ⟨d₁, d₂, hkept, hact, -⟩ := (kept_filing locate).at_step (Ensures.path (h (none, none)) hpath).1
    hacts (filed_start d) hread
  obtain ⟨hfile, -⟩ : d₁ (locate path) = some content' ∧ d₂ = d₁ := hact
  exact Option.some.inj (hfile.symm.trans (hkept.grown _ _ hd))

theorem symKeyPath_congr {g g' : ClientGlobals} (h : g'.username = g.username) :
    g'.symKeyPath = g.symKeyPath := by
  unfold ClientGlobals.symKeyPath ClientGlobals.folderPath
  rw [h]

/-- The key to open a ticket depends on the name and the password only. -/
theorem kdfKey_congr {g g' : ClientGlobals} (h : g'.username = g.username) {symKey password : Text} :
    generateKDFKeyToDecryptTicket p (g'.device symKey) password =
      generateKDFKeyToDecryptTicket p (g.device symKey) password := by
  unfold generateKDFKeyToDecryptTicket ClientGlobals.device
  rw [h]

/-- **A ticket that was stored can be opened in any later run.**  Storing it took a name and a password
that were typed; after any number of runs of the client, by anyone, whoever has the same name and types
the same password gets the message back, unless the file cannot be opened. -/
theorem stored_ticket_opens (hp : p.Lawful) (hapart : KeysApart locate) (hwhole : d.KeysWhole locate)
    {reply : Text} {steps : List (Step ClientSig)}
    (hstore : Path (Client.storeTicket p sha n g reply) steps (.ret ()))
    (hacts : Acts (act locate) d steps d₁) (hlater : Relation.ReflTransGen (Used locate) d₁ d') :
    ∃ m name password, AcceptAuthMessage.deserialize reply = .ok m ∧ ⟨.readWord, name⟩ ∈ steps ∧
      ⟨.readWord, password⟩ ∈ steps ∧ ∀ n' (g' : ClientGlobals) steps' data device d'',
        g'.username = g.username →
        Path (Client.openTicket n' g' (g.ticketPath name)) steps' (.ret (data, device, password)) →
        Acts (act locate) d' steps' d'' → ⟨.readFile (g.ticketPath name), none⟩ ∉ steps' →
        getAndDecryptTicket p device data password = .ok m.message := by
  have hcareful := Client.careful_storeTicket p sha n g reply
  have hpermitted := (Ensures.path (hcareful (none, none)) hstore).1
  obtain ⟨m, symKey, password, iv, iv', name, content, hm, hkey, hpassword, hiv, hiv', hname, hwrite, heq⟩ :=
    path_storeTicket hstore
  refine ⟨m, name, password, hm, hname, hpassword, ?_⟩
  have hat := fun {st} (hst : st ∈ steps) =>
    (kept_filing locate).at_step hpermitted hacts (filed_start d) hst
  -- the key was whole where it was read, and is on the disk ever after
  obtain ⟨d₂, d₃, hbefore, ⟨hsym, rfl⟩, hafter⟩ := hat hkey
  have hlength : symKey.length = 32 := hbefore.keysWhole hapart hwhole g symKey hsym
  have hkeyThere := (kept_of_used hlater).grown _ _ (hafter.grown _ _ hsym)
  obtain ⟨_, _, -, ⟨hivLength, -⟩, -⟩ := hat hiv
  obtain ⟨_, _, -, ⟨hiv'Length, -⟩, -⟩ := hat hiv'
  -- and so is the ticket
  obtain ⟨d₄, d₅, -, hact, hafter'⟩ := hat hwrite
  have hwritten : d₅ (locate (g.ticketPath name)) = some content := by
    obtain rfl : d₅ = Function.update d₄ (locate (g.ticketPath name)) (some content) := hact
    exact Function.update_self ..
  have hticketThere := (kept_of_used hlater).grown _ _ (hafter'.grown _ _ hwritten)
  intro n' g' steps' data device d'' husername hopen hacts' hcan
  have hreads := careful_of_passive (Client.passive_openTicket n' g' (g.ticketPath name))
  obtain ⟨found, symKey', hfound, rfl, hkey', rfl⟩ := path_openTicket hopen
  rw [symKeyPath_congr husername] at hkey'
  obtain rfl := read_of_careful hreads hopen hacts' hkeyThere hkey'
  cases found with
  | none => exact absurd hfound hcan
  | some found =>
    obtain rfl := read_of_careful hreads hopen hacts' hticketThere hfound
    rw [Option.getD_some, heq, ← kdfKey_congr husername]
    exact getAndDecryptTicket_protectSymetric hp hlength hivLength hiv'Length

end Disk

/-- What the file of the ticket of user 5 holds, in the end. -/
def fileOfUser5 : Text :=
  protectSymetric openSSL iv₂ (protectSymetric openSSL iv₁ ticketOfUser5.serialize symKey)
    (generateKDFKeyToDecryptTicket openSSL (anasClientGlobals.device symKey) secret)

def boughtByAna : Text := AcceptAuthMessage.serialize ticketOfUser5.serialize fromAna

/-- `ana` stores her ticket as `t`. -/
def anaStores : List (Step ClientSig) :=
  [⟨.fileExists anasClientGlobals.folderPath, .ok true⟩, ⟨.fileExists anasClientGlobals.symKeyPath, .ok true⟩,
    ⟨.readFile anasClientGlobals.symKeyPath, some symKey⟩, ⟨.readWord, secret⟩, ⟨.randBytes, iv₁⟩,
    ⟨.randBytes, iv₂⟩, ⟨.readWord, ['t']⟩, ⟨.fileExists (anasClientGlobals.ticketPath ['t']), .ok false⟩,
    ⟨.writeFile (anasClientGlobals.ticketPath ['t']) fileOfUser5, true⟩]

theorem path_anaStores :
    Path (Client.storeTicket openSSL sha256' 2 anasClientGlobals boughtByAna) anaStores (.ret ()) := by
  have hm : AcceptAuthMessage.deserialize boughtByAna =
      .ok { fromAna with message := ticketOfUser5.serialize } :=
    AcceptAuthMessage.deserialize_serialize fromAna_sound ticketOfUser5.serialize_ne_nil
  have hcontent : saveTicket openSSL (anasClientGlobals.device symKey) iv₁ iv₂
      (generateKDFKeyToDecryptTicket openSSL (anasClientGlobals.device symKey) secret) boughtByAna =
        .ok fileOfUser5 := by
    rw [saveTicket, hm]
    rfl
  have hkey : Path (Client.generateKDFKeyToSaveTicket openSSL sha256' 2 anasClientGlobals)
      [⟨.readWord, secret⟩]
      (.ret (generateKDFKeyToDecryptTicket openSSL (anasClientGlobals.device symKey) secret)) := by
    have hhash : sha256' (saltPassword secret (generateSalt openSSL anasClientGlobals.username)) =
        anasClientGlobals.hashedPassword := by
      rw [anasClientGlobals, anasPassword, anasGlobals]
    refine ⟨_, rfl, ?_⟩
    simp only [Prog.bind, if_pos hhash]
    rfl
  have hname : Path (Client.askNewFileName 2 anasClientGlobals)
      [⟨.readWord, ['t']⟩, ⟨.fileExists (anasClientGlobals.ticketPath ['t']), .ok false⟩] (.ret ['t']) :=
    ⟨_, rfl, _, rfl, rfl⟩
  have hwrite : Path (do
      require (← ask (writeFile (anasClientGlobals.ticketPath ['t']) fileOfUser5))
        ("Failed to open file for writing: " ++ String.ofList (anasClientGlobals.ticketPath ['t'])))
      [⟨.writeFile (anasClientGlobals.ticketPath ['t']) fileOfUser5, true⟩] (.ret ()) := ⟨_, rfl, rfl⟩
  rw [Client.storeTicket, hm]
  refine ⟨_, rfl, _, rfl, _, rfl, hkey.bind ⟨_, rfl, _, rfl, ?_⟩⟩
  simp only [Prog.bind, hcontent]
  exact hname.bind hwrite

def storedDisk : Disk Text :=
  Function.update anasDisk (anasClientGlobals.ticketPath ['t']) (some fileOfUser5)

theorem acts_anaStores : Acts (Disk.act id) anasDisk anaStores storedDisk := by
  have hfree : anasDisk (anasClientGlobals.ticketPath ['t']) = none := by decide
  refine .cons rfl (.cons rfl (.cons ⟨Function.update_self .., rfl⟩ (.cons rfl ?_)))
  exact .cons ⟨rfl, rfl⟩ (.cons ⟨rfl, rfl⟩ (.cons rfl (.cons ⟨hfree, rfl⟩ (.cons rfl .nil))))

/-- No file is of both kinds, as paths are written. -/
theorem keysApart_id : KeysApart (id : Text → Text) := by
  intro g g' name h
  have hlast := congrArg List.getLast? h
  simp [ClientGlobals.ticketPath, ClientGlobals.symKeyPath] at hlast

theorem keysWhole_anasDisk : anasDisk.KeysWhole id :=
  Disk.keysWhole_update (Disk.keysWhole_update (fun _ _ => nofun) fun _ _ => rfl) fun _ _ => rfl

/-- `ana` stores her ticket, and can open it. -/
theorem stored_ticket_opens_ana : ∃ m name password,
    AcceptAuthMessage.deserialize boughtByAna = .ok m ∧ ⟨.readWord, name⟩ ∈ anaStores ∧
      ⟨.readWord, password⟩ ∈ anaStores ∧ ∀ n' (g' : ClientGlobals) steps' data device d'',
        g'.username = ana →
        Path (Client.openTicket n' g' (anasClientGlobals.ticketPath name)) steps'
          (.ret (data, device, password)) →
        Acts (Disk.act id) storedDisk steps' d'' →
        ⟨.readFile (anasClientGlobals.ticketPath name), none⟩ ∉ steps' →
        getAndDecryptTicket openSSL device data password = .ok m.message :=
  stored_ticket_opens openSSL_lawful keysApart_id keysWhole_anasDisk path_anaStores acts_anaStores .refl

end TicketIST
