import TicketIST.Client
import TicketIST.Encoding
import TicketIST.Resale

/-!
# A bought ticket, from the reply to the gate

Client and server compute codes and hashes of a ticket on different ways: the server from the ticket it
issued, or from what it parsed and wrote again; the client from the text that it took out of a reply,
encrypted twice for its file and decrypted again.  The text comes through unchanged
(`getAndDecryptTicket_saveTicket`), and both sides agree on all that they make of it for every ticket
that can be parsed at all: its price must not be written too small for `std::stod`
(`ticket_survives_iff`).
-/

namespace TicketIST

open TicketIST.Lib TicketOp

variable {p : Primitives} {sha : Text → Text} {d : Device}

/-! ### Two encryptions -/

theorem Cipher.keySize_of_ofKeySize {size : ℕ} {cipher : Cipher}
    (h : Cipher.ofKeySize size = some cipher) : size = cipher.keySize := by
  unfold ofKeySize at h
  split at h
  · cases h
    assumption
  · split at h
    · cases h
      assumption
    · split at h
      · cases h
        assumption
      · cases h

/-- The IV in front of a ciphertext is what its decryption takes from it. -/
theorem unprotectSymetric_protectSymetric (hp : p.Lawful) {cipher : Cipher} {iv key : Text}
    (hkey : Cipher.ofKeySize key.length = some cipher) (hiv : iv.length = 16) (data : Text) :
    unprotectSymetric p (protectSymetric p iv data key) key = .ok data := by
  have hlen : ¬(iv ++ p.encrypt cipher key iv data).length < 16 := by
    rw [List.length_append]
    omega
  have hdec := hp.decrypt_encrypt cipher key iv data (Cipher.keySize_of_ofKeySize hkey) hiv
  simp only [protectSymetric, unprotectSymetric, hkey, if_neg hlen, List.take_left' hiv,
    List.drop_left' hiv, hdec]

/-- Saving and opening a ticket derive the same key from the same password. -/
theorem eq_of_generateKDFKeyToSaveTicket {answers : List (Text × Char)} {password key : Text}
    (h : generateKDFKeyToSaveTicket p d sha answers = some (password, key)) :
    key = generateKDFKeyToDecryptTicket p d password := by
  induction answers with
  | nil => cases h
  | cons answer answers ih =>
    obtain ⟨password', choice⟩ := answer
    simp only [generateKDFKeyToSaveTicket] at h
    split at h
    · cases h
      rfl
    · exact ih h

section

variable {answers : List (Text × Char)} {password key iv iv' message : Text} {m : AuthenticatedMessage}

/-- The two decryptions take off what the two encryptions put on. -/
theorem getAndDecryptTicket_protectSymetric (hp : p.Lawful) (hsym : d.symKey.length = 32)
    (hiv : iv.length = 16) (hiv' : iv'.length = 16) :
    getAndDecryptTicket p d (protectSymetric p iv' (protectSymetric p iv message d.symKey)
      (generateKDFKeyToDecryptTicket p d password)) password = .ok message := by
  have hsym' : Cipher.ofKeySize d.symKey.length = some .aes256cbc := by
    rw [hsym]
    rfl
  have hkdf : Cipher.ofKeySize (generateKDFKeyToDecryptTicket p d password).length =
      some .aes256cbc := by
    rw [generateKDFKeyToDecryptTicket, keyDerivationFunction, hp.pbkdf2_length]
    rfl
  rw [getAndDecryptTicket, unprotectSymetric_protectSymetric hp hkdf hiv']
  exact unprotectSymetric_protectSymetric hp hsym' hiv message

/-- **What is saved of a reply is its message**, whatever the message is. -/
theorem getAndDecryptTicket_saveTicket (hp : p.Lawful) (hm : m.Sound) (hne : message ≠ [])
    (hsym : d.symKey.length = 32) (hiv : iv.length = 16) (hiv' : iv'.length = 16)
    (hkey : generateKDFKeyToSaveTicket p d sha answers = some (password, key)) :
    ∃ file, saveTicket p d iv iv' key (AcceptAuthMessage.serialize message m) = .ok file ∧
      getAndDecryptTicket p d file password = .ok message := by
  obtain rfl := eq_of_generateKDFKeyToSaveTicket hkey
  refine ⟨protectSymetric p iv' (protectSymetric p iv message d.symKey)
    (generateKDFKeyToDecryptTicket p d password), ?_,
    getAndDecryptTicket_protectSymetric hp hsym hiv hiv'⟩
  rw [saveTicket, AcceptAuthMessage.deserialize_serialize hm hne]
  rfl

end

/-! ### What is promised of a ticket -/

/-- `sellTicket` gets past its integrity check on `data`, to the check of the price. -/
def PassesIntegrity (sha : Text → Text) (db : TicketDB) (data : Text) : Prop :=
  ∃ t, Ticket.deserialize data = .ok (true, t) ∧ ∀ newPrice,
    (TicketService.sellTicket sha data newPrice).run exec db =
      if newPrice.lt .zero || t.price.lt newPrice then
        (.error (.invalidArgument
          "Invalid price. Please provide a price greater than 0 and the current price."), db)
      else (Sell.list sha t newPrice).run exec db

/-- The ticket `t` in `file` is the server's, byte for byte, and both sides agree on its codes. -/
structure Survives (p : Primitives) (sha : Text → Text) (d : Device) (password : Text) (db : TicketDB)
    (t : Ticket) (file : Text) : Prop where
  bytes : getAndDecryptTicket p d file password = .ok t.serialize
  validationCode : getTicketValCode p d file password =
    "Validation Code: ".toList ++ t.validationCode ++ ['\n']
  integrityCode : ∃ code, getIntegrityCode p d sha file password =
      "Computing Integrity Code...\n".toList ++ ("Validation Code: ".toList ++ t.validationCode ++
        ['\n'] ++ "Integrity Code: ".toList ++ code ++ ['\n']) ∧
    (TicketService.checkIntegrity sha t.validationCode code).run exec db =
      (.ok (true, "Integrity check successful.".toList), db)
  resale : PassesIntegrity sha db t.serialize

variable {db db' : TicketDB} {t : Ticket}

/-- A ticket that a purchase returns is written without separators in its fields. -/
theorem plain_of_buyTicket {T e u : ℤ} {env : Env}
    (hbuy : ((TicketService.buyTicket sha T e u env).run exec db).1 = .ok t) (hseat : '|' ∉ t.seat) :
    t.Plain := by
  have hdone : Done sha (fun _ => false) db (.buyTicket T e u env) _ _ := done_of_serve _
  have hreply : (serve sha (.buyTicket T e u env) db).1 = .ok (.ticket t) := by
    rw [serve, Call.prog, Prog.run_map, hbuy]
    rfl
  rw [hreply] at hdone
  obtain ⟨T', e', u', env', ti, -, -, -, rfl⟩ := hdone.ticket
  exact ⟨Ticket.bar_not_mem_formatDate _, hseat, Ticket.bar_not_mem_chars _⟩

theorem rowOf_issued (ti : TicketInfo) (u : ℤ) (env : Env) :
    RowOf sha (issued ti u env) (Buy.row sha u (issued ti u env)) :=
  ⟨rfl, rfl, rfl⟩

/-- The parsed ticket is written as the one it was read from. -/
theorem serialize_rendered (t : Ticket) :
    ({ t with price := t.price.rendered } : Ticket).serialize = t.serialize := by
  simp only [Ticket.serialize, Double.showDouble_rendered]

theorem Ticket.serialize_ne_nil (t : Ticket) : t.serialize ≠ [] := by
  simp [serialize]

theorem exists_integrityCode {hash : Text} (h : 5 ≤ hash.length) :
    ∃ code, TicketService.integrityCode hash = .ok code := by
  rw [TicketService.integrityCode, if_neg (by omega)]
  exact ⟨_, rfl⟩

section

variable {password file : Text}

/-- A ticket that can be parsed keeps all that is promised, while its row is there. -/
theorem survives_of_row (hbytes : getAndDecryptTicket p d file password = .ok t.serialize)
    (hparse : Ticket.deserialize t.serialize = .ok (true, { t with price := t.price.rendered }))
    {row : TicketRow} (hrow : row ∈ db'.ticket) (hof : RowOf sha t row)
    (hsha : 5 ≤ (sha t.serialize).length) : Survives p sha d password db' t file := by
  have hticket : parseTicket t.serialize = .ok { t with price := t.price.rendered } := by
    rw [parseTicket, hparse]
    rfl
  obtain ⟨code, hcode⟩ := exists_integrityCode hsha
  refine ⟨hbytes, ?_, ⟨code, ?_, ?_⟩, ⟨_, hparse, ?_⟩⟩
  · simp only [getTicketValCode, hbytes, bind, Except.bind, hticket]
  · simp only [getIntegrityCode, hbytes, hcode, hticket, Except.mapError, bind, Except.bind, pure,
      Except.pure]
  · exact checkIntegrity_of_row hrow hof.code (hof.hash ▸ hcode)
  · intro newPrice
    rw [Sell.sellTicket_eq, hparse]
    simp only [Bool.not_true, Bool.false_eq_true, if_false]
    exact Sell.run_of_row hrow hof.code (by rw [hof.hash, serialize_rendered])

/-- **A bought ticket survives the pipeline exactly if its price is not written too small**: the text
that comes out of the file is always the server's, and with it the client shows the issued code and an
integrity code that is accepted, and the text passes the check at resale. -/
theorem ticket_survives_iff (hp : p.Lawful) {T e u : ℤ} {env : Env}
    (hbuy : ((TicketService.buyTicket sha T e u env).run exec db).1 = .ok t) (hseat : '|' ∉ t.seat)
    (hfits : t.Fits) {m : AuthenticatedMessage} (hm : m.Sound) (hsym : d.symKey.length = 32)
    {iv iv' : Text} (hiv : iv.length = 16) (hiv' : iv'.length = 16) {answers : List (Text × Char)}
    {key : Text} (hkey : generateKDFKeyToSaveTicket p d sha answers = some (password, key))
    {row : TicketRow} (hrow : row ∈ db'.ticket) (hof : RowOf sha t row)
    (hsha : 5 ≤ (sha t.serialize).length) :
    ∃ file, saveTicket p d iv iv' key (AcceptAuthMessage.serialize t.serialize m) = .ok file ∧
      getAndDecryptTicket p d file password = .ok t.serialize ∧
      (Survives p sha d password db' t file ↔ ¬t.price.Tiny) := by
  obtain ⟨file, hfile, hbytes⟩ :=
    getAndDecryptTicket_saveTicket hp hm t.serialize_ne_nil hsym hiv hiv' hkey
  have hparse := Ticket.deserialize_serialize (plain_of_buyTicket hbuy hseat) hfits
  refine ⟨file, hfile, hbytes, ?_, ?_⟩
  · rintro ⟨-, -, -, t', ht', -⟩ htiny
    rw [hparse, stod_showDouble_of_tiny htiny hfits.price] at ht'
    cases ht'
  · intro htiny
    rw [stod_showDouble htiny hfits.price] at hparse
    exact survives_of_row hbytes hparse hrow hof hsha

end

/-! ### One ticket -/

/-- The bytes that hexadecimal digits write. -/
def fromHex : Text → Text
  | a :: b :: s => Char.ofNat (16 * hexVal a + hexVal b) :: fromHex s
  | _ => []

def symKey : Text := "ABCDEFGHIJKLMNOPQRSTUVWXYZ012345".toList

def iv₁ : Text := "0123456789abcdef".toList
def iv₂ : Text := "fedcba9876543210".toList

/-- The password `secret` of `ana`, salted. -/
def salted : Text := "secret1591c85561443508".toList

def kdfKey : Text :=
  fromHex "c4554131948f445410d37d2383e123ed114e590cb8a5625e3b09fe363fd2a2b5".toList

/-- The ticket of user 5 under `symKey` and `iv₁`. -/
def halfEncrypted : Text := fromHex <|
  "bf71bb157729ab7bd6908a3fad496ffdb08d949159c9073b".toList ++
  "574daf1194f89675f471e79ca10fbc31fd658a90035b81bc".toList

/-- The same, with `iv₁` in front, under `kdfKey` and `iv₂`. -/
def twiceEncrypted : Text := fromHex <|
  "8871cadae85ec4afd7ce733be39581d5f5e8cd70fd03426d".toList ++
  "cc02c7cb98cecf0364f28c0a8e8439590900b1f3cedf1753".toList ++
  "14de09ae9fe273fcf089b60f04fef3029c0993c609de6318ee488104bb2053f2".toList

/-- What AES-256-CBC makes of the ticket. -/
def ciphertexts (key iv : Text) : List (Text × Text) :=
  if key = symKey ∧ iv = iv₁ then [(ticketOfUser5.serialize, halfEncrypted)]
  else if key = kdfKey ∧ iv = iv₂ then [(iv₁ ++ halfEncrypted, twiceEncrypted)]
  else []

/-- OpenSSL on the ticket of user 5, whose name is `ana`. -/
def openSSL : Primitives where
  encrypt _ key iv := extend (ciphertexts key iv)
  decrypt _ key iv := retract (ciphertexts key iv)
  pbkdf2 password iterations keyLength :=
    if password = salted ∧ iterations = 10000 ∧ keyLength = 32 then kdfKey
    else List.replicate keyLength '0'
  hash s := if s = ana then 0x1591c85561443508 else 0

theorem openSSL_lawful : openSSL.Lawful where
  decrypt_encrypt cipher key iv data _ _ := by
    refine retract_extend ?_ ?_ data
    all_goals
      unfold ciphertexts
      split
      · decide +kernel
      · split <;> decide +kernel
  pbkdf2_length password iterations keyLength := by
    simp only [openSSL]
    split
    · next h =>
      rw [h.2.2]
      decide +kernel
    · exact List.length_replicate

/-- SHA-256 on the texts of `digests` and on the salted password. -/
def sha256' : Text → Text :=
  extend ((salted, hex 0x9644499afded1c8e886fd3e90b8cc4238bd078e79cbc5822ff1c0c30c80d1bc3) :: digests)

def anasDevice : Device := { username := ana, hashedPassword := sha256' salted, symKey }

/-- The store after user 5 bought seat 7. -/
def boughtSeat7 : TicketDB :=
  ((TicketService.buyTicket sha256' 7 1 5 (drawing 0)).run exec ⟨twoSeats, .empty, .empty⟩).2

/-- User 5 saves the ticket for seat 7, at the second attempt, and opens it with the same password. -/
theorem ticket_survives_ana :
    ∃ file, saveTicket openSSL anasDevice iv₁ iv₂ kdfKey
        (AcceptAuthMessage.serialize ticketOfUser5.serialize fromAna) = .ok file ∧
      getAndDecryptTicket openSSL anasDevice file secret = .ok ticketOfUser5.serialize ∧
      Survives openSSL sha256' anasDevice secret boughtSeat7 ticketOfUser5 file := by
  have hbuy : ((TicketService.buyTicket sha256' 7 1 5 (drawing 0)).run exec
      ⟨twoSeats, .empty, .empty⟩).1 = .ok ticketOfUser5 := by decide +kernel
  have hkey : generateKDFKeyToSaveTicket openSSL anasDevice sha256'
      [("sicret".toList, 'n'), (secret, 'n')] = some (secret, kdfKey) := by decide +kernel
  have hrow : Buy.row sha256' 5 ticketOfUser5 ∈ boughtSeat7.ticket.rows := by decide +kernel
  have hof : RowOf sha256' ticketOfUser5 (Buy.row sha256' 5 ticketOfUser5) :=
    rowOf_issued (seat 7 "86L") 5 (drawing 0)
  have hsym : anasDevice.symKey.length = 32 := by decide +kernel
  have hsha : 5 ≤ (sha256' ticketOfUser5.serialize).length := by decide +kernel
  have hnormal : ¬ticketOfUser5.price.Tiny := by
    rintro ⟨d, hd, htiny⟩
    cases hd
    exact (inRange_rendered_iff finite_forty).1 (by decide) htiny
  obtain ⟨file, hfile, hbytes, hiff⟩ := ticket_survives_iff openSSL_lawful hbuy (by decide +kernel)
    fits_ticketOfUser5 fromAna_sound hsym (by decide : iv₁.length = 16) (by decide : iv₂.length = 16) hkey hrow hof
    hsha
  exact ⟨file, hfile, hbytes, hiff.2 hnormal⟩

/-- Seat 7, for the smallest positive price. -/
def cheapSeat : TicketInfo := { seat 7 "86L" with price := .fin denormMin }

def cheapTicket : Ticket := issued cheapSeat 5 (drawing 0)

/-- The ticket that user 5 gets for `cheapSeat` is saved, and opened again as it was; but the client
takes the password for wrong, and the server does not parse the ticket. -/
theorem cheap_ticket_is_lost :
    ((TicketService.buyTicket sha256 7 1 5 (drawing 0)).run exec
        ⟨⟨[cheapSeat], by decide⟩, .empty, .empty⟩).1 = .ok cheapTicket ∧
      cheapTicket.Fits ∧ '|' ∉ cheapTicket.seat ∧
      cheapTicket.serialize = "7|1|0|5|2024-12-30 18:5:9|4.94066e-324|86L|AAAAAAAAAA".toList ∧
      Ticket.deserialize cheapTicket.serialize = .error (.outOfRange "stod") ∧
      ∀ (p : Primitives) (d : Device) (iv iv' : Text) answers password key, p.Lawful →
        d.symKey.length = 32 → iv.length = 16 → iv'.length = 16 →
        generateKDFKeyToSaveTicket p d sha256 answers = some (password, key) →
        ∃ file, saveTicket p d iv iv' key
            (AcceptAuthMessage.serialize cheapTicket.serialize fromAna) = .ok file ∧
          getAndDecryptTicket p d file password = .ok cheapTicket.serialize ∧
          getTicketValCode p d file password = passwordIncorrect ∧
          ∀ db, ¬Survives p sha256 d password db cheapTicket file := by
  have hser : cheapTicket.serialize =
      "7|1|0|5|2024-12-30 18:5:9|4.94066e-324|86L|AAAAAAAAAA".toList := by decide +kernel
  have hparse : Ticket.deserialize cheapTicket.serialize = .error (.outOfRange "stod") := by
    decide +kernel
  have hfits : cheapTicket.Fits := by
    refine ⟨by decide, by decide, by decide, by decide, ?_⟩
    intro d hd
    have hd' : denormMin = d := Double.fin.inj hd
    exact hd' ▸ finite_denormMin
  refine ⟨by decide +kernel, hfits, by decide +kernel, hser, hparse, ?_⟩
  intro p d iv iv' answers password key hp hsym hiv hiv' hkey
  obtain ⟨file, hfile, hbytes⟩ :=
    getAndDecryptTicket_saveTicket hp fromAna_sound cheapTicket.serialize_ne_nil hsym hiv hiv' hkey
  refine ⟨file, hfile, hbytes, ?_, ?_⟩
  · simp only [getTicketValCode, hbytes, parseTicket, hparse, Except.mapError, bind, Except.bind]
  · rintro db ⟨-, -, -, t, ht, -⟩
    rw [hparse] at ht
    cases ht

end TicketIST
