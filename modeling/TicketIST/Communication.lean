import TicketIST.Controller
import TicketIST.Lib.Records

/-!
# Messages on the wire

Both ends write a message with one `SSL_write`, which makes it one record, and both find its end from the
size of what a read gets.  The server takes one read of at most 1024 bytes for a message, so it sees the
messages of a client whole exactly if none is longer (`handled_whole_iff`).  The client reads until a read
gets less than it asked for, so it returns a reply exactly if the size of its buffer does not divide the
length of the reply; otherwise it waits for more when it has all of it (`receiveData_iff`).

Here a character stands for one byte.
-/

namespace TicketIST

open TicketIST.Lib ServerOp

variable {coll sha : Text → Text}

/-! ### What the server handles -/

/-- What the reads of `handleClient` get of the messages that a client sends: its buffer has room for
1024 bytes. -/
def receivedMessages (ms : List Text) : List Text := (Wire.written ms).reads 1024

section Handled

variable {σ : Type} (handle : σ → Surroundings × Text → Option σ)

/-- The calls of `messageHandler` in the loop of `handleClient`, each with what it finds.  Here `handle`
is what a call leaves behind, if it does not throw: the server, and what others do to it meanwhile. -/
def handlerCalls : σ → List (Surroundings × Text) → List (σ × Surroundings × Text)
  | _, [] => []
  | s, read :: reads =>
    match cut ':' read.2 with
    | none => []
    | some _ => (s, read) ::
      match handle s read with
      | none => []
      | some s' => handlerCalls s' reads

/-- No call but the last throws. -/
def Returns : σ → List (Surroundings × Text) → Prop
  | _, [] => True
  | s, read :: reads => reads = [] ∨ ∃ s', handle s read = some s' ∧ Returns s' reads

/-- The arguments of the calls. -/
def handledMessages (s : σ) (reads : List (Surroundings × Text)) : List Text :=
  (handlerCalls handle s reads).map fun call => call.2.2

end Handled

/-- What a call of `messageHandler` leaves behind when nobody else is served. -/
def handling (sha : Text → Text) (ssl : SSL) (s : Server coll) (read : Surroundings × Text) :
    Option (Server coll) :=
  match (messageHandler read.1 ssl read.2).run (exec sha) s with
  | (.ok _, s') => some s'
  | (.error _, _) => none

/-- The steps of a call, and of sending its reply. -/
def callSteps (sha : Text → Text) (ssl : SSL) (call : Server coll × Surroundings × Text) :
    List (Step ServerSig) :=
  (messageHandler call.2.1 ssl call.2.2).trace (exec sha) call.1 ++
    match ((messageHandler call.2.1 ssl call.2.2).run (exec sha) call.1).1 with
    | .ok response => [⟨sendData ssl response, ()⟩]
    | .error _ => []

/-- **What the loop of a connection does is what its calls do**, each followed by its reply, and perhaps
the rejection of a message without a colon. -/
theorem clientLoop_trace (ssl : SSL) (reads : List (Surroundings × Text)) (s : Server coll) :
    ∃ rest, (clientLoop ssl reads).trace (exec sha) s =
        (handlerCalls (handling sha ssl) s reads).flatMap (callSteps sha ssl) ++ rest ∧
      (rest = [] ∨
        rest = [⟨sendData ssl (RejectMessage.serialize "Invalid message format.".toList), ()⟩]) := by
  induction reads generalizing s with
  | nil => exact ⟨[], rfl, .inl rfl⟩
  | cons read reads ih =>
    obtain ⟨sur, m⟩ := read
    unfold clientLoop handlerCalls
    cases hm : cut ':' m with
    | none => exact ⟨_, rfl, .inr rfl⟩
    | some _ =>
      rw [Prog.trace_bind]
      cases hrun : (messageHandler sur ssl m).run (exec sha) s with
      | mk o s' =>
        cases o with
        | error x => exact ⟨[], by simp [handling, callSteps, hrun], .inl rfl⟩
        | ok response =>
          obtain ⟨rest, htrace, hrest⟩ := ih s'
          refine ⟨rest, ?_, hrest⟩
          simp [handling, callSteps, hrun, htrace, exec]

section Handled

variable {σ : Type} {handle : σ → Surroundings × Text → Option σ} {s : σ} {ms : List Text}
  {reads : List (Surroundings × Text)}

theorem receivedMessages_nil : receivedMessages [] = [] := Wire.reads_empty 1024

/-- A message that fits the buffer is read whole. -/
theorem receivedMessages_cons {m : Text} (hm : m ≠ []) (hms : ∀ m ∈ ms, m ≠ [])
    (h : m.length ≤ 1024) : receivedMessages (m :: ms) = m :: receivedMessages ms := by
  rw [receivedMessages, Wire.written_cons hm hms, Wire.reads_cons_of_le h]
  rfl

/-- Of a message that does not fit, the first read gets the beginning. -/
theorem receivedMessages_cons_of_lt {m : Text} (hm : m ≠ []) (hms : ∀ m ∈ ms, m ≠ [])
    (h : 1024 < m.length) : ∃ rest, receivedMessages (m :: ms) = m.take 1024 :: rest := by
  rw [receivedMessages, Wire.written_cons hm hms, Wire.reads_cons_of_lt (by omega) h]
  exact ⟨_, rfl⟩

theorem reads_eq_nil_iff (hms : ∀ m ∈ ms, m ≠ []) (hreads : reads.map Prod.snd = receivedMessages ms) :
    reads = [] ↔ ms = [] := by
  rw [← List.map_eq_nil_iff (f := Prod.snd), hreads]
  cases ms with
  | nil => exact iff_of_true receivedMessages_nil rfl
  | cons m ms =>
    have hm : m ≠ [] := hms m List.mem_cons_self
    have hrest : ∀ m ∈ ms, m ≠ [] := fun m' h => hms m' (List.mem_cons_of_mem _ h)
    refine iff_of_false ?_ (List.cons_ne_nil m ms)
    by_cases hlen : m.length ≤ 1024
    · rw [receivedMessages_cons hm hrest hlen]
      exact List.cons_ne_nil _ _
    · obtain ⟨rest, hcut⟩ := receivedMessages_cons_of_lt hm hrest (Nat.not_le.1 hlen)
      rw [hcut]
      exact List.cons_ne_nil _ _

/-- The first call is for the first read, if that has a colon. -/
theorem handledMessages_cons (sur : Surroundings) {m : Text} (hm : ':' ∈ m) :
    handledMessages handle s ((sur, m) :: reads) =
      m :: match handle s (sur, m) with
        | none => []
        | some s' => handledMessages handle s' reads := by
  obtain ⟨x, hx⟩ := exists_cut hm
  simp only [handledMessages, handlerCalls, hx, List.map_cons]
  cases handle s (sur, m) <;> rfl

theorem head_of_handledMessages {sur : Surroundings} {m m' : Text}
    (h : handledMessages handle s ((sur, m) :: reads) = m' :: ms) : m = m' := by
  simp only [handledMessages, handlerCalls] at h
  cases hm : cut ':' m with
  | none =>
    rw [hm] at h
    cases h
  | some x =>
    rw [hm] at h
    exact (List.cons.inj h).1

/-- **The server sees messages whole exactly if each fits its buffer** and no call but the last throws,
which would end the connection. -/
theorem handled_whole_iff (hms : ∀ m ∈ ms, ':' ∈ m)
    (hreads : reads.map Prod.snd = receivedMessages ms) :
    handledMessages handle s reads = ms ↔ (∀ m ∈ ms, m.length ≤ 1024) ∧ Returns handle s reads := by
  induction ms generalizing s reads with
  | nil =>
    rw [receivedMessages_nil, List.map_eq_nil_iff] at hreads
    subst hreads
    exact iff_of_true rfl ⟨fun m hm => absurd hm List.not_mem_nil, trivial⟩
  | cons m ms ih =>
    have hm : ':' ∈ m := hms m List.mem_cons_self
    have hrest : ∀ m ∈ ms, ':' ∈ m := fun m' h => hms m' (List.mem_cons_of_mem _ h)
    have hne : ∀ m ∈ ms, m ≠ [] := fun m' h => List.ne_nil_of_mem (hrest m' h)
    by_cases hlen : m.length ≤ 1024
    · rw [receivedMessages_cons (List.ne_nil_of_mem hm) hne hlen] at hreads
      obtain ⟨⟨sur, m⟩, reads, rfl, rfl, htexts⟩ := List.map_eq_cons_iff.1 hreads
      rw [handledMessages_cons sur hm, List.forall_mem_cons, and_iff_right hlen]
      cases hs : handle s (sur, m) with
      | none =>
        -- the connection ends here, and whole if this was the last message
        have hlast : Returns handle s ((sur, m) :: reads) ↔ ms = [] := by
          rw [← reads_eq_nil_iff hne htexts]
          simp [Returns, hs]
        rw [hlast]
        constructor
        · intro h
          obtain rfl : ms = [] := (List.cons.inj h).2.symm
          exact ⟨fun m hm => absurd hm List.not_mem_nil, rfl⟩
        · rintro ⟨-, rfl⟩
          rfl
      | some s' =>
        have hreturns : Returns handle s ((sur, m) :: reads) ↔ Returns handle s' reads := by
          simp only [Returns, hs, Option.some.injEq, exists_eq_left']
          refine or_iff_right_of_imp ?_
          rintro rfl
          trivial
        rw [hreturns, ← ih hrest htexts]
        exact ⟨fun h => (List.cons.inj h).2, congrArg (m :: ·)⟩
    · obtain ⟨rest, hcut⟩ := receivedMessages_cons_of_lt (List.ne_nil_of_mem hm) hne (Nat.not_le.1 hlen)
      rw [hcut] at hreads
      obtain ⟨⟨sur, m⟩, reads, rfl, rfl, htexts⟩ := List.map_eq_cons_iff.1 hreads
      refine iff_of_false (fun h => hlen ?_) fun h => hlen (h.1 m List.mem_cons_self)
      have hhead : m.take 1024 = m := head_of_handledMessages h
      rw [← hhead]
      exact List.length_take_le ..

end Handled

/-- User 5 logs in and buys: both messages fit. -/
theorem handled_whole_ana :
    (∀ m ∈ [logsIn, buys 7], m.length ≤ 1024) ∧
      (handledMessages (handling sha256 1) opened [(surroundings 0, logsIn), (surroundings 0, buys 7)] =
          [logsIn, buys 7] ↔
        (∀ m ∈ [logsIn, buys 7], m.length ≤ 1024) ∧
          Returns (handling sha256 1) opened [(surroundings 0, logsIn), (surroundings 0, buys 7)]) := by
  have hcolon : ∀ m ∈ [logsIn, buys 7], ':' ∈ m := by decide +kernel
  have hfits : ∀ m ∈ [logsIn, buys 7], m.length ≤ 1024 := by decide +kernel
  refine ⟨hfits, handled_whole_iff hcolon ?_⟩
  rw [receivedMessages_cons (by decide +kernel) (by decide +kernel) (hfits _ (by simp)),
    receivedMessages_cons (by decide +kernel) (by decide +kernel) (hfits _ (by simp)),
    receivedMessages_nil]
  rfl

/-- A sign-up with a long password, whose end reads as a log-in. -/
def longSignUp : Text :=
  SignUpMessage.serialize
    { username := ['b', 'o', 'b'], password := List.replicate 1018 'x' ++ logsIn }

/-- The server takes it for a sign-up with another password and a log-in, and answers both. -/
theorem message_cut :
    ':' ∈ longSignUp ∧ longSignUp.length ≤ 16384 ∧
      receivedMessages [longSignUp] = [longSignUp.take 1024, logsIn] ∧
      handledMessages (handling sha256 1) opened
          [(surroundings 0, longSignUp.take 1024), (surroundings 1, logsIn)] =
        [longSignUp.take 1024, logsIn] ∧
      [longSignUp.take 1024, logsIn] ≠ [longSignUp] := by
  have hrest : longSignUp.drop 1024 = logsIn := by decide +kernel
  refine ⟨by decide +kernel, by decide +kernel, ?_, by decide +kernel, by decide +kernel⟩
  rw [receivedMessages, Wire.written_cons (by decide +kernel) (fun _ h => absurd h List.not_mem_nil),
    Wire.reads_cons_of_lt (by omega) (by decide +kernel),
    Wire.reads_cons_of_le (by rw [hrest]; decide +kernel), Wire.written_nil, Wire.reads_empty, hrest]

/-! ### What the client receives -/

/-- How `TLSClient::receiveData` ends: it returns, or a read waits for what has not been sent. -/
inductive Receipt
  | returns (result : Text) (rest : Wire Char)
  | waits (result : Text)

/-- The loop of `TLSClient::receiveData`.  A read that gets nothing or less than it asked for ends it. -/
def receiveLoop (bufferSize : ℕ) (result : Text) (w : Wire Char) : Receipt :=
  match _h : w.read bufferSize with
  | none => .waits result
  | some (buffer, w') =>
    if _hb : buffer = [] then .returns result w'
    else if buffer.length < bufferSize then .returns (result ++ buffer) w'
    else receiveLoop bufferSize (result ++ buffer) w'
termination_by w.size
decreasing_by
  have hsize := Wire.size_of_read _h
  have hpos := List.length_pos_iff.2 _hb
  omega

def receiveData (bufferSize : ℕ) (w : Wire Char) : Receipt := receiveLoop bufferSize [] w

section Receive

variable {n : ℕ} {result b reply : Text} {w w' : Wire Char}

theorem receiveLoop_waits (h : w.read n = none) : receiveLoop n result w = .waits result := by
  rw [receiveLoop]
  split
  · rfl
  · next heq =>
    rw [h] at heq
    cases heq

theorem receiveLoop_read (h : w.read n = some (b, w')) (hb : b ≠ []) :
    receiveLoop n result w =
      if b.length < n then .returns (result ++ b) w' else receiveLoop n (result ++ b) w' := by
  rw [receiveLoop]
  split
  · next heq =>
    rw [h] at heq
    cases heq
  · next heq =>
    rw [h] at heq
    cases heq
    exact dif_neg hb

/-- What the loop makes of the rest of a reply: it takes it whole, and waits if the buffer was full with
its end. -/
theorem receiveLoop_cons (hn : 0 < n) (hr : reply ≠ []) :
    receiveLoop n result (.cons reply hr .empty) =
      if n ∣ reply.length then .waits (result ++ reply) else .returns (result ++ reply) .empty := by
  induction hlen : reply.length using Nat.strong_induction_on generalizing reply result with
  | _ len ih =>
    subst hlen
    have hpos := List.length_pos_iff.2 hr
    rcases Nat.lt_trichotomy reply.length n with hlt | heq | hgt
    · rw [receiveLoop_read (Wire.read_cons_of_le hlt.le) hr, if_pos hlt,
        if_neg (Nat.not_dvd_of_pos_of_lt hpos hlt)]
    · rw [receiveLoop_read (Wire.read_cons_of_le heq.le) hr, if_neg (Nat.lt_irrefl _ <| heq ▸ ·),
        receiveLoop_waits (Wire.read_empty n), if_pos (heq ▸ Nat.dvd_refl _)]
    · have htake : (reply.take n).length = n := List.length_take_of_le hgt.le
      have hdrop : (reply.drop n).length = reply.length - n := List.length_drop
      rw [receiveLoop_read (Wire.read_cons_of_lt hgt) (List.ne_nil_of_length_pos (by omega)),
        if_neg (by omega), ih _ (by omega) (Wire.drop_ne_nil hgt) rfl, List.append_assoc,
        List.take_append_drop, hdrop]
      have hdvd : n ∣ reply.length - n ↔ n ∣ reply.length :=
        (Nat.dvd_sub_iff_left hgt.le (Nat.dvd_refl n))
      simp only [hdvd]

theorem receiveData_written (hn : 0 < n) (hr : reply ≠ []) :
    receiveData n (.written [reply]) =
      if n ∣ reply.length then .waits reply else .returns reply .empty := by
  rw [receiveData, Wire.written_cons hr fun _ h => absurd h List.not_mem_nil, Wire.written_nil,
    receiveLoop_cons hn hr, List.nil_append]

/-- **The client returns a reply exactly if the size of its buffer does not divide the length of the
reply.**  If it does, the last read fills the buffer, and another one waits. -/
theorem receiveData_iff (hn : 1 ≤ n) (hr : reply ≠ []) :
    receiveData n (.written [reply]) = .returns reply .empty ↔ ¬n ∣ reply.length := by
  rw [receiveData_written hn hr]
  by_cases hdvd : n ∣ reply.length
  · rw [if_pos hdvd]
    exact iff_of_false (fun h => by cases h) (not_not.2 hdvd)
  · rw [if_neg hdvd]
    exact iff_of_true rfl hdvd

end Receive

/-- The reply to a log-out is shorter than the client's buffer. -/
theorem receiveData_goodbye :
    ¬1024 ∣ (createAcceptMessage "Log-out successful.\n".toList).length ∧
      (receiveData 1024 (.written [createAcceptMessage "Log-out successful.\n".toList]) =
          .returns (createAcceptMessage "Log-out successful.\n".toList) .empty ↔
        ¬1024 ∣ (createAcceptMessage "Log-out successful.\n".toList).length) :=
  ⟨by decide +kernel, receiveData_iff (by omega) (by decide +kernel)⟩

/-- A reply that fills the client's buffer. -/
def fullReply : Text := createAcceptMessage (List.replicate 1022 '-')

/-- The client has all of it, and waits for more. -/
theorem reply_awaited :
    1024 ∣ 16384 ∧ fullReply.length = 1024 ∧
      receiveData 1024 (.written [fullReply]) = .waits fullReply ∧
      receiveData 1024 (.written [fullReply]) ≠ .returns fullReply .empty := by
  have hlen : fullReply.length = 1024 := by decide +kernel
  have hne : fullReply ≠ [] := List.ne_nil_of_length_pos (by omega)
  have hwaits : receiveData 1024 (.written [fullReply]) = .waits fullReply := by
    rw [receiveData_written (by omega) hne, if_pos (hlen ▸ Nat.dvd_refl _)]
  refine ⟨by decide, hlen, hwaits, ?_⟩
  rw [hwaits]
  intro h
  cases h

end TicketIST
