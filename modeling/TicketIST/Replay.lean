import TicketIST.Controller
import TicketIST.Lib.Threads

/-!
# Replayed requests

A request names its session by username and cookie, and is fresh if its nonce is the stored one plus
one.  The nonce is compared at the start of a handler and advanced when the reply is built, so a
second copy of a request, on any connection, passes the check as long as the first has not been
answered (`replayed`).

In the interleavings in which no check passes before the nonce was advanced for the last one, every
triple of username, cookie and nonce passes once (`passes_le_one`); a check that passes too early is
a replay (`passes_twice_of_spent`).
-/

namespace TicketIST

open TicketIST.Lib ServerOp

variable {ι : Type} {coll sha : Text → Text}

/-- Connections about to be handled by one server: what each of them will read. -/
def serving (ssl : ι → SSL) (reads : ι → List (Surroundings × Text)) (s : Server coll) :
    Config ι ServerSig Exn Unit (Server coll) :=
  ⟨fun i => handleClient (ssl i) (reads i), s⟩

/-- What an authenticated request is recognised by: its username, its cookie and its nonce. -/
abbrev Triple := Text × Text × ℤ

/-- The session, the cookie and the nonce of a check that passes. -/
def passed? : Firing ι ServerSig → Option (SessionKey × Text × ℤ)
  | ⟨_, .isAuthenticationCorrect k cookie nonce, true⟩ => some (k, cookie, nonce)
  | _ => none

/-- A check of the triple passes, for a user or for a validator: the request that carries it goes on to
its service call. -/
def passes (x : Triple) (e : Firing ι ServerSig) : Bool :=
  (passed? e).any fun (k, cookie, nonce) => (k.2, cookie, nonce) = x

def opens? : Firing ι ServerSig → Option (SessionKey × Text)
  | ⟨_, .authenticate k cookie _, _⟩ => some (k, cookie)
  | _ => none

def openings (tr : List (Firing ι ServerSig)) : List (SessionKey × Text) := tr.filterMap opens?

def issuedCookies (tr : List (Firing ι ServerSig)) : List Text := (openings tr).map Prod.snd

/-- Whether the nonce of a session is spent after the event, given whether it was before: a check that
passes spends it, and a reply advances it. -/
def spend (k : SessionKey) (cookie : Text) : Bool → Firing ι ServerSig → Bool
  | b, ⟨_, .isAuthenticationCorrect k' cookie' _, ok⟩ => b || decide ((k', cookie') = (k, cookie)) && ok
  | b, ⟨_, .advance k', _⟩ => b && !decide (k' = k)
  | b, _ => b

/-- A check of the session has passed since its nonce was last advanced. -/
def spent (k : SessionKey) (cookie : Text) (tr : List (Firing ι ServerSig)) : Bool :=
  tr.foldl (spend k cookie) false

/-- Cookies never repeat. -/
def FreshCookie (tr : List (Firing ι ServerSig)) (c : Config ι ServerSig Exn Unit (Server coll))
    (i : ι) : Prop :=
  match (c.pool i).next with
  | some (.authenticate _ cookie _) => cookie ∉ issuedCookies tr
  | _ => True

/-- A check that passes finds the nonce advanced since the last check of the session that passed, and
a reply finds the session it belongs to. -/
def InTurn (tr : List (Firing ι ServerSig)) (c : Config ι ServerSig Exn Unit (Server coll)) (i : ι) :
    Prop :=
  match (c.pool i).next with
  | some (.isAuthenticationCorrect k cookie nonce) =>
    c.st.controller.isAuthenticationCorrect k cookie nonce = true → spent k cookie tr = false
  | some (.advance k) => (c.st.controller.sessions k).isSome = true
  | _ => True

instance (tr : List (Firing ι ServerSig)) (c : Config ι ServerSig Exn Unit (Server coll)) (i : ι) :
    Decidable (FreshCookie tr c i) := by
  unfold FreshCookie
  split <;> infer_instance

instance (tr : List (Firing ι ServerSig)) (c : Config ι ServerSig Exn Unit (Server coll)) (i : ι) :
    Decidable (InTurn tr c i) := by
  unfold InTurn
  split <;> infer_instance

def Passed (k : SessionKey) (cookie : Text) (nonce : ℤ) (tr : List (Firing ι ServerSig)) : Prop :=
  ∃ e ∈ tr, passed? e = some (k, cookie, nonce)

/-! ### What one step adds -/

section Steps

variable {tr : List (Firing ι ServerSig)} {e : Firing ι ServerSig} {x : Triple} {k : SessionKey}
  {cookie : Text} {nonce : ℤ}

theorem passes_iff : passes x e = true ↔ ∃ r, passed? e = some ((r, x.1), x.2) := by
  simp only [passes, Option.any_eq_true, decide_eq_true_eq]
  constructor
  · rintro ⟨⟨⟨r, u⟩, cookie, nonce⟩, he, rfl⟩
    exact ⟨r, he⟩
  · rintro ⟨r, he⟩
    exact ⟨_, he, rfl⟩

theorem passes_of_none (h : passed? e = none) : passes x e = false := by
  rw [passes, h, Option.any_none]

theorem passed_snoc : Passed k cookie nonce (tr ++ [e]) ↔
    Passed k cookie nonce tr ∨ passed? e = some (k, cookie, nonce) := by
  simp [Passed, or_and_right, exists_or]

theorem passed_snoc_of_none (h : passed? e = none) :
    Passed k cookie nonce (tr ++ [e]) ↔ Passed k cookie nonce tr := by
  rw [passed_snoc, h]
  simp

theorem mem_openings_snoc :
    (k, cookie) ∈ openings (tr ++ [e]) ↔ (k, cookie) ∈ openings tr ∨ opens? e = some (k, cookie) := by
  simp [openings, List.filterMap_append, List.mem_append, List.mem_filterMap]

theorem mem_openings_snoc_of_none (h : opens? e = none) :
    (k, cookie) ∈ openings (tr ++ [e]) ↔ (k, cookie) ∈ openings tr := by
  rw [mem_openings_snoc, h]
  simp

theorem mem_issuedCookies (h : (k, cookie) ∈ openings tr) : cookie ∈ issuedCookies tr :=
  List.mem_map_of_mem h

theorem spent_snoc : spent k cookie (tr ++ [e]) = spend k cookie (spent k cookie tr) e := by
  simp [spent]

end Steps

/-! ### The invariant -/

/-- What the trace says about the sessions, as long as all checks that pass are in turn. -/
structure Fresh (tr : List (Firing ι ServerSig)) (s : Server coll) : Prop where
  /-- a triple passes once -/
  once : ∀ x, tr.countP (passes x) ≤ 1
  /-- a cookie is given to one session -/
  owner : ∀ k k' cookie, (k, cookie) ∈ openings tr → (k', cookie) ∈ openings tr → k = k'
  /-- what passed was a session that was opened -/
  passed : ∀ k cookie nonce, Passed k cookie nonce tr → (k, cookie) ∈ openings tr
  /-- so is every session that is there -/
  session : ∀ k cookie n, s.controller.sessions k = some (cookie, n) → (k, cookie) ∈ openings tr
  /-- a nonce that passed for a session is at most the stored one, or it is the next one, spent -/
  below : ∀ k cookie n nonce, s.controller.sessions k = some (cookie, n) →
    Passed k cookie nonce tr → nonce ≤ n ∨ nonce = n + 1 ∧ spent k cookie tr = true
  /-- a spent nonce was spent by a check that passed with the next one -/
  spender : ∀ k cookie n, s.controller.sessions k = some (cookie, n) → spent k cookie tr = true →
    Passed k cookie (n + 1) tr

variable {tr : List (Firing ι ServerSig)} {s s' : Server coll} {e : Firing ι ServerSig} {i : ι}
  {k : SessionKey} {cookie : Text} {nonce : ℤ}

theorem Fresh.once_snoc (h : Fresh tr s) (hp : passed? e = none) (x : Triple) :
    (tr ++ [e]).countP (passes x) ≤ 1 := by
  rw [List.countP_append, List.countP_singleton, passes_of_none hp]
  exact h.once x

theorem Fresh.owner_snoc (h : Fresh tr s) (ho : opens? e = none) (k k' : SessionKey) (cookie : Text)
    (hk : (k, cookie) ∈ openings (tr ++ [e])) (hk' : (k', cookie) ∈ openings (tr ++ [e])) :
    k = k' := by
  rw [mem_openings_snoc_of_none ho] at hk hk'
  exact h.owner k k' cookie hk hk'

theorem Fresh.openings_snoc (h : Fresh tr s) (hp : passed? e = none) (k : SessionKey)
    (cookie : Text) (nonce : ℤ) (hpass : Passed k cookie nonce (tr ++ [e])) :
    (k, cookie) ∈ openings (tr ++ [e]) := by
  rw [passed_snoc_of_none hp] at hpass
  exact mem_openings_snoc.2 (.inl (h.passed k cookie nonce hpass))

/-- Steps that only lose sessions. -/
theorem Fresh.keep (h : Fresh tr s)
    (hs : ∀ k v, s'.controller.sessions k = some v → s.controller.sessions k = some v)
    (hp : passed? e = none) (ho : opens? e = none) (hspend : ∀ k cookie b, spend k cookie b e = b) :
    Fresh (tr ++ [e]) s' where
  once := h.once_snoc hp
  owner := h.owner_snoc ho
  passed := h.openings_snoc hp
  session k cookie n hk := by
    rw [mem_openings_snoc_of_none ho]
    exact h.session k cookie n (hs _ _ hk)
  below k cookie n nonce hk hpass := by
    rw [spent_snoc, hspend]
    exact h.below k cookie n nonce (hs _ _ hk) ((passed_snoc_of_none hp).1 hpass)
  spender k cookie n hk hspent := by
    rw [spent_snoc, hspend] at hspent
    exact (passed_snoc_of_none hp).2 (h.spender k cookie n (hs _ _ hk) hspent)

/-- A check that passes, in turn. -/
theorem Fresh.check (h : Fresh tr s) (hk : s.controller.sessions k = some (cookie, nonce - 1))
    (ht : spent k cookie tr = false) :
    Fresh (tr ++ [⟨i, isAuthenticationCorrect k cookie nonce, true⟩]) s where
  once x := by
    rw [List.countP_append, List.countP_singleton]
    by_cases hx : (k.2, cookie, nonce) = x
    · subst hx
      have hzero : tr.countP (passes (k.2, cookie, nonce)) = 0 := by
        refine List.countP_eq_zero.2 ?_
        intro e he hpass
        obtain ⟨r, hr⟩ := passes_iff.1 hpass
        have hpassed : Passed (r, k.2) cookie nonce tr := ⟨e, he, hr⟩
        -- the cookie tells whether a user's or a validator's session passed
        have hkey : (r, k.2) = k := h.owner _ _ cookie (h.passed _ cookie nonce hpassed)
          (h.session k cookie (nonce - 1) hk)
        rw [hkey] at hpassed
        -- an earlier pass would have left the nonce spent
        rcases h.below k cookie (nonce - 1) nonce hk hpassed with hle | ⟨-, hs⟩
        · omega
        · rw [ht] at hs; cases hs
      rw [hzero]
      split <;> omega
    · have hno : passes x (⟨i, isAuthenticationCorrect k cookie nonce, true⟩ : Firing ι ServerSig)
          = false := by simp [passes, passed?, hx]
      rw [hno]
      exact h.once x
  owner := h.owner_snoc rfl
  passed k' cookie' nonce' hpass := by
    rw [mem_openings_snoc_of_none rfl]
    rcases passed_snoc.1 hpass with hpass | hnew
    · exact h.passed k' cookie' nonce' hpass
    · cases hnew
      exact h.session k cookie _ hk
  session k' cookie' n hk' := by
    rw [mem_openings_snoc_of_none rfl]
    exact h.session k' cookie' n hk'
  below k' cookie' n nonce' hk' hpass := by
    rw [spent_snoc, spend]
    rcases passed_snoc.1 hpass with hpass | hnew
    · rcases h.below k' cookie' n nonce' hk' hpass with hle | ⟨hn, hs⟩
      · exact .inl hle
      · exact .inr ⟨hn, by rw [hs]; rfl⟩
    · cases hnew
      rw [hk] at hk'
      cases hk'
      exact .inr ⟨(Int.sub_add_cancel ..).symm, by simp⟩
  spender k' cookie' n hk' hs := by
    rw [spent_snoc, spend, Bool.or_eq_true] at hs
    rcases hs with hs | hnew
    · exact passed_snoc.2 (.inl (h.spender k' cookie' n hk' hs))
    · simp only [Bool.and_true, decide_eq_true_eq, Prod.mk.injEq] at hnew
      obtain ⟨rfl, rfl⟩ := hnew
      rw [hk] at hk'
      cases hk'
      exact passed_snoc.2 (.inr (by rw [Int.sub_add_cancel]; rfl))

theorem passed_of_spent (h : spent k cookie tr = true) : ∃ nonce, Passed k cookie nonce tr := by
  induction tr using List.reverseRecOn with
  | nil => cases h
  | append_singleton tr e ih =>
    rw [spent_snoc] at h
    by_cases hs : spent k cookie tr = true
    · obtain ⟨nonce, hpass⟩ := ih hs
      exact ⟨nonce, passed_snoc.2 (.inl hpass)⟩
    · rw [Bool.not_eq_true] at hs
      obtain ⟨i, op, ret⟩ := e
      cases op with
      | isAuthenticationCorrect k' cookie' nonce' =>
        simp only [spend, hs, Bool.false_or, Bool.and_eq_true, decide_eq_true_eq, Prod.mk.injEq] at h
        obtain ⟨⟨rfl, rfl⟩, rfl⟩ := h
        exact ⟨nonce', passed_snoc.2 (.inr rfl)⟩
      | advance k' => rw [hs] at h; cases h
      | _ => rw [hs] at h; cases h

theorem Fresh.authenticate (h : Fresh tr s) (hc : cookie ∉ issuedCookies tr) :
    Fresh (tr ++ [⟨i, .authenticate k cookie nonce, ()⟩])
      { s with controller := s.controller.authenticate k cookie nonce } := by
  -- the new cookie has been in no session and in no check
  have hopen : ∀ k', (k', cookie) ∉ openings tr := by
    intro k' hk'
    exact hc (mem_issuedCookies hk')
  have hno : ∀ k' nonce', ¬Passed k' cookie nonce' tr := by
    intro k' nonce' hpass
    exact hopen k' (h.passed k' cookie nonce' hpass)
  constructor
  case once => exact h.once_snoc rfl
  case owner =>
    intro k₁ k₂ cookie' h₁ h₂
    rcases mem_openings_snoc.1 h₁ with h₁ | h₁
    · rcases mem_openings_snoc.1 h₂ with h₂ | h₂
      · exact h.owner k₁ k₂ cookie' h₁ h₂
      · cases h₂
        exact absurd h₁ (hopen k₁)
    · cases h₁
      rcases mem_openings_snoc.1 h₂ with h₂ | h₂
      · exact absurd h₂ (hopen k₂)
      · cases h₂; rfl
  case passed => exact h.openings_snoc rfl
  case session =>
    intro k' cookie' n hk'
    rcases Controller.sessions_set_cases hk' with ⟨rfl, hv⟩ | ⟨-, hk'⟩
    · cases hv
      exact mem_openings_snoc.2 (.inr rfl)
    · exact mem_openings_snoc.2 (.inl (h.session k' cookie' n hk'))
  case below =>
    intro k' cookie' n nonce' hk' hpass
    rw [passed_snoc_of_none rfl] at hpass
    rw [spent_snoc]
    rcases Controller.sessions_set_cases hk' with ⟨-, hv⟩ | ⟨-, hk'⟩
    · cases hv
      exact absurd hpass (hno k' nonce')
    · exact h.below k' cookie' n nonce' hk' hpass
  case spender =>
    intro k' cookie' n hk' hs
    rw [passed_snoc_of_none rfl]
    rw [spent_snoc] at hs
    rcases Controller.sessions_set_cases hk' with ⟨-, hv⟩ | ⟨-, hk'⟩
    · cases hv
      obtain ⟨nonce', hpass⟩ := passed_of_spent hs
      exact absurd hpass (hno k' nonce')
    · exact h.spender k' cookie' n hk' hs

theorem Fresh.advance (h : Fresh tr s) (hk : (s.controller.sessions k).isSome = true) (r : Text × ℤ) :
    Fresh (tr ++ [⟨i, .advance k, r⟩]) { s with controller := (s.controller.advance k).2 } := by
  obtain ⟨⟨cookie, n⟩, hk⟩ := Option.isSome_iff_exists.1 hk
  rw [Controller.advance_of_sessions _ hk]
  constructor
  case once => exact h.once_snoc rfl
  case owner => exact h.owner_snoc rfl
  case passed => exact h.openings_snoc rfl
  case session =>
    intro k' cookie' n' hk'
    rw [mem_openings_snoc_of_none rfl]
    rcases Controller.sessions_set_cases hk' with ⟨rfl, hv⟩ | ⟨-, hk'⟩
    · cases hv
      exact h.session k' cookie n hk
    · exact h.session k' cookie' n' hk'
  case below =>
    intro k' cookie' n' nonce' hk' hpass
    rw [passed_snoc_of_none rfl] at hpass
    rcases Controller.sessions_set_cases hk' with ⟨rfl, hv⟩ | ⟨hne, hk'⟩
    · -- the nonce that could be spent is now the stored one
      cases hv
      left
      rcases h.below k' cookie n nonce' hk hpass with hle | ⟨hn, -⟩ <;> omega
    · rw [spent_snoc, spend, decide_eq_false (Ne.symm hne), Bool.not_false, Bool.and_true]
      exact h.below k' cookie' n' nonce' hk' hpass
  case spender =>
    intro k' cookie' n' hk' hs
    rw [passed_snoc_of_none rfl]
    rw [spent_snoc, spend] at hs
    rcases Controller.sessions_set_cases hk' with ⟨rfl, hv⟩ | ⟨hne, hk'⟩
    · simp at hs
    · rw [decide_eq_false (Ne.symm hne), Bool.not_false, Bool.and_true] at hs
      exact h.spender k' cookie' n' hk' hs

/-- **The step lemma.** -/
theorem Fresh.step (h : Fresh tr s) {op : ServerOp}
    (hc : ∀ k cookie n, op = .authenticate k cookie n → cookie ∉ issuedCookies tr)
    (ht : ∀ k cookie nonce, op = isAuthenticationCorrect k cookie nonce →
      s.controller.isAuthenticationCorrect k cookie nonce = true → spent k cookie tr = false)
    (ha : ∀ k, op = .advance k → (s.controller.sessions k).isSome = true) :
    Fresh (tr ++ [⟨i, op, (exec sha op s).1⟩]) (exec sha op s).2 := by
  cases op with
  | isAuthenticationCorrect k cookie nonce =>
    rcases Bool.eq_false_or_eq_true (s.controller.isAuthenticationCorrect k cookie nonce) with hok | hok
    · simp only [exec, hok]
      exact h.check (s.controller.isAuthenticationCorrect_iff.1 hok) (ht k cookie nonce rfl hok)
    · simp only [exec, hok]
      exact h.keep (fun _ _ hk => hk) rfl rfl fun _ _ b => by simp [spend]
  | authenticate k cookie nonce => exact h.authenticate (hc k cookie nonce rfl)
  | advance k => exact h.advance (ha k rfl) _
  | logout k =>
    refine h.keep ?_ rfl rfl fun _ _ _ => rfl
    intro k' v hk'
    rcases Controller.sessions_set_cases hk' with ⟨-, hv⟩ | ⟨-, hk'⟩
    · cases hv
    · exact hk'
  | _ => exact h.keep (fun _ _ hk => hk) rfl rfl fun _ _ _ => rfl

theorem fresh_start {tickets : TicketDB} {users : UserDB coll} {events : EventDB coll} :
    Fresh ([] : List (Firing ι ServerSig)) (.start tickets users events) where
  once _ := Nat.zero_le 1
  owner _ _ _ h := absurd h List.not_mem_nil
  passed _ _ _ := fun ⟨_, he, _⟩ => absurd he List.not_mem_nil
  session := nofun
  below := nofun
  spender := nofun

/-! ### Every run -/

section Run

variable [DecidableEq ι] {ssl : ι → SSL} {reads : ι → List (Surroundings × Text)}
  {tickets : TicketDB} {users : UserDB coll} {events : EventDB coll}
  {c : Config ι ServerSig Exn Unit (Server coll)}

def FreshInTurn (tr : List (Firing ι ServerSig)) (c : Config ι ServerSig Exn Unit (Server coll))
    (i : ι) : Prop := FreshCookie tr c i ∧ InTurn tr c i

instance (tr : List (Firing ι ServerSig)) (c : Config ι ServerSig Exn Unit (Server coll)) (i : ι) :
    Decidable (FreshInTurn tr c i) := instDecidableAnd

theorem fresh_of_runs (run : Runs (exec sha) FreshInTurn
    (serving ssl reads (.start tickets users events)) tr c) : Fresh tr c.st := by
  refine run.inv (I := fun tr c => Fresh tr c.st) fresh_start ?_
  intro tr c i op k h hp ha
  have hnext : (c.pool i).next = some op := by rw [hp, Prog.next_call]
  obtain ⟨hcookie, hturn⟩ := ha
  unfold FreshCookie at hcookie
  unfold InTurn at hturn
  rw [hnext] at hcookie hturn
  apply h.step
  · rintro k cookie n rfl
    exact hcookie
  · rintro k cookie nonce rfl
    exact hturn
  · rintro k rfl
    exact hturn

/-- **A triple passes once**, where every check that passes is in turn. -/
theorem passes_le_one (run : Runs (exec sha) FreshInTurn
    (serving ssl reads (.start tickets users events)) tr c) (x : Triple) :
    tr.countP (passes x) ≤ 1 := (fresh_of_runs run).once x

/-- The condition is exact: after a run in turn, a check that passes out of turn is a replay. -/
theorem passes_twice_of_spent (run : Runs (exec sha) FreshInTurn
    (serving ssl reads (.start tickets users events)) tr c)
    (hok : c.st.controller.isAuthenticationCorrect k cookie nonce = true)
    (hs : spent k cookie tr = true) :
    (tr ++ [(⟨i, isAuthenticationCorrect k cookie nonce, true⟩ : Firing ι ServerSig)]).countP
      (passes (k.2, cookie, nonce)) = 2 := by
  have hsession := c.st.controller.isAuthenticationCorrect_iff.1 hok
  obtain ⟨e, he, hpass⟩ := (fresh_of_runs run).spender k cookie (nonce - 1) hsession hs
  rw [Int.sub_add_cancel] at hpass
  have hpos : 0 < tr.countP (passes (k.2, cookie, nonce)) :=
    List.countP_pos_iff.2 ⟨e, he, passes_iff.2 ⟨k.1, hpass⟩⟩
  have hle := passes_le_one run (k.2, cookie, nonce)
  have hnew : passes (k.2, cookie, nonce)
      (⟨i, isAuthenticationCorrect k cookie nonce, true⟩ : Firing ι ServerSig) = true :=
    passes_iff.2 ⟨k.1, rfl⟩
  rw [List.countP_append, List.countP_singleton, hnew, if_pos rfl]
  omega

end Run

/-- User 5 logs in on one connection and buys; the other connection sends a copy of the purchase. -/
def copied : Config Bool ServerSig Exn Unit (Server lower) :=
  serving (fun b => if b then 2 else 1)
    (fun b => if b then [(surroundings 1, buys 7)]
      else [(surroundings 0, logsIn), (surroundings 0, buys 7)])
    opened

def purchaseTriple : Triple :=
  (ana, AuthenticatedMessage.generateCookie (surroundings 0),
    AuthenticatedMessage.generateNonce (surroundings 0) + 2)

def callsTickets : Firing ι ServerSig → Bool
  | ⟨_, .ticketService .., _⟩ => true
  | _ => false

/-- Both copies are checked before either is answered, and both reach the ticket service. -/
theorem replayed : ∃ tr c, Runs (exec sha256) FreshCookie copied tr c ∧
    tr.countP (passes purchaseTriple) = 2 ∧ tr.countP callsTickets = 2 := by
  have run := Runs.nil.replay (by decide +kernel : Admits (exec sha256) FreshCookie
    [false, false, false, false, false, false, true, false, false, false, true, true, true] [] copied)
  exact ⟨_, _, run, by decide +kernel, by decide +kernel⟩

theorem passed_in_turn : ∃ tr c, Runs (exec sha256) FreshInTurn copied tr c ∧
    tr.countP (passes purchaseTriple) ≤ 1 := by
  have run := Runs.nil.replay (by decide +kernel : Admits (exec sha256) FreshInTurn
    [false, false, false, false, false, false, false, false, false, false, false, true, true] [] copied)
  exact ⟨_, _, run, passes_le_one run purchaseTriple⟩

end TicketIST
