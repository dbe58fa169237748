import TicketIST.Lib.Threads

/-!
# What a program ensures

A program talks to its surroundings by its operations, and anything may be answered.  `Ensures` says of
all its runs at once that they perform only operations which a monitor permits, and what holds when they
return or throw; the monitor keeps a memory of the steps so far.  There is a rule for each way to build
a program, and what a program ensures holds along every path through it (`Ensures.path`).

A loop without an end is the family of its unrollings (`loop`): after some number of turns an unrolling
stops in a program of its own, which stands for all the turns that are left.
-/

namespace TicketIST.Lib

/-- A memory of steps, and the operations that it permits. -/
structure Monitor (S : Sig) (μ : Type) where
  next : μ → Step S → μ
  ok : μ → S.Op → Prop

namespace Prog

variable {S : Sig} {ε α β σ μ : Type}

/-- Every run performs permitted operations only, ends in a result with `post` or in an exception with
`exc`, or does not end. -/
def Ensures (M : Monitor S μ) (post : α → μ → Prop) (exc : ε → μ → Prop) : Prog S ε α → μ → Prop
  | ret a, m => post a m
  | throw e, m => exc e m
  | call op k, m => M.ok m op ∧ ∀ r, (k r).Ensures M post exc (M.next m ⟨op, r⟩)

/-- The first turns of the loop with this body.  The body goes on from a new state, or leaves the loop
with a result. -/
def loop (cut : Prog S ε α) (body : σ → Prog S ε (σ ⊕ α)) : ℕ → σ → Prog S ε α
  | 0, _ => cut
  | n + 1, s => body s >>= fun
    | .inl s' => loop cut body n s'
    | .inr a => ret a

variable {M : Monitor S μ} {post : α → μ → Prop} {exc : ε → μ → Prop} {m : μ}

/-! ### Rules -/

theorem Ensures.mono {post' : α → μ → Prop} {exc' : ε → μ → Prop} {p : Prog S ε α}
    (h : p.Ensures M post exc m) (hpost : ∀ a m, post a m → post' a m)
    (hexc : ∀ e m, exc e m → exc' e m) : p.Ensures M post' exc' m := by
  induction p generalizing m with
  | ret a => exact hpost a m h
  | throw e => exact hexc e m h
  | call op k ih => exact ⟨h.1, fun r => ih r (h.2 r)⟩

theorem Ensures.bind {p : Prog S ε α} {f : α → Prog S ε β} {post : β → μ → Prop}
    (h : p.Ensures M (fun a m => (f a).Ensures M post exc m) exc m) :
    (p >>= f).Ensures M post exc m := by
  induction p generalizing m with
  | ret a => exact h
  | throw e => exact h
  | call op k ih => exact ⟨h.1, fun r => ih r (h.2 r)⟩

theorem Ensures.tryCatch {p : Prog S ε α} {g : ε → Prog S ε α}
    (h : p.Ensures M post (fun e m => (g e).Ensures M post exc m) m) :
    (p.tryCatch g).Ensures M post exc m := by
  induction p generalizing m with
  | ret a => exact h
  | throw e => exact h
  | call op k ih => exact ⟨h.1, fun r => ih r (h.2 r)⟩

theorem ensures_ofExcept {x : Except ε α} :
    (ofExcept x).Ensures M post exc m ↔
      (∀ a, x = .ok a → post a m) ∧ ∀ e, x = .error e → exc e m := by
  cases x with
  | ok a => exact ⟨fun h => ⟨fun _ heq => Except.ok.inj heq ▸ h, nofun⟩, fun h => h.1 a rfl⟩
  | error e => exact ⟨fun h => ⟨nofun, fun _ heq => Except.error.inj heq ▸ h⟩, fun h => h.2 e rfl⟩

/-- The rule of the loop: what holds at the head of a turn holds at the head of the next one. -/
theorem ensures_loop {cut : Prog S ε α} {body : σ → Prog S ε (σ ⊕ α)} {I : σ → μ → Prop}
    (hcut : ∀ s m, I s m → cut.Ensures M post exc m)
    (hbody : ∀ s m, I s m → (body s).Ensures M (fun x m => Sum.elim (I · m) (post · m) x) exc m)
    (n : ℕ) (s : σ) (hI : I s m) : (loop cut body n s).Ensures M post exc m := by
  induction n generalizing s m with
  | zero => exact hcut s m hI
  | succ n ih =>
    refine Ensures.bind ((hbody s m hI).mono ?_ fun _ _ h => h)
    rintro (s' | a) m' h
    · exact ih s' h
    · exact h

theorem uses_loop {φ : S.Op → Prop} {cut : Prog S ε α} {body : σ → Prog S ε (σ ⊕ α)}
    (hcut : cut.Uses φ) (hbody : ∀ s, (body s).Uses φ) (n : ℕ) (s : σ) :
    (loop cut body n s).Uses φ := by
  induction n generalizing s with
  | zero => exact hcut
  | succ n ih =>
    refine (hbody s).bind ?_
    rintro (s' | a)
    · exact ih s'
    · trivial

theorem throws_of_forall {φ : ε → Prop} (h : ∀ e, φ e) (p : Prog S ε α) : p.Throws φ := by
  induction p with
  | ret a => trivial
  | throw e => exact h e
  | call op k ih => exact ih

theorem Throws.bind {φ : ε → Prop} {p : Prog S ε α} {f : α → Prog S ε β} (h : p.Throws φ)
    (hf : ∀ a, (f a).Throws φ) : (p >>= f).Throws φ := by
  induction p with
  | ret a => exact hf a
  | throw e => exact h
  | call op k ih => exact fun r => ih r (h r)

theorem throws_loop {φ : ε → Prop} {cut : Prog S ε α} {body : σ → Prog S ε (σ ⊕ α)}
    (hcut : cut.Throws φ) (hbody : ∀ s, (body s).Throws φ) (n : ℕ) (s : σ) :
    (loop cut body n s).Throws φ := by
  induction n generalizing s with
  | zero => exact hcut
  | succ n ih =>
    refine (hbody s).bind ?_
    rintro (s' | a)
    · exact ih s'
    · trivial

/-- A part of a program that uses operations which leave the memory alone. -/
theorem Uses.ensures {φ : S.Op → Prop} {p : Prog S ε α} (h : p.Uses φ)
    (hφ : ∀ op, φ op → M.ok m op ∧ ∀ r, M.next m ⟨op, r⟩ = m) (hpost : ∀ a, post a m)
    (hexc : p.Throws (exc · m)) : p.Ensures M post exc m := by
  induction p with
  | ret a => exact hpost a
  | throw e => exact hexc
  | call op k ih =>
    refine ⟨(hφ op h.1).1, fun r => ?_⟩
    rw [(hφ op h.1).2 r]
    exact ih r (h.2 r) (hexc r)

/-! ### Paths -/

/-- The steps are permitted where they are made. -/
def Permitted (M : Monitor S μ) : μ → List (Step S) → Prop
  | _, [] => True
  | m, st :: steps => M.ok m st.1 ∧ Permitted M (M.next m st) steps

/-- What a program ensures holds along every path through it. -/
theorem Ensures.path {p q : Prog S ε α} {steps : List (Step S)} (h : p.Ensures M post exc m)
    (hp : Path p steps q) :
    Permitted M m steps ∧ q.Ensures M post exc (steps.foldl M.next m) := by
  induction steps generalizing p m with
  | nil =>
    obtain rfl : p = q := hp
    exact ⟨trivial, h⟩
  | cons st steps ih =>
    obtain ⟨k, rfl, hk⟩ := hp
    obtain ⟨hsteps, hq⟩ := ih (h.2 st.2) hk
    exact ⟨⟨h.1, hsteps⟩, hq⟩

end Prog

/-! ### Building paths -/

section Path

variable {S : Sig} {ε α β : Type} {p q : Prog S ε α} {a : α} {steps steps' : List (Step S)}

theorem Path.of_ret (h : Path (.ret a) steps q) : steps = [] := by
  cases steps with
  | nil => rfl
  | cons st steps => cases h.choose_spec.1

theorem Path.of_throw {e : ε} (h : Path (.throw e) steps q) : steps = [] := by
  cases steps with
  | nil => rfl
  | cons st steps => cases h.choose_spec.1

theorem path_call {op : S.Op} {k : S.Ret op → Prog S ε α} {r : S.Ret op} :
    Path (.call op k) (⟨op, r⟩ :: steps) q ↔ Path (k r) steps q := by
  constructor
  · rintro ⟨k', heq, hk⟩
    cases heq
    exact hk
  · exact fun hk => ⟨k, rfl, hk⟩

theorem Path.of_call {op : S.Op} {q : Prog S ε (S.Ret op)} (h : Path (.call op .ret) steps q) :
    steps = [] ∨ ∃ r, steps = [⟨op, r⟩] := by
  cases steps with
  | nil => exact .inl rfl
  | cons st steps =>
    obtain ⟨k, heq, hk⟩ := h
    cases heq
    rw [hk.of_ret]
    exact .inr ⟨st.2, rfl⟩

theorem Path.bind {f : α → Prog S ε β} {q : Prog S ε β} (h : Path p steps (.ret a))
    (hf : Path (f a) steps' q) : Path (p >>= f) (steps ++ steps') q := by
  induction steps generalizing p with
  | nil =>
    obtain rfl : p = .ret a := h
    exact hf
  | cons st steps ih =>
    obtain ⟨k, rfl, hk⟩ := h
    exact ⟨_, rfl, ih hk⟩

theorem Path.bind_left {q : Prog S ε α} (h : Path p steps q) (f : α → Prog S ε β) :
    Path (p >>= f) steps (q >>= f) := by
  induction steps generalizing p with
  | nil =>
    obtain rfl : p = q := h
    rfl
  | cons st steps ih =>
    obtain ⟨k, rfl, hk⟩ := h
    exact ⟨_, rfl, ih hk⟩

/-- A result of two programs in a row is one of the second. -/
theorem Path.of_bind {f : α → Prog S ε β} {b : β} (h : Path (p >>= f) steps (.ret b)) :
    ∃ a steps', Path (f a) steps' (.ret b) := by
  induction p generalizing steps with
  | ret a => exact ⟨a, steps, h⟩
  | throw e =>
    obtain rfl := Path.of_throw h
    cases h
  | call op k ih =>
    cases steps with
    | nil => cases h
    | cons st steps =>
      obtain ⟨k', heq, hk⟩ := h
      cases heq
      exact ih _ hk

theorem Path.tryCatch (h : Path p steps (.ret a)) (g : ε → Prog S ε α) :
    Path (p.tryCatch g) steps (.ret a) := by
  induction steps generalizing p with
  | nil =>
    obtain rfl : p = .ret a := h
    rfl
  | cons st steps ih =>
    obtain ⟨k, rfl, hk⟩ := h
    exact ⟨_, rfl, ih hk⟩

end Path

end TicketIST.Lib
