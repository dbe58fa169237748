import TicketIST.Lib.Prog

/-!
# One program in the midst of others

`Amid` are the runs of one program on a component that others use at the same time.  Before each of its
operations, and at its end, the others may have changed the state; all that is known of them is the
relation `rely` that their changes keep to.  A program that runs alone is the case in which nothing
changes.
-/

namespace TicketIST.Lib

variable {S : Sig} {ε α σ : Type}

/-- From `s`, among others that keep to `rely`, the program performs `steps`, has the last program left
and the state is the last one. -/
inductive Amid (M : Machine S σ) (rely : σ → σ → Prop) :
    Prog S ε α → σ → List (Step S) → Prog S ε α → σ → Prop
  | rest {p s s'} : rely s s' → Amid M rely p s [] p s'
  | step {op k s s₁ steps q s'} : rely s s₁ →
      Amid M rely (k (M op s₁).1) (M op s₁).2 steps q s' →
      Amid M rely (.call op k) s (⟨op, (M op s₁).1⟩ :: steps) q s'

namespace Amid

variable {M : Machine S σ} {rely : σ → σ → Prop} {s s' : σ} {steps : List (Step S)} {a : α}

theorem of_ret {b : α} (h : Amid M rely (.ret b : Prog S ε α) s steps (.ret a) s') :
    a = b ∧ steps = [] ∧ rely s s' := by
  cases h with
  | rest hr => exact ⟨rfl, rfl, hr⟩

theorem not_throw {e : ε} : ¬Amid M rely (.throw e) s steps (.ret a) s' := nofun

/-- The first operation, in the state in which the others left the component. -/
theorem of_call {op : S.Op} {k : S.Ret op → Prog S ε α}
    (h : Amid M rely (.call op k) s steps (.ret a) s') : ∃ s₁ steps', rely s s₁ ∧
      steps = ⟨op, (M op s₁).1⟩ :: steps' ∧
      Amid M rely (k (M op s₁).1) (M op s₁).2 steps' (.ret a) s' := by
  cases h with
  | step hr hk => exact ⟨_, _, hr, rfl, hk⟩

/-- A program that decodes first, and returns, did decode. -/
theorem of_ofExcept {γ : Type} {x : Except ε γ} {f : γ → Prog S ε α}
    (h : Amid M rely (Prog.ofExcept x >>= f) s steps (.ret a) s') :
    ∃ b, x = .ok b ∧ Amid M rely (f b) s steps (.ret a) s' := by
  cases x with
  | error e => exact absurd h not_throw
  | ok b => exact ⟨b, rfl, h⟩

/-- What others keep to may be described by less. -/
theorem mono {rely' : σ → σ → Prop} (hrely : ∀ s s', rely s s' → rely' s s') {p q : Prog S ε α}
    (h : Amid M rely p s steps q s') : Amid M rely' p s steps q s' := by
  induction h with
  | rest hr => exact .rest (hrely _ _ hr)
  | step hr _ ih => exact .step (hrely _ _ hr) ih

/-- A program that runs alone. -/
theorem of_run (hrely : ∀ s, rely s s) {p : Prog S ε α} (h : p.run M s = (.ok a, s')) :
    Amid M rely p s (p.trace M s) (.ret a) s' := by
  induction p generalizing s with
  | ret b =>
    cases h
    exact .rest (hrely _)
  | throw e => cases h
  | call op k ih => exact .step (hrely _) (ih _ h)

end Amid

end TicketIST.Lib
