import TicketIST.Lib.Contracts

/-!
# What a program does to its surroundings

A path through a program says what was done and what was answered.  `Acts` reads it on a state of the
surroundings: every step is possible in the state before it, and leads to the state after it.  What each
permitted step keeps, of the state and of the memory of the monitor that permits it, every run keeps that
keeps to the monitor (`Kept.run`).
-/

namespace TicketIST.Lib

open Prog

variable {S : Sig} {ε α μ σ : Type} {act : σ → Step S → σ → Prop} {M : Monitor S μ}

/-- The steps lead from one state of the surroundings to the other. -/
inductive Acts (act : σ → Step S → σ → Prop) : σ → List (Step S) → σ → Prop
  | nil {s} : Acts act s [] s
  | cons {s st s₁ steps s'} : act s st s₁ → Acts act s₁ steps s' → Acts act s (st :: steps) s'

/-- A step is made in a state in between. -/
theorem Acts.split {a b : List (Step S)} {st : Step S} :
    ∀ {s s' : σ}, Acts act s (a ++ st :: b) s' →
      ∃ s₁ s₂, Acts act s a s₁ ∧ act s₁ st s₂ ∧ Acts act s₂ b s' := by
  induction a with
  | nil =>
    intro s s' h
    cases h with
    | cons hst hb => exact ⟨s, _, .nil, hst, hb⟩
  | cons st' a ih =>
    intro s s' h
    cases h with
    | cons hst' h =>
      obtain ⟨s₁, s₂, ha, hst, hb⟩ := ih h
      exact ⟨s₁, s₂, .cons hst' ha, hst, hb⟩

theorem permitted_append {m : μ} {a b : List (Step S)} :
    Permitted M m (a ++ b) ↔ Permitted M m a ∧ Permitted M (a.foldl M.next m) b := by
  induction a generalizing m with
  | nil => exact (and_iff_right trivial).symm
  | cons st a ih => rw [List.cons_append, Permitted, Permitted, ih, List.foldl_cons, and_assoc]

/-- What permitted steps keep: a relation of the memory and the state, and one of states that compares
the one before with the one after. -/
structure Kept (M : Monitor S μ) (act : σ → Step S → σ → Prop) (I : μ → σ → Prop)
    (R : σ → σ → Prop) : Prop where
  refl : ∀ s, R s s
  trans : ∀ {s s₁ s'}, R s s₁ → R s₁ s' → R s s'
  step : ∀ {m s st s'}, M.ok m st.1 → act s st s' → I m s → I (M.next m st) s' ∧ R s s'

section Kept

variable {I : μ → σ → Prop} {R : σ → σ → Prop} {m : μ} {s s' : σ} {steps : List (Step S)}

/-- **What a permitted step keeps, a run keeps.** -/
theorem Kept.run (h : Kept M act I R) (hsteps : Permitted M m steps) (hacts : Acts act s steps s')
    (hI : I m s) : I (steps.foldl M.next m) s' ∧ R s s' := by
  induction hacts generalizing m with
  | nil => exact ⟨hI, h.refl _⟩
  | cons hst _ ih =>
    obtain ⟨hI₁, hR₁⟩ := h.step hsteps.1 hst hI
    obtain ⟨hI', hR'⟩ := ih hsteps.2 hI₁
    exact ⟨hI', h.trans hR₁ hR'⟩

/-- The same of the last part of a run. -/
theorem Kept.last_part (h : Kept M act I R) {before : List (Step S)} {s₀ : σ}
    (hsteps : Permitted M m (before ++ steps)) (hbefore : Acts act s₀ before s)
    (hacts : Acts act s steps s') (hI : I m s₀) : R s s' := by
  obtain ⟨hfirst, hlast⟩ := permitted_append.1 hsteps
  exact (h.run hlast hacts (h.run hfirst hbefore hI).1).2

/-- Any step of a run is made in a state that compares with the first one, and leads to one that compares
with the last one. -/
theorem Kept.at_step (h : Kept M act I R) (hsteps : Permitted M m steps) (hacts : Acts act s steps s')
    (hI : I m s) {st : Step S} (hst : st ∈ steps) : ∃ s₁ s₂, R s s₁ ∧ act s₁ st s₂ ∧ R s₂ s' := by
  obtain ⟨a, b, rfl⟩ := List.append_of_mem hst
  obtain ⟨s₁, s₂, ha, hact, hb⟩ := hacts.split
  obtain ⟨hsa, hsb⟩ := permitted_append.1 hsteps
  obtain ⟨hI₁, hR₁⟩ := h.run hsa ha hI
  obtain ⟨hI₂, -⟩ := h.step hsb.1 hact hI₁
  exact ⟨s₁, s₂, hR₁, hact, (h.run hsb.2 hb hI₂).2⟩

end Kept

/-- A result of two programs in a row, with what each of them did. -/
theorem Path.split_bind {β : Type} {p : Prog S ε α} {f : α → Prog S ε β} {steps : List (Step S)} {b : β}
    (h : Path (p >>= f) steps (.ret b)) :
    ∃ a before after, steps = before ++ after ∧ Path p before (.ret a) ∧ Path (f a) after (.ret b) := by
  induction p generalizing steps with
  | ret a => exact ⟨a, [], steps, rfl, rfl, h⟩
  | throw e =>
    obtain rfl := Path.of_throw h
    cases h
  | call op k ih =>
    cases steps with
    | nil => cases h
    | cons st steps =>
      obtain ⟨k', heq, hk⟩ := h
      cases heq
      obtain ⟨a, before, after, rfl, hp, hf⟩ := ih _ hk
      exact ⟨a, st :: before, after, rfl, ⟨_, rfl, hp⟩, hf⟩

/-- The result of a loop is that of its last turn. -/
theorem Path.of_loop {α τ : Type} {cut : Prog S ε α} {body : τ → Prog S ε (τ ⊕ α)} {n : ℕ} {s : τ}
    {steps : List (Step S)} {a : α} (hcut : ∀ steps, ¬Path cut steps (.ret a))
    (h : Path (loop cut body n s) steps (.ret a)) :
    ∃ s' before turn, steps = before ++ turn ∧ Path (body s') turn (.ret (.inr a)) := by
  induction n generalizing s steps with
  | zero => exact absurd h (hcut steps)
  | succ n ih =>
    obtain ⟨x, before, after, rfl, hbody, hrest⟩ := h.split_bind
    rcases x with s' | b
    · obtain ⟨s'', before', turn, rfl, hturn⟩ := ih hrest
      exact ⟨s'', before ++ before', turn, (List.append_assoc _ _ _).symm, hturn⟩
    · obtain rfl := hrest.of_ret
      cases hrest
      exact ⟨s, [], before, List.append_nil _, hbody⟩

end TicketIST.Lib
