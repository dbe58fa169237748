/-!
# Calls served one at a time

A component answers a call and moves to its next state by a function `serve`.  A serial run makes
finitely many calls, one after another, each `allowed` after the history it follows; the history
records every call with its answer.
-/

namespace TicketIST.Lib

section

variable {γ ρ σ : Type}

/-- The serial runs from `s₀`: the calls with their answers, oldest first, and the state reached. -/
inductive Serial (serve : γ → σ → ρ × σ) (allowed : List (γ × ρ) → σ → γ → Prop) (s₀ : σ) :
    List (γ × ρ) → σ → Prop
  | nil : Serial serve allowed s₀ [] s₀
  | snoc {h s} (c : γ) : Serial serve allowed s₀ h s → allowed h s c →
      Serial serve allowed s₀ (h ++ [(c, (serve c s).1)]) (serve c s).2

variable {serve : γ → σ → ρ × σ} {allowed : List (γ × ρ) → σ → γ → Prop} {s₀ s : σ}
  {h : List (γ × ρ)}

/-- The invariant rule: what every allowed call keeps holds at the end of every run. -/
theorem Serial.inv (hr : Serial serve allowed s₀ h s) {I : List (γ × ρ) → σ → Prop}
    (h₀ : I [] s₀)
    (hI : ∀ h s c, I h s → allowed h s c → I (h ++ [(c, (serve c s).1)]) (serve c s).2) :
    I h s := by
  induction hr with
  | nil => exact h₀
  | snoc c _ ha ih => exact hI _ _ c ih ha

theorem Serial.mono (hr : Serial serve allowed s₀ h s) {allowed' : List (γ × ρ) → σ → γ → Prop}
    (ha : ∀ h s c, allowed h s c → allowed' h s c) : Serial serve allowed' s₀ h s := by
  induction hr with
  | nil => exact .nil
  | snoc c _ hc ih => exact ih.snoc c (ha _ _ c hc)

/-- Every entry of the history is an allowed call, served at the end of a run with what came before. -/
theorem Serial.exists_before (hr : Serial serve allowed s₀ h s) {h₁ h₂ : List (γ × ρ)} {c : γ} {r : ρ}
    (hh : h = h₁ ++ (c, r) :: h₂) :
    ∃ s₁, Serial serve allowed s₀ h₁ s₁ ∧ allowed h₁ s₁ c ∧ r = (serve c s₁).1 := by
  induction hr generalizing h₂ with
  | nil => simp at hh
  | @snoc h s c' hrun hc' ih =>
    rcases List.eq_nil_or_concat h₂ with rfl | ⟨h₃, e, rfl⟩
    · obtain ⟨rfl, heq⟩ := List.append_inj' hh rfl
      cases heq
      exact ⟨s, hrun, hc', rfl⟩
    · have hcat : h₁ ++ (c, r) :: h₃.concat e = (h₁ ++ (c, r) :: h₃) ++ [e] := by simp
      rw [hcat] at hh
      exact ih (List.append_inj' hh rfl).1

/-- The run that makes the listed calls after the history `h`. -/
def serveAll (serve : γ → σ → ρ × σ) : List γ → List (γ × ρ) → σ → List (γ × ρ) × σ
  | [], h, s => (h, s)
  | c :: cs, h, s => serveAll serve cs (h ++ [(c, (serve c s).1)]) (serve c s).2

/-- Every listed call is allowed where it is made. -/
def AllAllowed (serve : γ → σ → ρ × σ) (allowed : List (γ × ρ) → σ → γ → Prop) :
    List γ → List (γ × ρ) → σ → Prop
  | [], _, _ => True
  | c :: cs, h, s =>
    allowed h s c ∧ AllAllowed serve allowed cs (h ++ [(c, (serve c s).1)]) (serve c s).2

instance decidableAllAllowed (serve : γ → σ → ρ × σ) (allowed : List (γ × ρ) → σ → γ → Prop)
    [∀ h s c, Decidable (allowed h s c)] :
    ∀ cs h s, Decidable (AllAllowed serve allowed cs h s)
  | [], _, _ => isTrue trivial
  | _ :: cs, _, _ =>
    haveI := decidableAllAllowed serve allowed cs
    instDecidableAnd

/-- A list of calls, each allowed where it is made, is a run. -/
theorem Serial.serveAll (hr : Serial serve allowed s₀ h s) {cs : List γ}
    (ha : AllAllowed serve allowed cs h s) :
    Serial serve allowed s₀ (serveAll serve cs h s).1 (serveAll serve cs h s).2 := by
  induction cs generalizing h s with
  | nil => exact hr
  | cons c cs ih => exact ih (hr.snoc c ha.1) ha.2

end

end TicketIST.Lib
