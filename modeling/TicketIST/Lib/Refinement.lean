import TicketIST.Lib.Serial

/-!
# Specifications of a component

A specification `Serves` says what a component may answer to a call, and in which state it may be then.
It is refined by an implementation if every serial run of the implementation is a run of the
specification, with the same calls and the same answers.  The rule for it is the forward simulation: a
relation between the states of both that every call keeps.
-/

namespace TicketIST.Lib

section

variable {γ ρ σ α : Type}

/-- The runs of a specification from `a₀`: the calls with their answers, oldest first, and the state
reached. -/
inductive Specified (Serves : α → γ → ρ → α → Prop) (a₀ : α) : List (γ × ρ) → α → Prop
  | nil : Specified Serves a₀ [] a₀
  | snoc {h a c r a'} : Specified Serves a₀ h a → Serves a c r a' →
      Specified Serves a₀ (h ++ [(c, r)]) a'

variable {Serves : α → γ → ρ → α → Prop} {a₀ a : α} {h : List (γ × ρ)}

variable {serve : γ → σ → ρ × σ} {allowed : List (γ × ρ) → σ → γ → Prop} {s₀ s : σ}

/-- **Forward simulation.**  If every allowed call can be answered the same way from every related state
of the specification, and the states are related again, then every run is specified. -/
theorem Serial.refines (hr : Serial serve allowed s₀ h s) {R : List (γ × ρ) → σ → α → Prop}
    (h₀ : R [] s₀ a₀)
    (hR : ∀ h s a c, R h s a → allowed h s c →
      ∃ a', Serves a c (serve c s).1 a' ∧ R (h ++ [(c, (serve c s).1)]) (serve c s).2 a') :
    ∃ a, Specified Serves a₀ h a ∧ R h s a := by
  induction hr with
  | nil => exact ⟨a₀, .nil, h₀⟩
  | snoc c _ hc ih =>
    obtain ⟨a, ha, hRa⟩ := ih
    obtain ⟨a', hs, hRa'⟩ := hR _ _ a c hRa hc
    exact ⟨a', ha.snoc hs, hRa'⟩

end

end TicketIST.Lib
