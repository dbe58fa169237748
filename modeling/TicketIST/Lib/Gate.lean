import Mathlib

/-!
# Gates that remember whom they let in

A gate sees attempts one after another, each with a key and a time.  It lets one in if its key may enter
and if it does not come too soon after the last one of its key that was let in.  The times of these are
all that it remembers; an attempt that is turned away leaves no trace.

Two things follow without any assumption on the times: attempts of other keys do not matter
(`decisions_filter_key`), and neither do attempts that were turned away (`decisions_filter_admitted`).
If the times are in order, and what comes too soon after an earlier attempt comes too soon after a later
one, then the last attempt let in stands for all of them (`admits_iff`).
-/

namespace TicketIST.Lib

/-- Which keys may enter, and whether the second of two times is too soon after the first. -/
structure Gate (κ τ : Type) where
  opens : κ → Bool
  tooSoon : τ → τ → Bool

namespace Gate

variable {κ τ : Type} (g : Gate κ τ)

def admits (last : κ → Option τ) (a : κ × τ) : Bool :=
  g.opens a.1 && !(last a.1).any (g.tooSoon · a.2)

theorem admits_congr {g : Gate κ τ} {last last' : κ → Option τ} {a : κ × τ}
    (h : last a.1 = last' a.1) : g.admits last a = g.admits last' a := by
  rw [admits, admits, h]

variable [DecidableEq κ]

/-- What the gate remembers after an attempt. -/
def after (last : κ → Option τ) (a : κ × τ) : κ → Option τ :=
  if g.admits last a then Function.update last a.1 (some a.2) else last

/-- The attempts, each with the answer that it got. -/
def decisions (last : κ → Option τ) : List (κ × τ) → List ((κ × τ) × Bool)
  | [] => []
  | a :: as => (a, g.admits last a) :: decisions (g.after last a) as

/-- The times at which the key was let in. -/
def admissions (k : κ) (h : List ((κ × τ) × Bool)) : List τ :=
  (h.filter fun e => e.2 && decide (e.1.1 = k)).map fun e => e.1.2

variable {g} {last last' : κ → Option τ} {a : κ × τ} {as bs : List (κ × τ)} {k : κ}

theorem after_of_false (h : g.admits last a = false) : g.after last a = last := by
  rw [after, h]
  rfl

theorem after_of_ne (h : k ≠ a.1) : g.after last a k = last k := by
  unfold after
  split
  · exact Function.update_of_ne h ..
  · rfl

theorem after_congr (h : last k = last' k) : g.after last a k = g.after last' a k := by
  by_cases hk : k = a.1
  · subst hk
    unfold after
    rw [admits_congr h]
    split
    · rw [Function.update_self, Function.update_self]
    · exact h
  · rw [after_of_ne hk, after_of_ne hk, h]

theorem decisions_append : g.decisions last (as ++ bs) =
    g.decisions last as ++ g.decisions (as.foldl g.after last) bs := by
  induction as generalizing last with
  | nil => rfl
  | cons a as ih => exact congrArg _ ih

theorem map_decisions : (g.decisions last as).map Prod.fst = as := by
  induction as generalizing last with
  | nil => rfl
  | cons a as ih => exact congrArg _ ih

/-- What comes before an answer decides it. -/
theorem of_decisions {h₁ h₂ : List ((κ × τ) × Bool)} {d : Bool}
    (h : g.decisions last as = h₁ ++ (a, d) :: h₂) :
    as = h₁.map Prod.fst ++ a :: h₂.map Prod.fst ∧ g.decisions last (h₁.map Prod.fst) = h₁ ∧
      g.admits ((h₁.map Prod.fst).foldl g.after last) a = d := by
  have has : as = h₁.map Prod.fst ++ a :: h₂.map Prod.fst := by
    have hmap : (g.decisions last as).map Prod.fst = as := map_decisions
    rw [h, List.map_append, List.map_cons] at hmap
    exact hmap.symm
  have hlen : (g.decisions last (h₁.map Prod.fst)).length = h₁.length := by
    rw [← List.length_map (f := Prod.fst), map_decisions, List.length_map]
  rw [has, decisions_append, decisions] at h
  obtain ⟨hbefore, hrest⟩ := List.append_inj h hlen
  exact ⟨has, hbefore, congrArg Prod.snd (List.cons.inj hrest).1⟩

/-! ### What does not matter -/

/-- **Attempts of other keys do not matter.** -/
theorem decisions_filter_key (h : last k = last' k) :
    (g.decisions last as).filter (fun e => e.1.1 = k) =
      g.decisions last' (as.filter fun a => a.1 = k) := by
  induction as generalizing last last' with
  | nil => rfl
  | cons a as ih =>
    rw [decisions]
    by_cases hk : a.1 = k
    · rw [List.filter_cons_of_pos (by simpa using hk), List.filter_cons_of_pos (by simpa using hk),
        decisions, ih (after_congr h), admits_congr (hk ▸ h)]
    · rw [List.filter_cons_of_neg (by simpa using hk), List.filter_cons_of_neg (by simpa using hk)]
      exact ih ((after_of_ne (Ne.symm hk)).trans h)

/-- **Attempts that were turned away do not matter**: the others get the same answers without them. -/
theorem decisions_filter_admitted {p : (κ × τ) × Bool → Bool} (hp : ∀ a, p (a, true) = true) :
    g.decisions last (((g.decisions last as).filter p).map Prod.fst) =
      (g.decisions last as).filter p := by
  induction as generalizing last with
  | nil => rfl
  | cons a as ih =>
    rw [decisions]
    by_cases hpa : p (a, g.admits last a) = true
    · rw [List.filter_cons_of_pos hpa, List.map_cons, decisions, ih]
    · have hno : g.admits last a = false := by
        cases had : g.admits last a with
        | false => rfl
        | true => exact absurd (had ▸ hp a) hpa
      rw [List.filter_cons_of_neg hpa, after_of_false hno, ih]

/-! ### What the gate remembers -/

/-- It remembers the last time that each key was let in. -/
theorem foldl_after (as : List (κ × τ)) (k : κ) : as.foldl g.after (fun _ => none) k =
    (admissions k (g.decisions (fun _ => none) as)).getLast? := by
  induction as using List.reverseRecOn with
  | nil => rfl
  | append_singleton as a ih =>
    rw [List.foldl_append, List.foldl_cons, List.foldl_nil, decisions_append]
    simp only [admissions, List.filter_append, List.map_append, decisions] at ih ⊢
    cases had : g.admits (as.foldl g.after fun _ => none) a with
    | false =>
      rw [after_of_false had, ih]
      simp
    | true =>
      by_cases hk : a.1 = k
      · subst hk
        simp [after, had]
      · rw [after_of_ne (Ne.symm hk), ih]
        simp [hk]

theorem mem_admissions {h : List ((κ × τ) × Bool)} {t : τ} :
    t ∈ admissions k h ↔ ((k, t), true) ∈ h := by
  simp only [admissions, List.mem_map, List.mem_filter, Bool.and_eq_true, decide_eq_true_eq]
  constructor
  · rintro ⟨⟨⟨k', t'⟩, b⟩, ⟨hmem, rfl, rfl⟩, rfl⟩
    exact hmem
  · exact fun hmem => ⟨_, ⟨hmem, rfl, rfl⟩, rfl⟩

variable [Preorder τ]

/-- In a list in order, the last element stands for all of them. -/
theorem forall_getLast? {p : τ → Prop} (hp : ∀ t t', t ≤ t' → p t' → p t) {l : List τ}
    (hl : l.Pairwise (· ≤ ·)) : (∀ t ∈ l.getLast?, p t) ↔ ∀ t ∈ l, p t := by
  rcases List.eq_nil_or_concat l with rfl | ⟨l, t, rfl⟩
  · simp
  · rw [List.concat_eq_append, List.getLast?_concat, List.pairwise_append] at *
    constructor
    · intro ht t' ht'
      rcases List.mem_append.1 ht' with h | h
      · exact hp t' t (hl.2.2 t' h t List.mem_cons_self) (ht t rfl)
      · rw [List.mem_singleton.1 h]
        exact ht t rfl
    · intro h t' ht'
      cases ht'
      exact h t (List.mem_append_right _ List.mem_cons_self)

/-- **An attempt is admitted exactly if its key may enter, and it does not come too soon after any
attempt of its key that was admitted.** -/
theorem admits_iff (hsoon : ∀ t t' now, t ≤ t' → g.tooSoon t now = true → g.tooSoon t' now = true)
    (hmono : (as.map Prod.snd).Pairwise (· ≤ ·)) (a : κ × τ) :
    g.admits (as.foldl g.after fun _ => none) a = true ↔ g.opens a.1 = true ∧
      ∀ t, ((a.1, t), true) ∈ g.decisions (fun _ => none) as → g.tooSoon t a.2 = false := by
  have hsub : (admissions a.1 (g.decisions (fun _ => none) as)).Pairwise (· ≤ ·) := by
    refine hmono.sublist ?_
    have hmap : (g.decisions (fun _ => none) as).map Prod.fst = as := map_decisions
    rw [← congrArg (List.map Prod.snd) hmap, List.map_map]
    exact List.filter_sublist.map _
  have hall := forall_getLast? (p := fun t => g.tooSoon t a.2 = false) ?_ hsub
  · rw [admits, foldl_after, Bool.and_eq_true, and_congr_right_iff]
    intro _
    simp only [mem_admissions] at hall
    rw [← hall, Bool.not_eq_true', Option.any_eq_false]
    simp
  · intro t t' hle ht'
    refine Bool.eq_false_iff.2 fun ht => ?_
    rw [hsoon t t' a.2 hle ht] at ht'
    cases ht'

/-- Attempts of one key that were admitted are pairwise far enough apart. -/
theorem decisions_apart (hsoon : ∀ t t' now, t ≤ t' → g.tooSoon t now = true → g.tooSoon t' now = true)
    (hmono : (as.map Prod.snd).Pairwise (· ≤ ·)) :
    (g.decisions (fun _ => none) as).Pairwise fun e e' => e.2 = true → e'.2 = true →
      e.1.1 = e'.1.1 → e.1.2 ≤ e'.1.2 ∧ g.tooSoon e.1.2 e'.1.2 = false := by
  induction as using List.reverseRecOn with
  | nil => exact .nil
  | append_singleton as a ih =>
    rw [List.map_append, List.pairwise_append] at hmono
    rw [decisions_append, List.pairwise_append]
    refine ⟨ih hmono.1, List.pairwise_singleton .., ?_⟩
    rintro ⟨⟨k, t⟩, d⟩ he e' he' rfl hd' rfl
    obtain rfl : e' = (a, g.admits (as.foldl g.after fun _ => none) a) := List.mem_singleton.1 he'
    refine ⟨hmono.2.2 t ?_ a.2 List.mem_cons_self, ((admits_iff hsoon hmono.1 a).1 hd').2 t he⟩
    have hmem := List.mem_map_of_mem (f := Prod.fst) he
    rw [map_decisions] at hmem
    exact List.mem_map_of_mem hmem

end Gate

end TicketIST.Lib
