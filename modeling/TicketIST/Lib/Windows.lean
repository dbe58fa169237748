import TicketIST.Lib.Threads

/-!
# Threads that look before they act

A thread looks at the shared state and, if it likes what it sees, acts on it by a later operation; in
between it is in a window, in which the state may change.  How far the result can be off is bounded by
how many threads are in their windows together, the width of the race:

* if something is taken by whoever found it available, it is taken at most `k` times for each time that
  it became available (`Window.acts_le`);
* if a level is raised by whoever found it below a limit, it stays below the limit plus `k`
  (`Ascent.level_le`).
-/

namespace TicketIST.Lib

variable {ι : Type} [DecidableEq ι] [Fintype ι] {S : Sig} {ε α σ : Type}

/-- A thread enters its window only while fewer than `k` are in theirs. -/
def Narrow (M : Machine S σ) (W : ι → Prog S ε α → Bool) (k : ℕ) (_ : List (Firing ι S))
    (c : Config ι S ε α σ) (i : ι) : Prop :=
  match c.pool i with
  | .call op kont => W i (.call op kont) = false → W i (kont (M op c.st).1) = true → c.count W < k
  | _ => True

instance (M : Machine S σ) (W : ι → Prog S ε α → Bool) (k : ℕ) (tr : List (Firing ι S))
    (c : Config ι S ε α σ) (i : ι) : Decidable (Narrow M W k tr c i) := by
  unfold Narrow
  split <;> infer_instance

variable {M : Machine S σ} {W : ι → Prog S ε α → Bool} {k : ℕ} {tr : List (Firing ι S)}
  {c c₀ : Config ι S ε α σ} {i : ι} {op : S.Op} {kont : S.Ret op → Prog S ε α}

theorem Narrow.count_fire_le (h : Narrow M W k tr c i) (hp : c.pool i = .call op kont)
    (hk : c.count W ≤ k) : (c.fire M i op kont).count W ≤ k := by
  have hcount := count_fire (M := M) W c i op kont
  unfold Narrow at h
  rw [hp] at h hcount
  cases hbefore : W i (.call op kont) with
  | true =>
    rw [hbefore, if_pos rfl] at hcount
    split at hcount <;> omega
  | false =>
    rw [hbefore, if_neg Bool.false_ne_true] at hcount
    split at hcount
    · next hafter =>
      have := h hbefore hafter
      omega
    · omega

/-! ### Taking what is available -/

/-- Threads that are at `A` enter the window `W` where `avail` says so, and act at its end. -/
structure Window (M : Machine S σ) (A : ι → Prog S ε α → Prop) (W : ι → Prog S ε α → Bool)
    (avail : σ → Bool) (acts refills : Firing ι S → Bool) : Prop where
  keep : ∀ i op kont s, A i (.call op kont) → A i (kont (M op s).1)
  enter : ∀ i op kont s, A i (.call op kont) → W i (.call op kont) = false →
    W i (kont (M op s).1) = true → avail s = true
  act : ∀ i op kont s, A i (.call op kont) → acts ⟨i, op, (M op s).1⟩ = true →
    W i (.call op kont) = true ∧ W i (kont (M op s).1) = false ∧ avail (M op s).2 = false
  refill : ∀ i op kont s, A i (.call op kont) → avail s = false → avail (M op s).2 = true →
    refills ⟨i, op, (M op s).1⟩ = true

namespace Window

variable {A : ι → Prog S ε α → Prop} {avail : σ → Bool} {acts refills : Firing ι S → Bool}

/-- Of the times that it became available, `k` actions can have come from each before the last; while it
is available the last counts for none, and then for those that are done or to come. -/
structure Bounded (W : ι → Prog S ε α → Bool) (avail : σ → Bool) (acts : Firing ι S → Bool) (k n : ℕ)
    (tr : List (Firing ι S)) (c : Config ι S ε α σ) : Prop where
  width : c.count W ≤ k
  done : tr.countP acts + k * (avail c.st).toNat ≤ k * n
  rest : avail c.st = false → tr.countP acts + c.count W ≤ k * n

section Step

variable {n r : ℕ} {e : Firing ι S}

/-- An action: its thread was in the window, and nothing is left. -/
theorem Bounded.acted (h : Bounded W avail acts k n tr c) (he : acts e = true)
    (hcount : (c.fire M i op kont).count W + 1 = c.count W) (hgone : avail (M op c.st).2 = false) :
    Bounded W avail acts k (n + r) (tr ++ [e]) (c.fire M i op kont) := by
  have hwidth := h.width
  have htotal : tr.countP acts + c.count W ≤ k * n := by
    cases hav : avail c.st with
    | true =>
      have hdone := h.done
      rw [hav, Bool.toNat_true, Nat.mul_one] at hdone
      omega
    | false => exact h.rest hav
  have hmono : k * n ≤ k * (n + r) := Nat.mul_le_mul_left k (Nat.le_add_right n r)
  have hacts : (tr ++ [e]).countP acts = tr.countP acts + 1 := by
    rw [List.countP_append, List.countP_singleton, if_pos he]
  refine ⟨by omega, ?_, fun _ => by omega⟩
  show (tr ++ [e]).countP acts + k * (avail (M op c.st).2).toNat ≤ _
  rw [hgone, Bool.toNat_false, Nat.mul_zero]
  omega

/-- No action: it became available by a refill, and without it nobody entered. -/
theorem Bounded.idle (h : Bounded W avail acts k n tr c) (he : acts e = false)
    (hwidth : (c.fire M i op kont).count W ≤ k)
    (hrefill : avail c.st = false → avail (M op c.st).2 = true → r = 1)
    (henter : avail c.st = false → (c.fire M i op kont).count W ≤ c.count W) :
    Bounded W avail acts k (n + r) (tr ++ [e]) (c.fire M i op kont) := by
  have hdone := h.done
  have hmul : k * (n + r) = k * n + k * r := Nat.mul_add ..
  have hacts : (tr ++ [e]).countP acts = tr.countP acts := by
    rw [List.countP_append, List.countP_singleton, he, if_neg Bool.false_ne_true, Nat.add_zero]
  refine ⟨hwidth, ?_, fun hgone => ?_⟩
  · show (tr ++ [e]).countP acts + k * (avail (M op c.st).2).toNat ≤ _
    rw [hacts, hmul]
    cases hav : avail c.st with
    | true =>
      rw [hav] at hdone
      have hle : k * (avail (M op c.st).2).toNat ≤ k * Bool.toNat true :=
        Nat.mul_le_mul_left k (Bool.toNat_le _)
      omega
    | false =>
      rw [hav, Bool.toNat_false, Nat.mul_zero] at hdone
      cases hav' : avail (M op c.st).2 with
      | true =>
        rw [hrefill hav hav', Bool.toNat_true]
        omega
      | false =>
        rw [Bool.toNat_false, Nat.mul_zero]
        omega
  · rw [hacts, hmul]
    cases hav : avail c.st with
    | true =>
      rw [hav, Bool.toNat_true, Nat.mul_one] at hdone
      omega
    | false =>
      have hrest := h.rest hav
      have hle := henter hav
      omega

/-- The step lemma. -/
theorem Bounded.step (hw : Window M A W avail acts refills) (h : Bounded W avail acts k n tr c)
    (hp : c.pool i = .call op kont) (hA : A i (.call op kont)) (hn : Narrow M W k tr c i)
    (he : e = ⟨i, op, (M op c.st).1⟩) (hr : r = if refills e then 1 else 0) :
    Bounded W avail acts k (n + r) (tr ++ [e]) (c.fire M i op kont) := by
  have hcount := count_fire (M := M) W c i op kont
  rw [hp] at hcount
  cases hact : acts e with
  | true =>
    obtain ⟨hin, hout, hgone⟩ := hw.act i op kont c.st hA (he ▸ hact)
    rw [hin, hout, if_pos rfl, if_neg Bool.false_ne_true] at hcount
    exact h.acted hact hcount hgone
  | false =>
    refine h.idle hact (hn.count_fire_le hp h.width) (fun hav hav' => ?_) fun hav => ?_
    · rw [hr, he, if_pos (hw.refill i op kont c.st hA hav hav')]
    · have hno : W i (.call op kont) = false → W i (kont (M op c.st).1) = false := by
        intro hbefore
        by_contra hafter
        rw [Bool.not_eq_false] at hafter
        rw [hw.enter i op kont c.st hA hbefore hafter] at hav
        cases hav
      cases hbefore : W i (.call op kont) with
      | true =>
        rw [hbefore, if_pos rfl] at hcount
        split at hcount <;> omega
      | false =>
        rw [hbefore, hno hbefore] at hcount
        omega

end Step

/-- **What is available is taken at most `k` times** for each time that it became available, where at most
`k` threads are in their windows together. -/
theorem acts_le (hw : Window M A W avail acts refills) (hA : ∀ i, A i (c₀.pool i))
    (hW : ∀ i, W i (c₀.pool i) = false) (run : Runs M (Narrow M W k) c₀ tr c) :
    tr.countP acts ≤ k * ((avail c₀.st).toNat + tr.countP refills) := by
  have hI : Bounded W avail acts k ((avail c₀.st).toNat + tr.countP refills) tr c := by
    refine run.inv_threads hA (fun i op kont s h => hw.keep i op kont s h)
      (I := fun tr c => Bounded W avail acts k ((avail c₀.st).toNat + tr.countP refills) tr c) ?_ ?_
    · have hzero : c₀.count W = 0 := count_eq_zero hW
      exact ⟨by omega, by simp, fun _ => by simp [hzero]⟩
    · intro tr c i op kont hI hp hA hn
      rw [List.countP_append, List.countP_singleton, ← Nat.add_assoc]
      exact hI.step hw hp hA hn rfl rfl
  exact (Nat.le_add_right _ _).trans hI.done

end Window

/-! ### Raising a level -/

/-- Threads that are at `A` enter the window `W` where the level is below the limit, and raise the level
only by leaving it. -/
structure Ascent (M : Machine S σ) (A : ι → Prog S ε α → Prop) (W : ι → Prog S ε α → Bool)
    (level : σ → ℕ) (limit : ℕ) : Prop where
  keep : ∀ i op kont s, A i (.call op kont) → A i (kont (M op s).1)
  enter : ∀ i op kont s, A i (.call op kont) → W i (.call op kont) = false →
    W i (kont (M op s).1) = true → level s < limit ∧ level (M op s).2 ≤ level s
  rise : ∀ i op kont s, A i (.call op kont) → W i (.call op kont) = true ∨ W i (kont (M op s).1) = false →
    level (M op s).2 + (if W i (kont (M op s).1) then 1 else 0) ≤
      level s + if W i (.call op kont) then 1 else 0

/-- **The level stays below the limit plus `k`**, with the threads in their windows counted in, where at
most `k` threads are in their windows together. -/
theorem Ascent.level_le {A : ι → Prog S ε α → Prop} {level : σ → ℕ} {limit : ℕ}
    (ha : Ascent M A W level limit) (hA : ∀ i, A i (c₀.pool i)) (hW : ∀ i, W i (c₀.pool i) = false)
    (h₀ : level c₀.st < limit + k) (run : Runs M (Narrow M W k) c₀ tr c) :
    level c.st + c.count W < limit + k := by
  refine run.inv_threads hA (fun i op kont s h => ha.keep i op kont s h)
    (I := fun _ c => level c.st + c.count W < limit + k) ?_ ?_
  · have hzero : c₀.count W = 0 := count_eq_zero hW
    omega
  · intro tr c i op kont hI hp hA hn
    have hcount := count_fire (M := M) W c i op kont
    rw [hp] at hcount
    show level (M op c.st).2 + (c.fire M i op kont).count W < limit + k
    by_cases hin : W i (.call op kont) = false ∧ W i (kont (M op c.st).1) = true
    · obtain ⟨hbefore, hafter⟩ := hin
      obtain ⟨hlt, hle⟩ := ha.enter i op kont c.st hA hbefore hafter
      have hk : c.count W < k := by
        unfold Narrow at hn
        rw [hp] at hn
        exact hn hbefore hafter
      rw [hbefore, hafter, if_pos rfl, if_neg Bool.false_ne_true] at hcount
      omega
    · have hrise := ha.rise i op kont c.st hA (by simpa [or_iff_not_and_not] using hin)
      omega

/-! ### All threads together -/

/-- All interleavings are as narrow as there are threads. -/
theorem Runs.narrow (run : Runs M Anyhow c₀ tr c) : Runs M (Narrow M W (Fintype.card ι)) c₀ tr c := by
  induction run with
  | nil => exact .nil
  | @snoc tr c i op kont _ hp _ ih =>
    refine ih.snoc hp ?_
    unfold Narrow
    rw [hp]
    intro hbefore _
    refine Finset.card_lt_univ_of_notMem (x := i) fun hi => ?_
    have hin := (Finset.mem_filter.1 hi).2
    rw [hp, hbefore] at hin
    cases hin

omit [Fintype ι] in
/-- The threads of a set take one step each, where every state satisfies `P`. -/
theorem Runs.exists_step_set (run : Runs M Anyhow c₀ tr c) {P : σ → Prop} (hP : P c.st) (op : ι → S.Op)
    (kont : (i : ι) → S.Ret (op i) → Prog S ε α) (r : (i : ι) → S.Ret (op i))
    (hp : ∀ i, c.pool i = .call (op i) (kont i))
    (hstep : ∀ i s, P s → (M (op i) s).1 = r i ∧ P (M (op i) s).2) (J : Finset ι) :
    ∃ tr' c', Runs M Anyhow c₀ (tr ++ tr') c' ∧ P c'.st ∧ (∀ i ∈ J, c'.pool i = kont i (r i)) ∧
      ∀ i ∉ J, c'.pool i = c.pool i := by
  induction J using Finset.induction_on with
  | empty =>
    exact ⟨[], c, by rwa [List.append_nil], hP, fun i hi => absurd hi (Finset.notMem_empty i),
      fun _ _ => rfl⟩
  | @insert j J hj ih =>
    obtain ⟨tr₁, c₁, run₁, hP₁, hdone, hrest⟩ := ih
    have hpj : c₁.pool j = .call (op j) (kont j) := (hrest j hj).trans (hp j)
    obtain ⟨hans, hPj⟩ := hstep j c₁.st hP₁
    refine ⟨tr₁ ++ [⟨j, op j, (M (op j) c₁.st).1⟩], c₁.fire M j (op j) (kont j), ?_, hPj, ?_, ?_⟩
    · rw [← List.append_assoc]
      exact run₁.snoc hpj trivial
    · intro i hi
      by_cases hij : i = j
      · subst hij
        rw [fire_pool_self, hans]
      · rw [fire_pool_of_ne hij]
        exact hdone i ((Finset.mem_insert.1 hi).resolve_left hij)
    · intro i hi
      rw [Finset.mem_insert, not_or] at hi
      rw [fire_pool_of_ne hi.1]
      exact hrest i hi.2

/-- All threads take one step each. -/
theorem Runs.exists_step_all (run : Runs M Anyhow c₀ tr c) {P : σ → Prop} (hP : P c.st) (op : ι → S.Op)
    (kont : (i : ι) → S.Ret (op i) → Prog S ε α) (r : (i : ι) → S.Ret (op i))
    (hp : ∀ i, c.pool i = .call (op i) (kont i))
    (hstep : ∀ i s, P s → (M (op i) s).1 = r i ∧ P (M (op i) s).2) :
    ∃ tr' c', Runs M Anyhow c₀ (tr ++ tr') c' ∧ P c'.st ∧ ∀ i, c'.pool i = kont i (r i) := by
  obtain ⟨tr', c', run', hP', hdone, -⟩ := run.exists_step_set hP op kont r hp hstep Finset.univ
  exact ⟨tr', c', run', hP', fun i => hdone i (Finset.mem_univ i)⟩

end TicketIST.Lib
