import TicketIST.Lib.Prog

/-!
# Threads that share a component

A configuration holds the rest of every thread's program and the shared state.  One step lets one
thread perform its next operation, atomically; `Runs` are the finite sequences of such steps, each
of which meets a side condition `allowed` on what happened before it.  With the condition that always
holds these are all interleavings.

Two views of a run are used together: the threads' own (`Runs.path`: what one thread did is a path
through its program) and the component's (the events in the order in which they took effect).
-/

namespace TicketIST.Lib

/-- The rest of every thread's program, and the shared state. -/
structure Config (ι : Type) (S : Sig) (ε α σ : Type) where
  pool : ι → Prog S ε α
  st : σ

/-- One atomic step: who performed what, and what was answered. -/
structure Firing (ι : Type) (S : Sig) where
  tid : ι
  op : S.Op
  ret : S.Ret op

/-! ### Paths through a program -/

section Path

variable {S : Sig} {ε α : Type}

/-- `q` is what is left of `p` once the steps of the list are done. -/
def Path : Prog S ε α → List (Step S) → Prog S ε α → Prop
  | p, [], q => p = q
  | p, st :: tr, q => ∃ k, p = .call st.1 k ∧ Path (k st.2) tr q

/-- A result that requires an operation is reached by performing it. -/
theorem Path.requires {φ : S.Op → Prop} {ψ : α → Prop} {p : Prog S ε α} {tr : List (Step S)} {a : α}
    (h : Path p tr (.ret a)) (hp : p.Requires φ ψ) (ha : ψ a) : ∃ st ∈ tr, φ st.1 := by
  induction tr generalizing p with
  | nil => obtain rfl : p = .ret a := h; exact absurd ha hp
  | cons st tr ih =>
    obtain ⟨k, rfl, hk⟩ := h
    rcases hp with hop | hp
    · exact ⟨st, List.mem_cons_self, hop⟩
    · obtain ⟨st', hst', hφ⟩ := ih hk (hp _)
      exact ⟨st', List.mem_cons_of_mem _ hst', hφ⟩

theorem Path.snoc {p : Prog S ε α} {tr : List (Step S)} {op : S.Op} {k : S.Ret op → Prog S ε α}
    (h : Path p tr (.call op k)) (r : S.Ret op) : Path p (tr ++ [⟨op, r⟩]) (k r) := by
  induction tr generalizing p with
  | nil => cases h; exact ⟨k, rfl, rfl⟩
  | cons st tr ih =>
    obtain ⟨k', rfl, h'⟩ := h
    exact ⟨k', rfl, ih h'⟩

theorem Path.heeds {μ : Type} {next : μ → Step S → μ} {ok : μ → S.Op → Prop} {p : Prog S ε α}
    {tr : List (Step S)} {op : S.Op} {k : S.Ret op → Prog S ε α} {m : μ}
    (h : Path p tr (.call op k)) (hp : p.Heeds next ok m) : ok (tr.foldl next m) op := by
  induction tr generalizing p m with
  | nil =>
    obtain rfl : p = .call op k := h
    exact hp.1
  | cons st tr ih =>
    obtain ⟨k', rfl, hk'⟩ := h
    exact ih hk' (hp.2 _)

end Path

/-! ### One event before another -/

section Before

variable {ι : Type} {S : Sig}

/-- An event of the first kind, and later one of the second. -/
def Before (P Q : Firing ι S → Prop) (tr : List (Firing ι S)) : Prop :=
  ∃ tr₁ tr₂, tr = tr₁ ++ tr₂ ∧ (∃ e ∈ tr₁, P e) ∧ ∃ e ∈ tr₂, Q e

theorem not_before_nil {P Q : Firing ι S → Prop} : ¬Before P Q [] := by
  rintro ⟨tr₁, tr₂, h, ⟨e, he, -⟩, -⟩
  rw [(List.append_eq_nil_iff.1 h.symm).1] at he
  cases he

theorem before_snoc {P Q : Firing ι S → Prop} {tr : List (Firing ι S)} {e : Firing ι S} :
    Before P Q (tr ++ [e]) ↔ Before P Q tr ∨ (∃ e' ∈ tr, P e') ∧ Q e := by
  constructor
  · rintro ⟨tr₁, tr₂, h, hP, e', he', hQ⟩
    rcases List.eq_nil_or_concat' tr₂ with rfl | ⟨tr₂, e₂, rfl⟩
    · cases he'
    · rw [← List.append_assoc] at h
      obtain ⟨rfl, he⟩ := List.append_inj' h rfl
      obtain rfl := (List.cons.inj he).1
      rcases List.mem_append.1 he' with he' | he'
      · exact .inl ⟨tr₁, tr₂, rfl, hP, e', he', hQ⟩
      · cases List.mem_singleton.1 he'
        obtain ⟨e', he', hP⟩ := hP
        exact .inr ⟨⟨e', List.mem_append_left _ he', hP⟩, hQ⟩
  · rintro (⟨tr₁, tr₂, rfl, hP, e', he', hQ⟩ | ⟨hP, hQ⟩)
    · exact ⟨tr₁, tr₂ ++ [e], List.append_assoc .., hP, e', List.mem_append_left _ he', hQ⟩
    · exact ⟨tr, [e], rfl, hP, e, List.mem_singleton_self e, hQ⟩

end Before

/-! ### Runs -/

section Runs

variable {ι : Type} [DecidableEq ι] {S : Sig} {ε α σ : Type}

/-- The configuration after thread `i`, which stands before `call op k`, performs `op`. -/
def Config.fire (M : Machine S σ) (c : Config ι S ε α σ) (i : ι) (op : S.Op)
    (k : S.Ret op → Prog S ε α) : Config ι S ε α σ :=
  ⟨Function.update c.pool i (k (M op c.st).1), (M op c.st).2⟩

/-- The runs from `c₀` whose every step is `allowed` where it is taken. -/
inductive Runs (M : Machine S σ) (allowed : List (Firing ι S) → Config ι S ε α σ → ι → Prop)
    (c₀ : Config ι S ε α σ) : List (Firing ι S) → Config ι S ε α σ → Prop
  | nil : Runs M allowed c₀ [] c₀
  | snoc {tr c i op k} : Runs M allowed c₀ tr c → c.pool i = .call op k → allowed tr c i →
      Runs M allowed c₀ (tr ++ [⟨i, op, (M op c.st).1⟩]) (c.fire M i op k)

/-- No condition on the steps: every interleaving. -/
abbrev Anyhow : List (Firing ι S) → Config ι S ε α σ → ι → Prop := fun _ _ _ => True

def eventsOf (tr : List (Firing ι S)) (i : ι) : List (Step S) :=
  tr.filterMap fun e => if e.tid = i then some ⟨e.op, e.ret⟩ else none

theorem mem_eventsOf {tr : List (Firing ι S)} {i : ι} {st : Step S} :
    st ∈ eventsOf tr i ↔ ∃ e ∈ tr, e.tid = i ∧ (⟨e.op, e.ret⟩ : Step S) = st := by
  simp [eventsOf, List.mem_filterMap, Option.ite_none_right_eq_some]

section Rules

variable {M : Machine S σ} {allowed : List (Firing ι S) → Config ι S ε α σ → ι → Prop}
  {c₀ c : Config ι S ε α σ} {tr : List (Firing ι S)}

theorem fire_pool_self (i : ι) (op : S.Op) (k : S.Ret op → Prog S ε α) :
    (c.fire M i op k).pool i = k (M op c.st).1 := Function.update_self ..

theorem fire_pool_of_ne {i j : ι} (h : j ≠ i) (op : S.Op) (k : S.Ret op → Prog S ε α) :
    (c.fire M i op k).pool j = c.pool j := Function.update_of_ne h ..

/-- A thread that is about to do something else than the step is not the one that steps. -/
theorem fire_pool_of_next {i j : ι} {op o : S.Op} {k : S.Ret op → Prog S ε α}
    (hp : c.pool i = .call op k) (hj : (c.pool j).next = some o) (ho : o ≠ op) :
    (c.fire M i op k).pool j = c.pool j := by
  refine fire_pool_of_ne ?_ op k
  rintro rfl
  rw [hp, Prog.next_call] at hj
  exact ho (Option.some.inj hj).symm

/-- A thread that is about to do `o` after a step has just stepped, or was about to do it before. -/
theorem fire_next_cases {i j : ι} {op o : S.Op} {k : S.Ret op → Prog S ε α}
    (hj : ((c.fire M i op k).pool j).next = some o) :
    j = i ∧ (k (M op c.st).1).next = some o ∨
      (c.pool j).next = some o ∧ (c.fire M i op k).pool j = c.pool j := by
  by_cases hij : j = i
  · subst hij
    rw [fire_pool_self] at hj
    exact .inl ⟨rfl, hj⟩
  · rw [fire_pool_of_ne hij] at hj ⊢
    exact .inr ⟨hj, rfl⟩

/-- What a thread has done is a path from its program to what is left of it. -/
theorem Runs.path (h : Runs M allowed c₀ tr c) (i : ι) :
    Path (c₀.pool i) (eventsOf tr i) (c.pool i) := by
  induction h with
  | nil => rfl
  | @snoc tr c j op k _ hp _ ih =>
    rw [eventsOf, List.filterMap_append]
    by_cases hij : j = i
    · subst hij
      rw [fire_pool_self]
      rw [hp] at ih
      simpa [eventsOf] using ih.snoc (M op c.st).1
    · rw [fire_pool_of_ne (Ne.symm hij)]
      simpa [eventsOf, hij] using ih

/-- A thread that returned a result left an event of the kind that the result requires. -/
theorem Runs.requires (h : Runs M allowed c₀ tr c) {i : ι} {φ : S.Op → Prop} {ψ : α → Prop} {a : α}
    (hp : (c₀.pool i).Requires φ ψ) (hr : c.pool i = .ret a) (ha : ψ a) :
    ∃ e ∈ tr, e.tid = i ∧ φ e.op := by
  obtain ⟨st, hst, hφ⟩ := (hr ▸ h.path i : Path _ _ (.ret a)).requires hp ha
  obtain ⟨e, he, hi, rfl⟩ := mem_eventsOf.1 hst
  exact ⟨e, he, hi, hφ⟩

/-- A property of programs that every operation keeps holds of what is left of each thread. -/
theorem Runs.threads (h : Runs M allowed c₀ tr c) {A : ι → Prog S ε α → Prop}
    (h₀ : ∀ i, A i (c₀.pool i))
    (hA : ∀ i op k s, A i (.call op k) → A i (k (M op s).1)) : ∀ i, A i (c.pool i) := by
  induction h with
  | nil => exact h₀
  | @snoc tr c j op k _ hp _ ih =>
    intro i
    by_cases hij : i = j
    · subst hij
      rw [fire_pool_self]
      exact hA i op k c.st (hp ▸ ih i)
    · rw [fire_pool_of_ne hij]
      exact ih i

/-- The invariant rule: what every allowed step keeps holds at the end of every run. -/
theorem Runs.inv (h : Runs M allowed c₀ tr c)
    {I : List (Firing ι S) → Config ι S ε α σ → Prop} (h₀ : I [] c₀)
    (hI : ∀ tr c i op k, I tr c → c.pool i = .call op k → allowed tr c i →
      I (tr ++ [⟨i, op, (M op c.st).1⟩]) (c.fire M i op k)) : I tr c := by
  induction h with
  | nil => exact h₀
  | snoc _ hp ha ih => exact hI _ _ _ _ _ ih hp ha

/-- The invariant rule with a property of the threads' programs at hand in every step. -/
theorem Runs.inv_threads (h : Runs M allowed c₀ tr c) {A : ι → Prog S ε α → Prop}
    (hA₀ : ∀ i, A i (c₀.pool i)) (hA : ∀ i op k s, A i (.call op k) → A i (k (M op s).1))
    {I : List (Firing ι S) → Config ι S ε α σ → Prop} (h₀ : I [] c₀)
    (hI : ∀ tr c i op k, I tr c → c.pool i = .call op k → A i (.call op k) → allowed tr c i →
      I (tr ++ [⟨i, op, (M op c.st).1⟩]) (c.fire M i op k)) : I tr c := by
  induction h with
  | nil => exact h₀
  | @snoc tr c i op k hr hp ha ih => exact hI _ _ _ _ _ ih hp (hp ▸ hr.threads hA₀ hA i) ha

/-- The invariant rule where every thread keeps to the operations of its program. -/
theorem Runs.inv_of_uses (h : Runs M allowed c₀ tr c) {φ : ι → S.Op → Prop}
    (hφ : ∀ i, (c₀.pool i).Uses (φ i)) {I : List (Firing ι S) → Config ι S ε α σ → Prop}
    (h₀ : I [] c₀)
    (hI : ∀ tr c i op k, I tr c → c.pool i = .call op k → φ i op → allowed tr c i →
      I (tr ++ [⟨i, op, (M op c.st).1⟩]) (c.fire M i op k)) : I tr c :=
  h.inv_threads (A := fun i p => p.Uses (φ i)) hφ (fun _ _ _ _ hu => hu.2 _) h₀
    fun _ _ _ _ _ ih hp hu ha => hI _ _ _ _ _ ih hp hu.1 ha

/-- Every event is an allowed step, taken at the end of a run with what came before. -/
theorem Runs.exists_before (h : Runs M allowed c₀ tr c) {tr₁ tr₂ : List (Firing ι S)}
    {e : Firing ι S} (htr : tr = tr₁ ++ e :: tr₂) :
    ∃ c₁ k, Runs M allowed c₀ tr₁ c₁ ∧ c₁.pool e.tid = .call e.op k ∧ allowed tr₁ c₁ e.tid ∧
      e.ret = (M e.op c₁.st).1 := by
  induction h generalizing tr₂ with
  | nil => simp at htr
  | @snoc tr c i op k hrun hp ha ih =>
    rcases List.eq_nil_or_concat' tr₂ with rfl | ⟨tr₂, e', rfl⟩
    · obtain ⟨rfl, heq⟩ := List.append_inj' htr rfl
      cases heq
      exact ⟨c, k, hrun, hp, ha, rfl⟩
    · rw [← List.cons_append, ← List.append_assoc] at htr
      exact ih (List.append_inj' htr rfl).1

/-- What an event establishes, and every operation keeps, holds at the end of the run. -/
theorem Runs.of_mem (h : Runs M allowed c₀ tr c) {P : σ → Prop} {e : Firing ι S} (he : e ∈ tr)
    (hop : ∀ s, (M e.op s).1 = e.ret → P (M e.op s).2) (hkeep : ∀ op s, P s → P (M op s).2) :
    P c.st := by
  induction h with
  | nil => cases he
  | @snoc tr c i op k _ _ _ ih =>
    rcases List.mem_append.1 he with he | he
    · exact hkeep op c.st (ih he)
    · obtain rfl := List.mem_singleton.1 he
      exact hop c.st rfl

/-- A thread can run to its end while the others stand still. -/
theorem Runs.exists_end_one (i : ι) (p : Prog S ε α) :
    ∀ {tr : List (Firing ι S)} {c : Config ι S ε α σ}, Runs M Anyhow c₀ tr c → c.pool i = p →
      ∃ tr' c', Runs M Anyhow c₀ (tr ++ tr') c' ∧ (c'.pool i).next = none ∧
        ∀ j ≠ i, c'.pool j = c.pool j := by
  induction p with
  | ret a =>
    intro tr c h hp
    exact ⟨[], c, by rwa [List.append_nil], by rw [hp]; rfl, fun _ _ => rfl⟩
  | throw e =>
    intro tr c h hp
    exact ⟨[], c, by rwa [List.append_nil], by rw [hp]; rfl, fun _ _ => rfl⟩
  | call op k ih =>
    intro tr c h hp
    obtain ⟨tr', c', h', hend, hsame⟩ := ih _ (h.snoc hp trivial) (fire_pool_self i op k)
    refine ⟨⟨i, op, (M op c.st).1⟩ :: tr', c', ?_, hend, fun j hj => ?_⟩
    · rwa [List.append_assoc] at h'
    · rw [hsame j hj, fire_pool_of_ne hj]

/-- **Every run can be run to the end** of all its threads, if there are finitely many. -/
theorem Runs.exists_end [Finite ι] (h : Runs M Anyhow c₀ tr c) :
    ∃ tr' c', Runs M Anyhow c₀ (tr ++ tr') c' ∧ ∀ i, (c'.pool i).next = none := by
  have hset : ∀ s : Set ι, s.Finite → ∃ tr' c', Runs M Anyhow c₀ (tr ++ tr') c' ∧
      ∀ i ∈ s, (c'.pool i).next = none := by
    intro s hs
    induction s, hs using Set.Finite.induction_on with
    | empty => exact ⟨[], c, by rwa [List.append_nil], fun _ hi => absurd hi (Set.notMem_empty _)⟩
    | @insert i s _ _ ih =>
      obtain ⟨tr₁, c₁, h₁, hend₁⟩ := ih
      obtain ⟨tr₂, c₂, h₂, hend₂, hsame⟩ := h₁.exists_end_one i _ rfl
      refine ⟨tr₁ ++ tr₂, c₂, by rwa [← List.append_assoc], fun j hj => ?_⟩
      by_cases hji : j = i
      · rw [hji]
        exact hend₂
      · rw [hsame j hji]
        exact hend₁ j (hj.resolve_left hji)
  obtain ⟨tr', c', h', hend⟩ := hset Set.univ Set.finite_univ
  exact ⟨tr', c', h', fun i => hend i trivial⟩

end Rules

/-! ### Counting threads -/

section Count

variable [Fintype ι]

/-- How many threads are where `W` says. -/
def Config.count (W : ι → Prog S ε α → Bool) (c : Config ι S ε α σ) : ℕ :=
  (Finset.univ.filter fun i => W i (c.pool i) = true).card

omit [DecidableEq ι] in
theorem count_eq_zero {W : ι → Prog S ε α → Bool} {c : Config ι S ε α σ}
    (h : ∀ i, W i (c.pool i) = false) : c.count W = 0 :=
  Finset.card_eq_zero.2 (Finset.filter_eq_empty_iff.2 fun i _ => by simp [h i])

/-- A step moves one thread: the count changes by that thread. -/
theorem count_fire {M : Machine S σ} (W : ι → Prog S ε α → Bool) (c : Config ι S ε α σ) (i : ι)
    (op : S.Op) (k : S.Ret op → Prog S ε α) :
    (c.fire M i op k).count W + (if W i (c.pool i) then 1 else 0) =
      c.count W + if W i (k (M op c.st).1) then 1 else 0 := by
  have hrest : ∑ j ∈ Finset.univ.erase i, (if W j ((c.fire M i op k).pool j) then 1 else 0) =
      ∑ j ∈ Finset.univ.erase i, if W j (c.pool j) then 1 else 0 :=
    Finset.sum_congr rfl fun j hj => by rw [fire_pool_of_ne (Finset.ne_of_mem_erase hj)]
  have hsplit : ∀ f : ι → ℕ, ∑ j, f j = ∑ j ∈ Finset.univ.erase i, f j + f i := fun f =>
    (Finset.sum_erase_add _ f (Finset.mem_univ i)).symm
  rw [Config.count, Config.count, Finset.card_filter, Finset.card_filter, hsplit, hrest,
    fire_pool_self, hsplit fun j => if W j (c.pool j) then 1 else 0]
  exact Nat.add_right_comm ..

/-- Threads that each left an event of a kind are no more than the events of that kind. -/
theorem count_le_countP {W : ι → Prog S ε α → Bool} {Q : Firing ι S → Bool}
    {tr : List (Firing ι S)} {c : Config ι S ε α σ}
    (h : ∀ i, W i (c.pool i) = true → ∃ e ∈ tr, e.tid = i ∧ Q e = true) :
    c.count W ≤ tr.countP Q := by
  have hsub : (Finset.univ.filter fun i => W i (c.pool i) = true) ⊆
      ((tr.filter Q).map Firing.tid).toFinset := by
    intro i hi
    obtain ⟨e, he, rfl, hq⟩ := h i (Finset.mem_filter.1 hi).2
    exact List.mem_toFinset.2 (List.mem_map.2 ⟨e, List.mem_filter.2 ⟨he, hq⟩, rfl⟩)
  calc c.count W
      ≤ ((tr.filter Q).map Firing.tid).toFinset.card := Finset.card_le_card hsub
    _ ≤ ((tr.filter Q).map Firing.tid).length := List.toFinset_card_le _
    _ = tr.countP Q := by rw [List.length_map, List.countP_eq_length_filter]

end Count

/-! ### Replaying a schedule -/

/-- The run of a schedule: the listed threads take one step each, in that order; a thread that has
ended is passed over. -/
def replay (M : Machine S σ) : List ι → List (Firing ι S) → Config ι S ε α σ →
    List (Firing ι S) × Config ι S ε α σ
  | [], tr, c => (tr, c)
  | i :: is, tr, c =>
    match c.pool i with
    | .call op k => replay M is (tr ++ [⟨i, op, (M op c.st).1⟩]) (c.fire M i op k)
    | _ => replay M is tr c

/-- Every step of the schedule is allowed where it is taken. -/
def Admits (M : Machine S σ) (allowed : List (Firing ι S) → Config ι S ε α σ → ι → Prop) :
    List ι → List (Firing ι S) → Config ι S ε α σ → Prop
  | [], _, _ => True
  | i :: is, tr, c =>
    match c.pool i with
    | .call op k => allowed tr c i ∧
        Admits M allowed is (tr ++ [⟨i, op, (M op c.st).1⟩]) (c.fire M i op k)
    | _ => Admits M allowed is tr c

instance decidableAdmits (M : Machine S σ)
    (allowed : List (Firing ι S) → Config ι S ε α σ → ι → Prop)
    [∀ tr c i, Decidable (allowed tr c i)] : ∀ (is : List ι) (tr : List (Firing ι S))
    (c : Config ι S ε α σ), Decidable (Admits M allowed is tr c)
  | [], _, _ => isTrue trivial
  | i :: is, tr, c => by
    haveI := decidableAdmits M allowed is
    unfold Admits
    exact match c.pool i with
      | .call _ _ => instDecidableAnd
      | .ret _ => inferInstance
      | .throw _ => inferInstance

theorem Runs.replay {M : Machine S σ}
    {allowed : List (Firing ι S) → Config ι S ε α σ → ι → Prop} {c₀ : Config ι S ε α σ} :
    ∀ {is : List ι} {tr : List (Firing ι S)} {c : Config ι S ε α σ}, Runs M allowed c₀ tr c →
      Admits M allowed is tr c → Runs M allowed c₀ (replay M is tr c).1 (replay M is tr c).2
  | [], _, _, h, _ => h
  | i :: is, tr, c, h, ha => by
    unfold Admits at ha
    unfold Lib.replay
    split at ha
    · next op k hp => simpa only [hp] using Runs.replay (h.snoc hp ha.1) ha.2
    · exact Runs.replay h ha

theorem admits_anyhow (M : Machine S σ) : ∀ (is : List ι) (tr : List (Firing ι S))
    (c : Config ι S ε α σ), Admits M Anyhow is tr c
  | [], _, _ => trivial
  | i :: is, tr, c => by
    unfold Admits
    split
    · exact ⟨trivial, admits_anyhow M is _ _⟩
    · exact admits_anyhow M is _ _

end Runs

end TicketIST.Lib
