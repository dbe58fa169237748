import TicketIST.Lib.Patch
import TicketIST.Lib.Threads

/-!
# Threads that do not meet

A state shows a set of facts.  A program that runs alone looks at some of them and changes some of them,
its `Footprint`; that it keeps to it (`Prog.Local`) is said of its run alone, operation by operation.

If no thread may change what another looks at, then every thread does in every interleaving what it does
alone (`Runs.alone`, `Runs.outcome_alone`), and all interleavings that end show the same facts at their
ends (`Runs.shows_eq`), the serial ones in any order among them (`Runs.shows_serially`).
-/

namespace TicketIST.Lib

/-! ### What a program keeps to -/

/-- What a program looks at, and what of it the program may change. -/
structure Footprint (X : Type) where
  reads : Set X
  writes : Set X
  writes_subset : writes ⊆ reads

/-- The sets have the same elements in `R`. -/
def SameOn {X : Type} (R A B : Set X) : Prop := ∀ x ∈ R, x ∈ A ↔ x ∈ B

section SameOn

variable {X : Type} {R R' A B C : Set X}

theorem SameOn.refl (R A : Set X) : SameOn R A A := fun _ _ => Iff.rfl

theorem SameOn.trans (h : SameOn R A B) (h' : SameOn R B C) : SameOn R A C := fun x hx =>
  (h x hx).trans (h' x hx)

theorem SameOn.mono (h : SameOn R' A B) (hR : R ⊆ R') : SameOn R A B := fun x hx => h x (hR hx)

/-- A patch makes the same of what is the same. -/
theorem SameOn.apply (h : SameOn R A B) (P : Patch X) : SameOn R (P.apply A) (P.apply B) := by
  intro x hx
  rw [Patch.mem_apply, Patch.mem_apply, h x hx]

end SameOn

section Local

variable {S : Sig} {ε α β σ X : Type} {M : Machine S σ} {shows : σ → Set X} {F : Footprint X}
  {op : S.Op} {s s' : σ}

/-- Where the state shows the same as `s` of what is looked at, the operation answers as in `s`, makes
the same of it, and changes only what it may. -/
structure Confined (M : Machine S σ) (shows : σ → Set X) (F : Footprint X) (op : S.Op) (s s' : σ) :
    Prop where
  answer : (M op s').1 = (M op s).1
  reads : SameOn F.reads (shows (M op s).2) (shows (M op s').2)
  writes : SameOn F.writesᶜ (shows s') (shows (M op s').2)

/-- A query has nothing to keep to. -/
theorem Confined.query (hs : SameOn F.reads (shows s) (shows s')) (hM : ∀ s, (M op s).2 = s)
    (ha : (M op s').1 = (M op s).1) : Confined M shows F op s s' where
  answer := ha
  reads := by rwa [hM, hM]
  writes := by rw [hM]; exact .refl _ _

/-- An operation that patches what the state shows keeps to a footprint in which its patch lies. -/
theorem Confined.of_patch {P : Patch X} (hs : SameOn F.reads (shows s) (shows s'))
    (ha : (M op s').1 = (M op s).1) (hP : shows (M op s).2 = P.apply (shows s))
    (hP' : shows (M op s').2 = P.apply (shows s')) (hdropped : P.dropped ⊆ F.reads)
    (hgone : shows s ∩ P.dropped ⊆ F.writes) (hadded : P.added ⊆ F.writes) :
    Confined M shows F op s s' where
  answer := ha
  reads := by rw [hP, hP']; exact hs.apply P
  writes := by
    intro x hx
    rw [hP', Patch.mem_apply, or_iff_left fun h => hx (hadded h), iff_self_and]
    exact fun hxs hd => hx (hgone ⟨(hs x (hdropped hd)).2 hxs, hd⟩)

/-- The program, run alone from `s`, keeps to the footprint. -/
def Prog.Local (M : Machine S σ) (shows : σ → Set X) (F : Footprint X) : Prog S ε α → σ → Prop
  | ret _, _ => True
  | throw _, _ => True
  | call op k, s =>
    (∀ s', SameOn F.reads (shows s) (shows s') → Confined M shows F op s s') ∧
      (k (M op s).1).Local M shows F (M op s).2

theorem Prog.Local.map {p : Prog S ε α} {f : α → β} (h : p.Local M shows F s) :
    (f <$> p).Local M shows F s := by
  induction p generalizing s with
  | ret a => trivial
  | throw e => trivial
  | call op k ih => exact ⟨h.1, ih _ h.2⟩

/-- A program that has ended is its outcome. -/
theorem Prog.eq_ofExcept_of_next {p : Prog S ε α} (h : p.next = none) (M : Machine S σ) (s : σ) :
    p = .ofExcept (p.run M s).1 ∧ (p.run M s).2 = s := by
  cases p with
  | ret a => exact ⟨rfl, rfl⟩
  | throw e => exact ⟨rfl, rfl⟩
  | call op k => cases h

end Local

/-! ### Every interleaving -/

section Runs

variable {ι : Type} [DecidableEq ι] {S : Sig} {ε α σ X : Type} {M : Machine S σ}
  {shows : σ → Set X} {F : ι → Footprint X} {c₀ c c' : Config ι S ε α σ}
  {allowed : List (Firing ι S) → Config ι S ε α σ → ι → Prop} {tr tr' : List (Firing ι S)}

/-- Every thread keeps to its footprint, and no thread may change what another looks at. -/
structure Separate (M : Machine S σ) (shows : σ → Set X) (F : ι → Footprint X)
    (c₀ : Config ι S ε α σ) : Prop where
  keeps : ∀ i, (c₀.pool i).Local M shows (F i) c₀.st
  apart : ∀ i j, i ≠ j → Disjoint (F i).reads (F j).writes

/-- What thread `i` has left to do, it does as it would alone, and finds there what it left. -/
structure Alone (M : Machine S σ) (shows : σ → Set X) (F : Footprint X) (i : ι)
    (c₀ c : Config ι S ε α σ) (s : σ) : Prop where
  same : SameOn F.reads (shows s) (shows c.st)
  keeps : (c.pool i).Local M shows F s
  run : (c.pool i).run M s = (c₀.pool i).run M c₀.st

/-- **A thread that no other meets runs as if alone**. -/
theorem Runs.alone (h : Runs M allowed c₀ tr c) (hsep : Separate M shows F c₀) (i : ι) :
    ∃ s, Alone M shows (F i) i c₀ c s := by
  refine h.inv (I := fun _ c => ∀ i, ∃ s, Alone M shows (F i) i c₀ c s)
    (fun i => ⟨c₀.st, .refl _ _, hsep.keeps i, rfl⟩) ?_ i
  intro tr c j op k hI hp _ i
  obtain ⟨sj, hj⟩ := hI j
  have hkeeps := hj.keeps
  rw [hp] at hkeeps
  have hop := hkeeps.1 c.st hj.same
  by_cases hij : i = j
  · subst hij
    refine ⟨(M op sj).2, hop.reads, ?_, ?_⟩
    · rw [fire_pool_self, hop.answer]
      exact hkeeps.2
    · rw [fire_pool_self, hop.answer, ← hj.run, hp, Prog.run_call]
  · obtain ⟨s, hs⟩ := hI i
    have hdisj : (F i).reads ⊆ (F j).writesᶜ := (hsep.apart i j hij).subset_compl_right
    refine ⟨s, hs.same.trans (hop.writes.mono hdisj), ?_, ?_⟩
    · rw [fire_pool_of_ne hij]
      exact hs.keeps
    · rw [fire_pool_of_ne hij]
      exact hs.run

/-- A thread that has ended returned or threw what it does alone, and left what it leaves alone. -/
theorem Runs.outcome_alone (h : Runs M allowed c₀ tr c) (hsep : Separate M shows F c₀) {i : ι}
    (hi : (c.pool i).next = none) : c.pool i = .ofExcept ((c₀.pool i).run M c₀.st).1 ∧
      SameOn (F i).reads (shows ((c₀.pool i).run M c₀.st).2) (shows c.st) := by
  obtain ⟨s, hs⟩ := h.alone hsep i
  obtain ⟨hout, hend⟩ := Prog.eq_ofExcept_of_next hi M s
  rw [hs.run] at hout hend
  exact ⟨hout, hend ▸ hs.same⟩

/-- What no thread may change stays as it was. -/
theorem Runs.untouched (h : Runs M allowed c₀ tr c) (hsep : Separate M shows F c₀) :
    SameOn (⋃ i, (F i).writes)ᶜ (shows c₀.st) (shows c.st) := by
  induction h with
  | nil => exact .refl _ _
  | @snoc tr c i op k h hp _ ih =>
    obtain ⟨s, hs⟩ := h.alone hsep i
    have hkeeps := hs.keeps
    rw [hp] at hkeeps
    refine ih.trans ((hkeeps.1 c.st hs.same).writes.mono ?_)
    exact Set.compl_subset_compl.2 (Set.subset_iUnion (fun i => (F i).writes) i)

/-- **All interleavings that end show the same facts**. -/
theorem Runs.shows_eq {allowed' : List (Firing ι S) → Config ι S ε α σ → ι → Prop}
    (h : Runs M allowed c₀ tr c) (h' : Runs M allowed' c₀ tr' c') (hsep : Separate M shows F c₀)
    (hend : ∀ i, (c.pool i).next = none) (hend' : ∀ i, (c'.pool i).next = none) :
    shows c.st = shows c'.st := by
  ext x
  by_cases hx : ∃ i, x ∈ (F i).writes
  · obtain ⟨i, hi⟩ := hx
    have hread := (F i).writes_subset hi
    exact ((h.outcome_alone hsep (hend i)).2 x hread).symm.trans
      ((h'.outcome_alone hsep (hend' i)).2 x hread)
  · have hout : x ∈ (⋃ i, (F i).writes)ᶜ := by simpa using hx
    exact (h.untouched hsep x hout).symm.trans (h'.untouched hsep x hout)

/-! ### Serial orders -/

/-- The state after the threads of the list, each run from beginning to end. -/
def serially (M : Machine S σ) (pool : ι → Prog S ε α) (l : List ι) (s : σ) : σ :=
  l.foldl (fun s i => ((pool i).run M s).2) s

/-- A thread can run to its end while the others stand still, and leaves what it leaves alone. -/
theorem Runs.exists_run_one (i : ι) (p : Prog S ε α) :
    ∀ {tr : List (Firing ι S)} {c : Config ι S ε α σ}, Runs M Anyhow c₀ tr c → c.pool i = p →
      ∃ tr' c', Runs M Anyhow c₀ tr' c' ∧ c'.pool i = .ofExcept (p.run M c.st).1 ∧
        c'.st = (p.run M c.st).2 ∧ ∀ j ≠ i, c'.pool j = c.pool j := by
  induction p with
  | ret a => exact fun h hp => ⟨_, _, h, hp, rfl, fun _ _ => rfl⟩
  | throw e => exact fun h hp => ⟨_, _, h, hp, rfl, fun _ _ => rfl⟩
  | call op k ih =>
    intro tr c h hp
    obtain ⟨tr', c', h', hout, hst, hsame⟩ := ih _ (h.snoc hp trivial) (fire_pool_self i op k)
    refine ⟨tr', c', h', hout, hst, fun j hj => ?_⟩
    rw [hsame j hj, fire_pool_of_ne hj]

omit [DecidableEq ι] in
theorem next_ofExcept (o : Except ε α) : (Prog.ofExcept o : Prog S ε α).next = none := by
  cases o <;> rfl

/-- The threads can run one after another. -/
theorem Runs.exists_serially (c₀ : Config ι S ε α σ) {l : List ι} (hl : l.Nodup) :
    ∃ tr c, Runs M Anyhow c₀ tr c ∧ c.st = serially M c₀.pool l c₀.st ∧
      (∀ i ∈ l, (c.pool i).next = none) ∧ ∀ i ∉ l, c.pool i = c₀.pool i := by
  induction l using List.reverseRecOn with
  | nil => exact ⟨[], c₀, .nil, rfl, fun _ hi => absurd hi List.not_mem_nil, fun _ _ => rfl⟩
  | append_singleton l i ih =>
    obtain ⟨hl', -, hdisj⟩ := List.nodup_append.1 hl
    have hi : i ∉ l := fun hi => hdisj i hi i (List.mem_singleton_self i) rfl
    obtain ⟨tr, c, h, hst, hend, hrest⟩ := ih hl'
    obtain ⟨tr', c', h', hout, hst', hsame⟩ := h.exists_run_one i _ (hrest i hi)
    refine ⟨tr', c', h', ?_, fun j hj => ?_, fun j hj => ?_⟩
    · rw [hst', hst, serially, serially, List.foldl_append]
      rfl
    · by_cases hji : j = i
      · rw [hji, hout]
        exact next_ofExcept _
      · rw [hsame j hji]
        refine hend j ((List.mem_append.1 hj).resolve_right fun hj => hji ?_)
        exact List.mem_singleton.1 hj
    · rw [List.mem_append, List.mem_singleton, not_or] at hj
      rw [hsame j hj.2, hrest j hj.1]

/-- **In whatever order the threads run one after another**, an interleaving that ends shows the same
facts as they do. -/
theorem Runs.shows_serially (h : Runs M allowed c₀ tr c) (hsep : Separate M shows F c₀)
    (hend : ∀ i, (c.pool i).next = none) {l : List ι} (hl : l.Nodup) (hall : ∀ i, i ∈ l) :
    shows c.st = shows (serially M c₀.pool l c₀.st) := by
  obtain ⟨tr', c', h', hst, hend', -⟩ := Runs.exists_serially (M := M) c₀ hl
  rw [← hst]
  exact h.shows_eq h' hsep hend fun i => hend' i (hall i)

/-- And each of them returns or throws, in its turn, what it does alone. -/
theorem Separate.run_serially (hsep : Separate M shows F c₀) {l : List ι} {i : ι}
    (hl : (l ++ [i]).Nodup) : ((c₀.pool i).run M (serially M c₀.pool l c₀.st)).1 =
      ((c₀.pool i).run M c₀.st).1 := by
  obtain ⟨hl', -, hdisj⟩ := List.nodup_append.1 hl
  have hi : i ∉ l := fun hi => hdisj i hi i (List.mem_singleton_self i) rfl
  obtain ⟨tr, c, h, hst, -, hrest⟩ := Runs.exists_serially (M := M) c₀ hl'
  obtain ⟨tr', c', h', hout, -, -⟩ := h.exists_run_one i _ (hrest i hi)
  have hnext : (c'.pool i).next = none := by rw [hout]; exact next_ofExcept _
  have heq := hout.symm.trans (h'.outcome_alone hsep hnext).1
  rw [hst] at heq
  simpa only [Prog.run_ofExcept] using congrArg (fun p => (p.run M c₀.st).1) heq

end Runs

end TicketIST.Lib
