import Mathlib

/-!
# Programs made of atomic operations

A signature `Sig` names the operations of a shared component and the type each of them answers with.
A program (`Prog`) is a tree of such operations that ends in a result or in an exception; a machine
gives every operation one atomic meaning on the state.  The same program text is then run

* from beginning to end, by `Prog.run`;
* on a component some of whose operations fail, by running it on `Machine.failing`;
* with a record of what it did, by `Prog.trace`;
* one operation at a time, in any order with other programs (`TicketIST.Lib.Threads`).
-/

namespace TicketIST.Lib

/-- The operations of a component, and the type each of them answers with. -/
structure Sig where
  Op : Type
  Ret : Op → Type

/-- Programs over a signature, with exceptions `ε` and results `α`. -/
inductive Prog (S : Sig) (ε α : Type) : Type
  | ret (a : α)
  | throw (e : ε)
  | call (op : S.Op) (k : S.Ret op → Prog S ε α)

/-- An operation performed, with its answer. -/
abbrev Step (S : Sig) := (op : S.Op) × S.Ret op

/-- The atomic meaning of every operation on a state. -/
abbrev Machine (S : Sig) (σ : Type) := (op : S.Op) → σ → S.Ret op × σ

namespace Prog

variable {S : Sig} {ε α β : Type}

def bind : Prog S ε α → (α → Prog S ε β) → Prog S ε β
  | ret a, f => f a
  | throw e, _ => throw e
  | call op k, f => call op fun r => (k r).bind f

instance : Monad (Prog S ε) where
  pure := ret
  bind := bind

/-- A computation that performs no operation. -/
def ofExcept : Except ε α → Prog S ε α
  | .ok a => ret a
  | .error e => throw e

/-- Hand the exceptions of a program to a handler. -/
def tryCatch : Prog S ε α → (ε → Prog S ε α) → Prog S ε α
  | ret a, _ => ret a
  | throw e, h => h e
  | call op k, h => call op fun r => (k r).tryCatch h

/-! ### Programs compute by their shape -/

@[simp] theorem pure_eq (a : α) : (pure a : Prog S ε α) = ret a := rfl

@[simp] theorem ret_bind (a : α) (f : α → Prog S ε β) : (ret a >>= f : Prog S ε β) = f a := rfl

@[simp] theorem throw_bind (e : ε) (f : α → Prog S ε β) :
    ((throw e : Prog S ε α) >>= f) = throw e := rfl

@[simp] theorem call_bind (op : S.Op) (k : S.Ret op → Prog S ε α) (f : α → Prog S ε β) :
    (call op k >>= f) = call op fun r => k r >>= f := rfl

@[simp] theorem ofExcept_ok (a : α) : (ofExcept (.ok a) : Prog S ε α) = ret a := rfl

@[simp] theorem ofExcept_error (e : ε) : (ofExcept (.error e) : Prog S ε α) = throw e := rfl

@[simp] theorem tryCatch_ret (a : α) (h : ε → Prog S ε α) : (ret a).tryCatch h = ret a := rfl

@[simp] theorem tryCatch_throw (e : ε) (h : ε → Prog S ε α) :
    (throw e : Prog S ε α).tryCatch h = h e := rfl

@[simp] theorem tryCatch_call (op : S.Op) (k : S.Ret op → Prog S ε α) (h : ε → Prog S ε α) :
    (call op k).tryCatch h = call op fun r => (k r).tryCatch h := rfl

theorem map_eq_bind (f : α → β) (p : Prog S ε α) : f <$> p = p >>= fun a => ret (f a) := rfl

@[simp] theorem map_ret (f : α → β) (a : α) : f <$> (ret a : Prog S ε α) = ret (f a) := rfl

@[simp] theorem map_throw (f : α → β) (e : ε) : f <$> (throw e : Prog S ε α) = throw e := rfl

@[simp] theorem map_call (f : α → β) (op : S.Op) (k : S.Ret op → Prog S ε α) :
    f <$> call op k = call op fun r => f <$> k r := rfl

theorem map_eq_call {f : α → β} {p : Prog S ε α} {op : S.Op} {k : S.Ret op → Prog S ε β}
    (h : f <$> p = call op k) : ∃ k', p = call op k' ∧ k = fun r => f <$> k' r := by
  cases p with
  | ret a => cases h
  | throw e => cases h
  | call op' k' => cases h; exact ⟨k', rfl, rfl⟩

theorem map_eq_ret {f : α → β} {p : Prog S ε α} {b : β} (h : f <$> p = ret b) :
    ∃ a, p = ret a ∧ b = f a := by
  cases p with
  | ret a => cases h; exact ⟨a, rfl, rfl⟩
  | throw e => cases h
  | call op k => cases h

/-! ### The next operation -/

/-- The operation a program is about to perform; `none` when it has ended. -/
def next : Prog S ε α → Option S.Op
  | call op _ => some op
  | _ => none

@[simp] theorem next_ret (a : α) : (ret a : Prog S ε α).next = none := rfl
@[simp] theorem next_throw (e : ε) : (throw e : Prog S ε α).next = none := rfl
@[simp] theorem next_call (op : S.Op) (k : S.Ret op → Prog S ε α) :
    (call op k).next = some op := rfl

@[simp] theorem next_map (f : α → β) (p : Prog S ε α) : (f <$> p).next = p.next := by
  cases p <;> rfl

/-! ### Running from beginning to end -/

section Run

variable {σ : Type}

/-- The outcome of a program run on its own, and the state it leaves. -/
def run (M : Machine S σ) : Prog S ε α → σ → Except ε α × σ
  | ret a, s => (.ok a, s)
  | throw e, s => (.error e, s)
  | call op k, s => (k (M op s).1).run M (M op s).2

variable (M : Machine S σ)

@[simp] theorem run_ret (a : α) (s : σ) : (ret a : Prog S ε α).run M s = (.ok a, s) := rfl

@[simp] theorem run_throw (e : ε) (s : σ) :
    (throw e : Prog S ε α).run M s = (.error e, s) := rfl

@[simp] theorem run_ofExcept (x : Except ε α) (s : σ) :
    (ofExcept x : Prog S ε α).run M s = (x, s) := by
  cases x <;> rfl

@[simp] theorem run_call (op : S.Op) (k : S.Ret op → Prog S ε α) (s : σ) :
    (call op k).run M s = (k (M op s).1).run M (M op s).2 := rfl

theorem run_bind (p : Prog S ε α) (f : α → Prog S ε β) (s : σ) :
    (p >>= f).run M s = match p.run M s with
      | (.ok a, s') => (f a).run M s'
      | (.error e, s') => (.error e, s') := by
  induction p generalizing s with
  | ret a => rfl
  | throw e => rfl
  | call op k ih => exact ih _ _

theorem run_map (f : α → β) (p : Prog S ε α) (s : σ) :
    (f <$> p).run M s = ((p.run M s).1.map f, (p.run M s).2) := by
  rw [map_eq_bind, run_bind]
  cases p.run M s with
  | mk o s' => cases o <;> rfl

/-- The operations a program performs when it is run on its own, with their answers. -/
def trace (M : Machine S σ) : Prog S ε α → σ → List (Step S)
  | ret _, _ => []
  | throw _, _ => []
  | call op k, s => ⟨op, (M op s).1⟩ :: (k (M op s).1).trace M (M op s).2

@[simp] theorem trace_ret (a : α) (s : σ) : (ret a : Prog S ε α).trace M s = [] := rfl

@[simp] theorem trace_throw (e : ε) (s : σ) : (throw e : Prog S ε α).trace M s = [] := rfl

@[simp] theorem trace_call (op : S.Op) (k : S.Ret op → Prog S ε α) (s : σ) :
    (call op k).trace M s = ⟨op, (M op s).1⟩ :: (k (M op s).1).trace M (M op s).2 := rfl

theorem run_tryCatch (p : Prog S ε α) (g : ε → Prog S ε α) (s : σ) :
    (p.tryCatch g).run M s = match p.run M s with
      | (.ok a, s') => (.ok a, s')
      | (.error e, s') => (g e).run M s' := by
  induction p generalizing s with
  | ret a => rfl
  | throw e => rfl
  | call op k ih => exact ih _ _

theorem trace_bind (p : Prog S ε α) (f : α → Prog S ε β) (s : σ) :
    (p >>= f).trace M s = p.trace M s ++ match p.run M s with
      | (.ok a, s') => (f a).trace M s'
      | (.error _, _) => [] := by
  induction p generalizing s with
  | ret a => rfl
  | throw e => rfl
  | call op k ih => exact congrArg _ (ih _ _)

end Run

/-! ### Which operations a program may perform -/

/-- Every operation the program can reach satisfies `φ`. -/
def Uses (φ : S.Op → Prop) : Prog S ε α → Prop
  | ret _ => True
  | throw _ => True
  | call op k => φ op ∧ ∀ r, (k r).Uses φ

section Uses

variable {φ ψ : S.Op → Prop}

theorem Uses.mono {p : Prog S ε α} (h : p.Uses φ) (hφ : ∀ op, φ op → ψ op) : p.Uses ψ := by
  induction p with
  | ret a => trivial
  | throw e => trivial
  | call op k ih => exact ⟨hφ op h.1, fun r => ih r (h.2 r)⟩

theorem Uses.bind {p : Prog S ε α} {f : α → Prog S ε β} (h : p.Uses φ) (hf : ∀ a, (f a).Uses φ) :
    (p >>= f).Uses φ := by
  induction p with
  | ret a => exact hf a
  | throw e => trivial
  | call op k ih => exact ⟨h.1, fun r => ih r (h.2 r)⟩

theorem Uses.map {p : Prog S ε α} {f : α → β} (h : p.Uses φ) : (f <$> p).Uses φ :=
  h.bind fun _ => trivial

theorem Uses.tryCatch {p : Prog S ε α} {g : ε → Prog S ε α} (h : p.Uses φ)
    (hg : ∀ e, (g e).Uses φ) : (p.tryCatch g).Uses φ := by
  induction p with
  | ret a => trivial
  | throw e => exact hg e
  | call op k ih => exact ⟨h.1, fun r => ih r (h.2 r)⟩

theorem Uses.ite {c : Prop} [Decidable c] {p q : Prog S ε α} (hp : p.Uses φ) (hq : q.Uses φ) :
    (if c then p else q).Uses φ := by
  split
  · exact hp
  · exact hq

theorem Uses.of_next {p : Prog S ε α} (h : p.Uses φ) {op : S.Op} (hop : p.next = some op) : φ op := by
  cases p with
  | ret a => cases hop
  | throw e => cases hop
  | call op' k =>
    cases hop
    exact h.1

/-- What every operation of a program keeps, the program keeps. -/
theorem Uses.run_inv {σ : Type} {M : Machine S σ} {I : σ → Prop} {p : Prog S ε α} (h : p.Uses φ)
    (hφ : ∀ op s, φ op → I s → I (M op s).2) {s : σ} (hs : I s) : I (p.run M s).2 := by
  induction p generalizing s with
  | ret a => exact hs
  | throw e => exact hs
  | call op k ih => exact ih _ (h.2 _) (hφ op s h.1 hs)

theorem uses_true (p : Prog S ε α) : p.Uses fun _ => True := by
  induction p with
  | ret a => trivial
  | throw e => trivial
  | call op k ih => exact ⟨trivial, ih⟩

theorem uses_ofExcept (φ : S.Op → Prop) (x : Except ε α) : (ofExcept x).Uses φ := by
  cases x <;> trivial

/-- What an operation establishes when it gives the answer `r`, and every operation keeps, holds at the
end of a run that has performed it with this answer. -/
theorem run_of_mem_trace {σ : Type} {M : Machine S σ} {I : σ → Prop} {p : Prog S ε α} {op : S.Op}
    {r : S.Ret op} (hop : ∀ s, (M op s).1 = r → I (M op s).2) (hkeep : ∀ op s, I s → I (M op s).2)
    {s : σ} (h : ⟨op, r⟩ ∈ p.trace M s) : I (p.run M s).2 := by
  induction p generalizing s with
  | ret a => cases h
  | throw e => cases h
  | call op' k ih =>
    rcases List.mem_cons.1 h with heq | h
    · cases heq
      exact (k _).uses_true.run_inv (fun op s _ => hkeep op s) (hop s rfl)
    · exact ih _ h

/-- What a program performed is among the operations it uses. -/
theorem Uses.trace {σ : Type} {M : Machine S σ} {p : Prog S ε α} (h : p.Uses φ) {s : σ}
    {st : Step S} (hst : st ∈ p.trace M s) : φ st.1 := by
  induction p generalizing s with
  | ret a => cases hst
  | throw e => cases hst
  | call op k ih =>
    rcases List.mem_cons.1 hst with rfl | hst
    · exact h.1
    · exact ih _ (h.2 _) hst

end Uses

/-! ### What a program may throw -/

/-- Every exception that the program can end in satisfies `φ`. -/
def Throws (φ : ε → Prop) : Prog S ε α → Prop
  | ret _ => True
  | throw e => φ e
  | call _ k => ∀ r, (k r).Throws φ

theorem Throws.run {φ : ε → Prop} {σ : Type} {M : Machine S σ} {p : Prog S ε α} (h : p.Throws φ)
    {s : σ} {e : ε} (he : (p.run M s).1 = .error e) : φ e := by
  induction p generalizing s with
  | ret a => cases he
  | throw e' =>
    cases he
    exact h
  | call op k ih => exact ih _ (h _) he

/-! ### Which operations a result takes -/

/-- A result that satisfies `ψ` is returned only after an operation that satisfies `φ`. -/
def Requires (φ : S.Op → Prop) (ψ : α → Prop) : Prog S ε α → Prop
  | ret a => ¬ψ a
  | throw _ => True
  | call op k => φ op ∨ ∀ r, (k r).Requires φ ψ

theorem Requires.mono {φ : S.Op → Prop} {ψ ψ' : α → Prop} {p : Prog S ε α} (h : p.Requires φ ψ)
    (hψ : ∀ a, ψ' a → ψ a) : p.Requires φ ψ' := by
  induction p with
  | ret a => exact fun ha => h (hψ a ha)
  | throw e => trivial
  | call op k ih => exact h.imp_right fun h r => ih r (h r)

theorem Requires.map {φ : S.Op → Prop} {ψ : β → Prop} {f : α → β} {p : Prog S ε α}
    (h : p.Requires φ fun a => ψ (f a)) : (f <$> p).Requires φ ψ := by
  induction p with
  | ret a => exact h
  | throw e => trivial
  | call op k ih => exact h.imp_right fun h r => ih r (h r)

/-! ### Rules with a memory -/

section Heeds

variable {μ : Type} {next : μ → Step S → μ} {ok : μ → S.Op → Prop}

/-- Every operation that the program can reach is permitted by `ok`, whose memory `next` keeps up to
date with the steps before it. -/
def Heeds (next : μ → Step S → μ) (ok : μ → S.Op → Prop) : Prog S ε α → μ → Prop
  | ret _, _ => True
  | throw _, _ => True
  | call op k, m => ok m op ∧ ∀ r, (k r).Heeds next ok (next m ⟨op, r⟩)

theorem Heeds.bind {p : Prog S ε α} {f : α → Prog S ε β} {m : μ} (h : p.Heeds next ok m)
    (hf : ∀ a m, (f a).Heeds next ok m) : (p >>= f).Heeds next ok m := by
  induction p generalizing m with
  | ret a => exact hf a m
  | throw e => trivial
  | call op k ih => exact ⟨h.1, fun r => ih r (h.2 r)⟩

theorem Heeds.tryCatch {p : Prog S ε α} {g : ε → Prog S ε α} {m : μ} (h : p.Heeds next ok m)
    (hg : ∀ e m, (g e).Heeds next ok m) : (p.tryCatch g).Heeds next ok m := by
  induction p generalizing m with
  | ret a => trivial
  | throw e => exact hg e m
  | call op k ih => exact ⟨h.1, fun r => ih r (h.2 r)⟩

/-- Operations that are permitted whatever happened before. -/
theorem Uses.heeds {φ : S.Op → Prop} {p : Prog S ε α} (h : p.Uses φ) (hφ : ∀ op m, φ op → ok m op)
    (m : μ) : p.Heeds next ok m := by
  induction p generalizing m with
  | ret a => trivial
  | throw e => trivial
  | call op k ih => exact ⟨hφ op m h.1, fun r => ih r (h.2 r) _⟩

end Heeds

end Prog

/-! ### Machines built from machines -/

namespace Machine

variable {S : Sig} {σ : Type}

/-- The machine on which the operations `fails` selects have no effect and answer `err`. -/
def failing (M : Machine S σ) (err : (op : S.Op) → S.Ret op) (fails : S.Op → Bool) : Machine S σ :=
  fun op s => if fails op then (err op, s) else M op s

variable (M : Machine S σ) (err : (op : S.Op) → S.Ret op) {fails : S.Op → Bool} {op : S.Op}

theorem failing_of_true (h : fails op = true) (s : σ) : M.failing err fails op s = (err op, s) := by
  simp [failing, h]

theorem failing_of_false (h : fails op = false) (s : σ) :
    M.failing err fails op s = M op s := by
  simp [failing, h]

end Machine

end TicketIST.Lib
