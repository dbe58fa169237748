import TicketIST.Lib.Serial
import TicketIST.Lib.Threads

/-!
# A part of a component

Some operations of a component are calls of one of its parts, served whole, and the others leave that
part alone.  However threads interleave on the component, its part then goes through a serial run: that
of the calls, in the order in which they took effect (`Runs.serial`).
-/

namespace TicketIST.Lib

section

variable {ι : Type} [DecidableEq ι] {S : Sig} {ε α σ γ ρ τ : Type}

/-- `view` is a part of the state.  Of the operations in `φ`, those that are recorded as calls act on it
by `serve`, and the others do not act on it. -/
structure IsPart (M : Machine S σ) (φ : S.Op → Prop) (serve : γ → τ → ρ × τ) (view : σ → τ)
    (record : (op : S.Op) → S.Ret op → Option (γ × ρ)) : Prop where
  idle : ∀ op s, φ op → record op (M op s).1 = none → view (M op s).2 = view s
  answered : ∀ op s c r, φ op → record op (M op s).1 = some (c, r) → r = (serve c (view s)).1
  made : ∀ op s c r, φ op → record op (M op s).1 = some (c, r) →
    view (M op s).2 = (serve c (view s)).2

/-- The calls among the events, with their answers. -/
def callsOf (record : (op : S.Op) → S.Ret op → Option (γ × ρ)) (tr : List (Firing ι S)) :
    List (γ × ρ) := tr.filterMap fun e => record e.op e.ret

variable {M : Machine S σ} {φ : S.Op → Prop} {serve : γ → τ → ρ × τ} {view : σ → τ}
  {record : (op : S.Op) → S.Ret op → Option (γ × ρ)} {tr : List (Firing ι S)}

omit [DecidableEq ι] in
theorem callsOf_snoc (e : Firing ι S) :
    callsOf record (tr ++ [e]) = callsOf record tr ++ (record e.op e.ret).toList := by
  rw [callsOf, List.filterMap_append]
  cases h : record e.op e.ret <;> simp [callsOf, h]

/-- **The part goes through a serial run.** -/
theorem Runs.serial {allowed : List (Firing ι S) → Config ι S ε α σ → ι → Prop}
    {allowed' : List (γ × ρ) → τ → γ → Prop} {c₀ c : Config ι S ε α σ}
    (hpart : IsPart M φ serve view record) (run : Runs M allowed c₀ tr c)
    (huses : ∀ i, (c₀.pool i).Uses φ)
    (ha : ∀ tr c i op k c' r, c.pool i = .call op k → allowed tr c i →
      record op (M op c.st).1 = some (c', r) → allowed' (callsOf record tr) (view c.st) c') :
    Serial serve allowed' (view c₀.st) (callsOf record tr) (view c.st) := by
  refine run.inv_of_uses (φ := fun _ => φ) huses
    (I := fun tr c => Serial serve allowed' (view c₀.st) (callsOf record tr) (view c.st)) .nil ?_
  intro tr c i op k ih hp hφ hal
  rw [callsOf_snoc]
  show Serial serve allowed' _ (_ ++ (record op (M op c.st).1).toList) (view (M op c.st).2)
  cases hrec : record op (M op c.st).1 with
  | none =>
    rw [hpart.idle op c.st hφ hrec, Option.toList_none, List.append_nil]
    exact ih
  | some cr =>
    obtain ⟨c', r⟩ := cr
    rw [hpart.made op c.st c' r hφ hrec]
    obtain rfl := hpart.answered op c.st c' r hφ hrec
    exact ih.snoc c' (ha tr c i op k c' _ hp hal hrec)

end

end TicketIST.Lib
