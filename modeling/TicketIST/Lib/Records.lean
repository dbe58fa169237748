import Mathlib

/-!
# A stream of records

What one end of a connection writes arrives in records, one for each write.  The other end takes it off
in reads: a read of at most `n` items gets what is left of the current record, or the first `n` items of
it, and waits where nothing has been written.

A `Wire` is what has been written and not yet read, and `reads` are the reads of one size that can be
made of it: a record that fits is read whole (`reads_cons_of_le`), and a longer one is cut
(`reads_cons_of_lt`).
-/

namespace TicketIST.Lib

/-- What has been written and not yet read: the rest of the current record, and the records behind it. -/
@[ext] structure Wire (α : Type) where
  records : List (List α)
  nonempty : ∀ r ∈ records, r ≠ []

namespace Wire

variable {α : Type}

def empty : Wire α := ⟨[], fun _ h => absurd h List.not_mem_nil⟩

/-- A record in front of others. -/
def cons (r : List α) (hr : r ≠ []) (w : Wire α) : Wire α where
  records := r :: w.records
  nonempty r' h := by
    rcases List.mem_cons.1 h with rfl | h
    · exact hr
    · exact w.nonempty r' h

/-- One write.  An empty one sends no record. -/
def write (w : Wire α) (m : List α) : Wire α :=
  if hm : m = [] then w
  else
    { records := w.records ++ [m]
      nonempty := by
        intro r h
        rcases List.mem_append.1 h with h | h
        · exact w.nonempty r h
        · rwa [List.mem_singleton.1 h] }

/-- The wire after writes that nobody has read. -/
def written (ms : List (List α)) : Wire α := ms.foldl write empty

def size (w : Wire α) : ℕ := w.records.flatten.length

/-- What is left of a record after a read that does not get all of it. -/
theorem drop_ne_nil {n : ℕ} {r : List α} (hn : n < r.length) : r.drop n ≠ [] :=
  fun h => absurd (List.drop_eq_nil_iff.1 h) (Nat.not_le.2 hn)

/-- A read of at most `n` items; `none` where it waits. -/
def read (n : ℕ) : Wire α → Option (List α × Wire α)
  | ⟨[], _⟩ => none
  | ⟨r :: rs, h⟩ =>
    let w : Wire α := ⟨rs, fun r' hr' => h r' (List.mem_cons_of_mem _ hr')⟩
    if hn : n < r.length then some (r.take n, cons (r.drop n) (drop_ne_nil hn) w) else some (r, w)

section Read

variable {n : ℕ} {r b : List α} {w w' : Wire α} {hr : r ≠ []}

@[simp] theorem read_empty (n : ℕ) : (empty : Wire α).read n = none := rfl

theorem read_cons_of_le (h : r.length ≤ n) : (cons r hr w).read n = some (r, w) :=
  dif_neg (Nat.not_lt.2 h)

theorem read_cons_of_lt (h : n < r.length) :
    (cons r hr w).read n = some (r.take n, cons (r.drop n) (drop_ne_nil h) w) :=
  dif_pos h

theorem size_cons (r : List α) (hr : r ≠ []) (w : Wire α) :
    (cons r hr w).size = r.length + w.size := by
  simp [size, cons]

/-- Something is waiting, or nothing is. -/
theorem cases_cons (w : Wire α) : w = empty ∨ ∃ r hr w', w = cons r hr w' := by
  obtain ⟨_ | ⟨r, rs⟩, h⟩ := w
  · exact .inl rfl
  · exact .inr ⟨r, h r List.mem_cons_self, ⟨rs, fun r' hr' => h r' (List.mem_cons_of_mem _ hr')⟩, rfl⟩

/-- A read takes off what it gets. -/
theorem size_of_read (h : w.read n = some (b, w')) : b.length + w'.size = w.size := by
  obtain rfl | ⟨r, hr, w, rfl⟩ := w.cases_cons
  · cases h
  · rw [size_cons]
    by_cases hn : n < r.length
    · rw [read_cons_of_lt hn] at h
      cases h
      rw [size_cons, List.length_take, List.length_drop]
      omega
    · rw [read_cons_of_le (Nat.not_lt.1 hn)] at h
      cases h
      rfl

/-- The reads of at most `n` items each, until one waits or gets nothing. -/
def reads (n : ℕ) (w : Wire α) : List (List α) :=
  match _h : w.read n with
  | none => []
  | some (b, w') => if _hb : b = [] then [] else b :: reads n w'
termination_by w.size
decreasing_by
  have hsize := size_of_read _h
  have hpos := List.length_pos_iff.2 _hb
  omega

theorem reads_of_none (h : w.read n = none) : w.reads n = [] := by
  rw [reads]
  split
  · rfl
  · next heq =>
    rw [h] at heq
    cases heq

theorem reads_of_some (h : w.read n = some (b, w')) (hb : b ≠ []) :
    w.reads n = b :: w'.reads n := by
  rw [reads]
  split
  · next heq =>
    rw [h] at heq
    cases heq
  · next heq =>
    rw [h] at heq
    cases heq
    exact dif_neg hb

@[simp] theorem reads_empty (n : ℕ) : (empty : Wire α).reads n = [] := reads_of_none rfl

/-- A record that fits is read whole. -/
theorem reads_cons_of_le (h : r.length ≤ n) : (cons r hr w).reads n = r :: w.reads n :=
  reads_of_some (read_cons_of_le h) hr

/-- A record that does not fit is cut. -/
theorem reads_cons_of_lt (h₀ : 0 < n) (h : n < r.length) :
    (cons r hr w).reads n = r.take n :: (cons (r.drop n) (drop_ne_nil h) w).reads n := by
  refine reads_of_some (read_cons_of_lt h) ?_
  rw [← List.length_pos_iff, List.length_take]
  omega

end Read

/-! ### What has been written -/

section Written

variable {m : List α} {ms : List (List α)}

theorem records_foldl_write (hms : ∀ m ∈ ms, m ≠ []) (w : Wire α) :
    (ms.foldl write w).records = w.records ++ ms := by
  induction ms generalizing w with
  | nil => exact (List.append_nil _).symm
  | cons m ms ih =>
    rw [List.foldl_cons, ih fun m' h => hms m' (List.mem_cons_of_mem _ h), write,
      dif_neg (hms m List.mem_cons_self), List.append_assoc, List.singleton_append]

theorem written_nil : written ([] : List (List α)) = empty := rfl

/-- The first of the writes is the current record. -/
theorem written_cons (hm : m ≠ []) (hms : ∀ m ∈ ms, m ≠ []) :
    written (m :: ms) = cons m hm (written ms) := by
  have hall : ∀ m' ∈ m :: ms, m' ≠ [] := by
    intro m' h
    rcases List.mem_cons.1 h with rfl | h
    · exact hm
    · exact hms m' h
  refine Wire.ext ((records_foldl_write hall empty).trans ?_)
  exact congrArg (m :: ·) (records_foldl_write hms empty).symm

end Written

end Wire

end TicketIST.Lib
