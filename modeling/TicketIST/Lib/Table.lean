import Mathlib

/-!
# Tables with a primary key

A table is a list of rows on which a key is duplicate-free.  The operations are the SQL statements a
program sends: `insert` (refused on a key that is taken), `delete` and `update` of the rows a
condition selects, and `find?` and `select` for queries.  Every fact a client needs is about
membership: which rows are in the table after a statement.
-/

namespace TicketIST.Lib

/-- A table of rows `ρ` with primary key `key`. -/
structure Table (ρ κ : Type) (key : ρ → κ) where
  rows : List ρ
  nodup : (rows.map key).Nodup

section

variable {ρ κ : Type} {key : ρ → κ}

namespace Table

instance : Membership ρ (Table ρ κ key) := ⟨fun t r => r ∈ t.rows⟩

theorem mem_def {t : Table ρ κ key} {r : ρ} : r ∈ t ↔ r ∈ t.rows := Iff.rfl

def empty : Table ρ κ key := ⟨[], by simp⟩

@[simp] theorem not_mem_empty (r : ρ) : r ∉ (empty : Table ρ κ key) := List.not_mem_nil

theorem eq_of_key {t : Table ρ κ key} {r r' : ρ} (h : r ∈ t) (h' : r' ∈ t) (hk : key r = key r') :
    r = r' :=
  List.inj_on_of_nodup_map t.nodup h h' hk

/-- The rows that satisfy `p`: `SELECT … WHERE p`. -/
def select (t : Table ρ κ key) (p : ρ → Bool) : List ρ := t.rows.filter p

/-- A condition selects as many rows from tables that have the same rows with it. -/
theorem length_select_congr {t t' : Table ρ κ key} {p : ρ → Bool}
    (h : ∀ r, p r = true → (r ∈ t ↔ r ∈ t')) : (t.select p).length = (t'.select p).length := by
  have hnodup : ∀ t : Table ρ κ key, (t.select p).Nodup :=
    fun t => (List.Nodup.of_map key t.nodup).filter p
  refine ((List.perm_ext_iff_of_nodup (hnodup t) (hnodup t')).2 fun r => ?_).length_eq
  simp only [select, List.mem_filter]
  exact and_congr_left (h r)

theorem length_select_eq_ncard (t : Table ρ κ key) (p : ρ → Bool) :
    (t.select p).length = {r | r ∈ t ∧ p r = true}.ncard := by
  classical
  have hnodup : (t.select p).Nodup := (List.Nodup.of_map key t.nodup).filter p
  have hset : {r | r ∈ t ∧ p r = true} = ((t.select p).toFinset : Set ρ) := by
    ext r
    simp [select, mem_def]
  rw [hset, Set.ncard_coe_finset, List.toFinset_card_of_nodup hnodup]

/-- The first row that satisfies `p`, if there is one. -/
def first? (t : Table ρ κ key) (p : ρ → Bool) : Option ρ := t.rows.find? p

theorem first?_some {t : Table ρ κ key} {p : ρ → Bool} {r : ρ} (h : t.first? p = some r) :
    r ∈ t ∧ p r = true :=
  ⟨List.mem_of_find?_eq_some h, List.find?_some h⟩

@[simp] theorem first?_eq_none {t : Table ρ κ key} {p : ρ → Bool} :
    t.first? p = none ↔ ∀ r ∈ t, p r = false := by
  simp [first?, mem_def]

theorem first?_isSome {t : Table ρ κ key} {p : ρ → Bool} :
    (t.first? p).isSome = true ↔ ∃ r ∈ t, p r = true := by
  simp [first?, mem_def]

/-- A condition that at most one row satisfies is answered by that row. -/
theorem first?_eq_some {t : Table ρ κ key} {p : ρ → Bool} {r : ρ} (hr : r ∈ t) (hp : p r = true)
    (hu : ∀ r' ∈ t, p r' = true → r' = r) : t.first? p = some r := by
  cases h : t.first? p with
  | none => rw [first?_eq_none] at h; rw [h r hr] at hp; cases hp
  | some r' => rw [hu r' (first?_some h).1 (first?_some h).2]

/-- Drop the rows that satisfy `p`: `DELETE … WHERE p`. -/
def delete (t : Table ρ κ key) (p : ρ → Bool) : Table ρ κ key where
  rows := t.rows.filter fun r => !p r
  nodup := (List.Sublist.map key List.filter_sublist).nodup t.nodup

@[simp] theorem mem_delete {t : Table ρ κ key} {p : ρ → Bool} {r : ρ} :
    r ∈ t.delete p ↔ r ∈ t ∧ p r = false := by
  simp [mem_def, delete]

/-- What is selected after a deletion is what was selected before, without what was deleted. -/
theorem select_delete (t : Table ρ κ key) (p q : ρ → Bool) :
    (t.delete p).select q = (t.select q).filter fun r => !p r := by
  simp only [select, delete, List.filter_filter, Bool.and_comm]

/-- Rewrite the rows that satisfy `p` by `f`, which keeps the key: `UPDATE … WHERE p`. -/
def update (t : Table ρ κ key) (p : ρ → Bool) (f : ρ → ρ) (hf : ∀ r, key (f r) = key r) :
    Table ρ κ key where
  rows := t.rows.map fun r => if p r then f r else r
  nodup := by
    have h : (key ∘ fun r => if p r then f r else r) = key := by
      funext r
      by_cases hp : p r <;> simp [hp, hf]
    rw [List.map_map, h]
    exact t.nodup

theorem mem_update {t : Table ρ κ key} {p : ρ → Bool} {f : ρ → ρ} {hf : ∀ r, key (f r) = key r}
    {r : ρ} : r ∈ t.update p f hf ↔ ∃ r' ∈ t, (if p r' then f r' else r') = r := by
  simp [mem_def, update]

/-- Rewriting the row of a key rewrites that row, where it stands. -/
theorem update_rows_of_key [DecidableEq κ] {t : Table ρ κ key} {r : ρ} {k : κ} (hr : r ∈ t)
    (hk : key r = k) (f : ρ → ρ) (hf : ∀ r, key (f r) = key r) : ∃ l₁ l₂, t.rows = l₁ ++ r :: l₂ ∧
      (t.update (fun x => key x = k) f hf).rows = l₁ ++ f r :: l₂ := by
  subst hk
  obtain ⟨l₁, l₂, hl⟩ := List.append_of_mem (mem_def.1 hr)
  have hne : ∀ x, x ∈ l₁ ∨ x ∈ l₂ → key x ≠ key r := by
    have hn := t.nodup
    rw [hl, List.map_append, List.map_cons] at hn
    have hn' := List.nodup_middle.1 hn
    intro x hx hk
    refine (List.nodup_cons.1 hn').1 (hk ▸ ?_)
    rw [← List.map_append]
    exact List.mem_map_of_mem (List.mem_append.2 hx)
  have hsame : ∀ l : List ρ, (∀ x ∈ l, key x ≠ key r) →
      l.map (fun x => if decide (key x = key r) then f x else x) = l := fun l h =>
    (List.map_congr_left fun x hx => by simp [h x hx]).trans (List.map_id _)
  refine ⟨l₁, l₂, hl, ?_⟩
  simp only [update, hl, List.map_append, List.map_cons, decide_true, if_true]
  rw [hsame l₁ fun x hx => hne x (.inl hx), hsame l₂ fun x hx => hne x (.inr hx)]

variable [DecidableEq κ]

/-- Append a row, unless its key is taken: `INSERT`. -/
def insert (t : Table ρ κ key) (r : ρ) : Option (Table ρ κ key) :=
  if h : key r ∈ t.rows.map key then none
  else some ⟨t.rows ++ [r], by
    rw [List.map_append, List.map_singleton]
    exact List.nodup_append.2 ⟨t.nodup, by simp, fun a ha b hb => by
      rw [List.mem_singleton.1 hb]; exact fun hab => h (hab ▸ ha)⟩⟩

theorem insert_eq_none {t : Table ρ κ key} {r : ρ} :
    t.insert r = none ↔ ∃ r' ∈ t, key r' = key r := by
  unfold insert
  split
  · next h => simpa [mem_def] using List.mem_map.1 h
  · next h =>
    simp only [reduceCtorEq, false_iff]
    rintro ⟨r', hr', hk⟩
    exact h (List.mem_map.2 ⟨r', hr', hk⟩)

theorem insert_rows {t t' : Table ρ κ key} {r : ρ} (h : t.insert r = some t') :
    t'.rows = t.rows ++ [r] := by
  unfold insert at h
  split at h
  · cases h
  · cases h; rfl

theorem mem_insert {t t' : Table ρ κ key} {r : ρ} (h : t.insert r = some t') {x : ρ} :
    x ∈ t' ↔ x ∈ t ∨ x = r := by
  rw [mem_def, insert_rows h, List.mem_append, List.mem_singleton, mem_def]

theorem insert_fresh {t t' : Table ρ κ key} {r : ρ} (h : t.insert r = some t') :
    ∀ x ∈ t, key x ≠ key r := by
  intro x hx hk
  rw [insert_eq_none.2 ⟨x, hx, hk⟩] at h
  cases h

theorem exists_insert {t : Table ρ κ key} {r : ρ} (h : ∀ x ∈ t, key x ≠ key r) :
    ∃ t', t.insert r = some t' := by
  cases hi : t.insert r with
  | none =>
    obtain ⟨x, hx, hk⟩ := insert_eq_none.1 hi
    exact absurd hk (h x hx)
  | some t' => exact ⟨t', rfl⟩

/-- The row with key `k`, if there is one: `SELECT … WHERE key = k`. -/
def find? (t : Table ρ κ key) (k : κ) : Option ρ := t.first? fun r => decide (key r = k)

theorem find?_eq_some {t : Table ρ κ key} {k : κ} {r : ρ} :
    t.find? k = some r ↔ r ∈ t ∧ key r = k := by
  constructor
  · intro h
    have := first?_some h
    exact ⟨this.1, of_decide_eq_true this.2⟩
  · rintro ⟨hr, rfl⟩
    exact first?_eq_some hr (by simp) fun r' hr' hk => eq_of_key hr' hr (of_decide_eq_true hk)

theorem find?_any {t : Table ρ κ key} {k : κ} {p : ρ → Bool} :
    (t.find? k).any p = true ↔ ∃ r ∈ t, key r = k ∧ p r = true := by
  simp [Option.any_eq_true, find?_eq_some, and_assoc]

theorem find?_eq_none {t : Table ρ κ key} {k : κ} : t.find? k = none ↔ ∀ r ∈ t, key r ≠ k := by
  simp [find?]

end Table

end

end TicketIST.Lib
