import Mathlib.Data.List.Induction
import Mathlib.Data.List.Sort

/-! Tables: rows in insertion order under a primary key. A table carries the
proof that no two rows share a key, so a lookup has one answer and a second
INSERT under a used key is refused instead of stored. -/

namespace Lib

/-- Rows in insertion order, no two of them under one key. -/
@[ext] structure Table {κ ρ : Type} (key : ρ → κ) where
  rows : List ρ
  unique : (rows.map key).Nodup

namespace Table

variable {κ ρ : Type} {key : ρ → κ}

def empty : Table key := ⟨[], List.nodup_nil⟩

instance : Inhabited (Table key) := ⟨empty⟩

instance [DecidableEq ρ] : DecidableEq (Table key) := fun t u =>
  decidable_of_iff (t.rows = u.rows) ⟨Table.ext, fun h => h ▸ rfl⟩

@[simp] theorem rows_empty : (empty : Table key).rows = [] := rfl

/-- Some row has the key `k`. -/
def Has (t : Table key) (k : κ) : Prop := k ∈ t.rows.map key

theorem has_iff {t : Table key} {k : κ} : t.Has k ↔ ∃ r ∈ t.rows, key r = k := by
  simp [Has]

theorem eq_of_key_eq {t : Table key} {r r' : ρ} (hr : r ∈ t.rows) (hr' : r' ∈ t.rows)
    (h : key r = key r') : r = r' :=
  List.inj_on_of_nodup_map t.unique hr hr' h

variable [DecidableEq κ]

/-- The row under `k`. -/
def get (t : Table key) (k : κ) : Option ρ := t.rows.find? (fun r => key r = k)

instance (t : Table key) (k : κ) : Decidable (t.Has k) :=
  inferInstanceAs (Decidable (k ∈ t.rows.map key))

/-- INSERT: a used key is an integrity error (`none`). -/
def insert (t : Table key) (r : ρ) : Option (Table key) :=
  if h : t.Has (key r) then none
  else some ⟨t.rows ++ [r], by
    rw [List.map_append, List.nodup_append]
    refine ⟨t.unique, by simp, ?_⟩
    intro a ha b hb hab
    simp only [List.map_cons, List.map_nil, List.mem_singleton] at hb
    exact h (hb ▸ hab ▸ ha)⟩

/-- Write `r` over the row with its key, or append it. -/
def put (t : Table key) (r : ρ) : Table key where
  rows :=
    if t.Has (key r) then t.rows.map (fun x => if key x = key r then r else x)
    else t.rows ++ [r]
  unique := by
    split
    · have e : (fun x => key (if key x = key r then r else x)) = key := by
        funext x
        by_cases hx : key x = key r <;> simp [hx]
      rw [List.map_map]
      simpa only [Function.comp_def, e] using t.unique
    · next h =>
      rw [List.map_append, List.nodup_append]
      refine ⟨t.unique, by simp, ?_⟩
      intro a ha b hb hab
      simp only [List.map_cons, List.map_nil, List.mem_singleton] at hb
      exact h (hb ▸ hab ▸ ha)

/-- UPDATE: rewrite every row by `f`, which keeps the keys. -/
def update (t : Table key) (f : ρ → ρ) (hf : ∀ r, key (f r) = key r) : Table key where
  rows := t.rows.map f
  unique := by
    have e : key ∘ f = key := funext hf
    rw [List.map_map, e]
    exact t.unique

/-- DELETE of the rows with `p`. -/
def remove (t : Table key) (p : ρ → Bool) : Table key where
  rows := t.rows.filter (fun r => !p r)
  unique := (List.filter_sublist.map key).nodup t.unique

/-- Remove the row under `k`. -/
def erase (t : Table key) (k : κ) : Table key where
  rows := t.rows.filter (fun r => key r ≠ k)
  unique := (List.filter_sublist.map key).nodup t.unique

def ofRows (rows : List ρ) : Table key := rows.foldl put empty

theorem get_eq_some_iff {t : Table key} {k : κ} {r : ρ} :
    t.get k = some r ↔ r ∈ t.rows ∧ key r = k := by
  have found : ∀ {r'}, t.get k = some r' → r' ∈ t.rows ∧ key r' = k := fun h =>
    ⟨List.mem_of_find?_eq_some h, by simpa using List.find?_some h⟩
  refine ⟨found, fun ⟨hr, hk⟩ => ?_⟩
  cases h : t.get k with
  | none => exact absurd (List.find?_eq_none.mp h r hr) (by simp [hk])
  | some r' =>
    obtain ⟨hr', hk'⟩ := found h
    rw [eq_of_key_eq hr' hr (hk'.trans hk.symm)]

theorem get_eq_none_iff {t : Table key} {k : κ} : t.get k = none ↔ ¬ t.Has k := by
  simp [get, Has, List.find?_eq_none]

theorem mem_of_get {t : Table key} {k : κ} {r : ρ} (h : t.get k = some r) : r ∈ t.rows :=
  (get_eq_some_iff.mp h).1

theorem key_of_get {t : Table key} {k : κ} {r : ρ} (h : t.get k = some r) : key r = k :=
  (get_eq_some_iff.mp h).2

theorem insert_eq_some {t u : Table key} {r : ρ} :
    t.insert r = some u ↔ ¬ t.Has (key r) ∧ u.rows = t.rows ++ [r] := by
  unfold insert
  split
  · next h => simp [h]
  · next h => simp [h, Table.ext_iff, eq_comm]

theorem insert_eq_none {t : Table key} {r : ρ} : t.insert r = none ↔ t.Has (key r) := by
  unfold insert
  split <;> simp_all

@[simp] theorem get_empty (k : κ) : (empty : Table key).get k = none := rfl

theorem mem_put {t : Table key} {r x : ρ} :
    x ∈ (t.put r).rows ↔ x = r ∨ (x ∈ t.rows ∧ key x ≠ key r) := by
  unfold put
  by_cases h : t.Has (key r)
  · simp only [h, ↓reduceIte, List.mem_map]
    constructor
    · rintro ⟨y, hy, rfl⟩
      by_cases hk : key y = key r
      · exact Or.inl (by simp [hk])
      · exact Or.inr (by simpa [hk] using hy)
    · rintro (rfl | ⟨hx, hk⟩)
      · obtain ⟨y, hy, hk⟩ := has_iff.mp h
        exact ⟨y, hy, by simp [hk]⟩
      · exact ⟨x, hx, by simp [hk]⟩
  · simp only [h, ↓reduceIte, List.mem_append, List.mem_singleton]
    constructor
    · rintro (hx | rfl)
      · exact Or.inr ⟨hx, fun hk => h (has_iff.mpr ⟨x, hx, hk⟩)⟩
      · exact Or.inl rfl
    · rintro (rfl | ⟨hx, -⟩)
      · exact Or.inr rfl
      · exact Or.inl hx

theorem get_put (t : Table key) (r : ρ) (k : κ) :
    (t.put r).get k = if key r = k then some r else t.get k := by
  split
  · next h => exact get_eq_some_iff.mpr ⟨mem_put.mpr (Or.inl rfl), h⟩
  · next h =>
    ext x
    rw [get_eq_some_iff, get_eq_some_iff, mem_put]
    constructor
    · rintro ⟨rfl | ⟨hx, -⟩, hk⟩
      · exact absurd hk h
      · exact ⟨hx, hk⟩
    · rintro ⟨hx, hk⟩
      exact ⟨Or.inr ⟨hx, fun e => h (e ▸ hk)⟩, hk⟩

@[simp] theorem get_put_self (t : Table key) (r : ρ) : (t.put r).get (key r) = some r := by
  simp [get_put]

theorem get_put_of_ne (t : Table key) {r : ρ} {k : κ} (h : key r ≠ k) :
    (t.put r).get k = t.get k := by
  simp [get_put, h]

theorem get_update (t : Table key) {f : ρ → ρ} (hf : ∀ r, key (f r) = key r) (k : κ) :
    (t.update f hf).get k = (t.get k).map f := by
  ext x
  rw [get_eq_some_iff, Option.map_eq_some_iff, update, List.mem_map]
  constructor
  · rintro ⟨⟨r, hr, rfl⟩, hk⟩
    exact ⟨r, get_eq_some_iff.mpr ⟨hr, (hf r).symm.trans hk⟩, rfl⟩
  · rintro ⟨r, hr, rfl⟩
    obtain ⟨hr, hk⟩ := get_eq_some_iff.mp hr
    exact ⟨⟨r, hr, rfl⟩, (hf r).trans hk⟩

theorem get_erase (t : Table key) (k k' : κ) :
    (t.erase k).get k' = if k' = k then none else t.get k' := by
  ext x
  rw [get_eq_some_iff]
  split
  · next h => subst h; simp [erase]
  · next h =>
    rw [get_eq_some_iff]
    simp only [erase, List.mem_filter, ne_eq, decide_not, Bool.not_eq_eq_eq_not, Bool.not_true,
      decide_eq_false_iff_not]
    constructor
    · rintro ⟨⟨hx, -⟩, hk⟩
      exact ⟨hx, hk⟩
    · rintro ⟨hx, hk⟩
      exact ⟨⟨hx, fun e => h (hk ▸ e)⟩, hk⟩

theorem get_remove (t : Table key) (p : κ → Bool) (k : κ) :
    (t.remove (fun r => p (key r))).get k = if p k then none else t.get k := by
  ext r
  rw [get_eq_some_iff, remove, List.mem_filter]
  split
  · next gone =>
    simp only [reduceCtorEq, iff_false]
    rintro ⟨⟨-, kept⟩, rfl⟩
    simp [gone] at kept
  · next kept =>
    rw [get_eq_some_iff]
    constructor
    · rintro ⟨⟨mem, -⟩, same⟩
      exact ⟨mem, same⟩
    · rintro ⟨mem, rfl⟩
      exact ⟨⟨mem, by simp [kept]⟩, rfl⟩

omit [DecidableEq κ] in
theorem remove_of_none {t : Table key} {p : ρ → Bool} (h : ∀ r ∈ t.rows, p r = false) :
    t.remove p = t := by
  ext1
  exact List.filter_eq_self.mpr (fun r hr => by simp [h r hr])

/-- A row that keeps its key is found where the old one was, so `put` moves nothing. -/
theorem rows_put_of_has {t : Table key} {r : ρ} (h : t.Has (key r)) :
    (t.put r).rows = t.rows.map (fun x => if key x = key r then r else x) := by
  simp [put, h]

theorem put_of_get {t : Table key} {r : ρ} (h : t.get (key r) = some r) : t.put r = t := by
  have mem := mem_of_get h
  ext1
  rw [rows_put_of_has (has_iff.mpr ⟨r, mem, rfl⟩), List.map_congr_left, List.map_id]
  intro x hx
  split
  · next same => exact eq_of_key_eq mem hx same.symm
  · rfl

theorem map_rows_put {β : Type} {f : ρ → β} {t : Table key} {r r' : ρ}
    (h : t.get (key r') = some r) (same : f r' = f r) : (t.put r').rows.map f = t.rows.map f := by
  obtain ⟨mem, id⟩ := get_eq_some_iff.mp h
  rw [rows_put_of_has (has_iff.mpr ⟨r, mem, id⟩), List.map_map]
  refine List.map_congr_left fun x hx => ?_
  by_cases own : key x = key r'
  · obtain rfl := eq_of_key_eq hx mem (own.trans id.symm)
    simp [own, same]
  · simp [own]

theorem foldl_put_of_get {t : Table key} {rows : List ρ}
    (h : ∀ r ∈ rows, t.get (key r) = some r) : rows.foldl put t = t := by
  induction rows with
  | nil => rfl
  | cons r rows ih =>
    rw [List.foldl_cons, put_of_get (h r List.mem_cons_self)]
    exact ih (fun r' hr' => h r' (List.mem_cons_of_mem _ hr'))

theorem rows_put_of_not_has {t : Table key} {r : ρ} (h : ¬ t.Has (key r)) :
    (t.put r).rows = t.rows ++ [r] := by
  simp [put, h]

omit [DecidableEq κ] in
theorem has_update {t : Table key} {f : ρ → ρ} (hf : ∀ r, key (f r) = key r) {k : κ} :
    (t.update f hf).Has k ↔ t.Has k := by
  rw [Has, Has, update, List.map_map]
  simp only [Function.comp_def, hf]

theorem update_put (t : Table key) (r : ρ) {f : ρ → ρ} (hf : ∀ r, key (f r) = key r) :
    (t.put r).update f hf = (t.update f hf).put (f r) := by
  have has : (t.update f hf).Has (key (f r)) ↔ t.Has (key r) := hf r ▸ has_update hf
  ext1
  by_cases h : t.Has (key r)
  · show (t.put r).rows.map f = _
    rw [rows_put_of_has (has.mpr h), rows_put_of_has h, update, List.map_map, List.map_map]
    apply List.map_congr_left
    intro x _
    by_cases same : key x = key r <;> simp [same, hf]
  · show (t.put r).rows.map f = _
    rw [rows_put_of_not_has (mt has.mp h), rows_put_of_not_has h, List.map_append]
    rfl

theorem update_insert (t : Table key) (r : ρ) {f : ρ → ρ} (hf : ∀ r, key (f r) = key r) :
    (t.update f hf).insert (f r) = (t.insert r).map fun u => u.update f hf := by
  have has : (t.update f hf).Has (key (f r)) ↔ t.Has (key r) := hf r ▸ has_update hf
  cases inserted : t.insert r with
  | none => exact insert_eq_none.mpr (has.mpr (insert_eq_none.mp inserted))
  | some u =>
    obtain ⟨fresh, rows⟩ := insert_eq_some.mp inserted
    refine insert_eq_some.mpr ⟨mt has.mp fresh, ?_⟩
    show u.rows.map f = _
    rw [rows, List.map_append]
    rfl

theorem get_of_rows_append {t u : Table key} {rs : List ρ} (h : u.rows = t.rows ++ rs) {k : κ}
    {r : ρ} (hk : t.get k = some r) : u.get k = some r := by
  obtain ⟨hr, hk⟩ := get_eq_some_iff.mp hk
  exact get_eq_some_iff.mpr ⟨by simp [h, hr], hk⟩

theorem foldl_put_rows {rows : List ρ} {t : Table key} (unique : (rows.map key).Nodup)
    (new : ∀ r ∈ rows, ¬ t.Has (key r)) : (rows.foldl put t).rows = t.rows ++ rows := by
  induction rows generalizing t with
  | nil => simp
  | cons r rows ih =>
    simp only [List.map_cons, List.nodup_cons] at unique
    have last := rows_put_of_not_has (new r List.mem_cons_self)
    rw [List.foldl_cons, ih unique.2 ?_, last]
    · simp
    · intro r' hr' has
      rw [Has, last, List.map_append, List.mem_append] at has
      rcases has with has | has
      · exact new r' (List.mem_cons_of_mem _ hr') has
      · simp only [List.map_cons, List.map_nil, List.mem_singleton] at has
        exact unique.1 (has ▸ List.mem_map_of_mem hr')

theorem rows_ofRows {rows : List ρ} (unique : (rows.map key).Nodup) :
    (ofRows rows : Table key).rows = rows := by
  have new : ∀ r ∈ rows, ¬ (empty : Table key).Has (key r) := fun r _ h => by simp [Has] at h
  rw [ofRows, foldl_put_rows unique new, rows_empty, List.nil_append]

theorem has_put_iff {t : Table key} {r : ρ} {k : κ} : (t.put r).Has k ↔ k = key r ∨ t.Has k := by
  rw [← not_iff_not, not_or, ← get_eq_none_iff, ← get_eq_none_iff, get_put]
  by_cases h : key r = k
  · simp [h]
  · simp [h, Ne.symm h]

theorem has_ofRows {rows : List ρ} {k : κ} :
    (ofRows rows : Table key).Has k ↔ k ∈ rows.map key := by
  have written : ∀ t : Table key, (rows.foldl put t).Has k ↔ k ∈ rows.map key ∨ t.Has k := by
    induction rows with
    | nil => simp
    | cons r rows ih =>
      intro t
      rw [List.foldl_cons, ih, has_put_iff, List.map_cons, List.mem_cons]
      exact or_left_comm.trans or_assoc.symm
  rw [ofRows, written]
  simp [Has]

theorem mem_ofRows {rows : List ρ} {r : ρ} (h : r ∈ (ofRows rows : Table key).rows) : r ∈ rows := by
  have written : ∀ t : Table key, r ∈ (rows.foldl put t).rows → r ∈ rows ∨ r ∈ t.rows := by
    clear h
    induction rows with
    | nil => exact fun t h => .inr h
    | cons x rows ih =>
      intro t h
      rcases ih (t.put x) h with h | h
      · exact .inl (List.mem_cons_of_mem _ h)
      · rcases mem_put.mp h with rfl | ⟨h, -⟩
        · exact .inl List.mem_cons_self
        · exact .inr h
  rcases written empty h with h | h
  · exact h
  · simp at h

theorem get_foldl_put {f : κ → Option ρ} {rows : List ρ} (h : ∀ r ∈ rows, f (key r) = some r)
    (t : Table key) (k : κ) :
    (rows.foldl put t).get k = if k ∈ rows.map key then f k else t.get k := by
  induction rows generalizing t with
  | nil => simp
  | cons r rows ih =>
    have head := h r List.mem_cons_self
    rw [List.foldl_cons, ih (fun r hr => h r (List.mem_cons_of_mem _ hr)), get_put]
    by_cases hk : k ∈ rows.map key
    · simp [hk]
    · by_cases e : key r = k
      · subst e
        simp [hk, head]
      · simp [hk, e, Ne.symm e]

theorem get_ofRows (rows : List ρ) (k : κ) :
    (ofRows rows : Table key).get k = (rows.filter fun r => key r = k).getLast? := by
  induction rows using List.reverseRecOn with
  | nil => rfl
  | append_singleton rows r ih =>
    rw [ofRows, List.foldl_concat, get_put, ← ofRows, ih, List.filter_append]
    by_cases h : key r = k <;> simp [h]

theorem get_ofRows_sorted {κ : Type} [LinearOrder κ] {key : ρ → κ} (rows : List ρ) (k : κ) :
    (ofRows (rows.insertionSort fun r r' => key r ≤ key r') : Table key).get k =
      (ofRows rows : Table key).get k := by
  have total : Std.Total fun r r' : ρ => key r ≤ key r' := ⟨fun _ _ => le_total _ _⟩
  have trans : IsTrans ρ fun r r' => key r ≤ key r' := ⟨fun _ _ _ => le_trans⟩
  have level : (rows.filter fun r => key r = k).Pairwise fun r r' => key r ≤ key r' := by
    refine List.pairwise_of_forall_mem_list fun a ha b hb => ?_
    rw [of_decide_eq_true (List.mem_filter.mp ha).2, of_decide_eq_true (List.mem_filter.mp hb).2]
  have inside := (List.sublist_insertionSort level List.filter_sublist).filter fun r => key r = k
  rw [List.filter_filter] at inside
  have same := inside.eq_of_length
    (by simpa using ((List.perm_insertionSort _ rows).filter _).length_eq.symm)
  rw [get_ofRows, get_ofRows, ← same]
  simp

omit [DecidableEq κ] in
theorem not_has_of_rows_concat {t u : Table key} {r : ρ} (h : u.rows = t.rows ++ [r]) :
    ¬ t.Has (key r) := by
  have unique := u.unique
  rw [h, List.map_append, List.nodup_append] at unique
  intro has
  exact unique.2.2 _ has (key r) (by simp) rfl

omit [DecidableEq κ] in
theorem has_rows_concat {t u : Table key} {r : ρ} (h : u.rows = t.rows ++ [r]) {k : κ} :
    u.Has k ↔ t.Has k ∨ k = key r := by
  simp [Has, h, eq_comm]

theorem get_of_rows_concat {t u : Table key} {r : ρ} (h : u.rows = t.rows ++ [r]) (k : κ) :
    u.get k = if key r = k then some r else t.get k := by
  have hr : r ∈ u.rows := by simp [h]
  split
  · next hk => exact get_eq_some_iff.mpr ⟨hr, hk⟩
  · next hk =>
    ext x
    rw [get_eq_some_iff, get_eq_some_iff, h, List.mem_append, List.mem_singleton]
    constructor
    · rintro ⟨hx | rfl, hx'⟩
      · exact ⟨hx, hx'⟩
      · exact absurd hx' hk
    · rintro ⟨hx, hx'⟩
      exact ⟨Or.inl hx, hx'⟩

end Table

/-! ## Exclusive claims: no two rows claim the same thing -/

section

variable {κ ρ γ : Type} {key : ρ → κ}

def Exclusive (claim : ρ → Option γ) (t : Table key) : Prop :=
  ∀ r ∈ t.rows, ∀ r' ∈ t.rows, ∀ g, claim r = some g → claim r' = some g → r = r'

namespace Exclusive

variable [DecidableEq κ] {claim : ρ → Option γ} {t : Table key} {r : ρ}

theorem put (h : Exclusive claim t)
    (free : ∀ g, claim r = some g → ∀ x ∈ t.rows, key x ≠ key r → claim x ≠ some g) :
    Exclusive claim (t.put r) := by
  intro x hx y hy g claimed claimed'
  rw [Table.mem_put] at hx hy
  rcases hx with rfl | ⟨hx, otherx⟩ <;> rcases hy with rfl | ⟨hy, othery⟩
  · rfl
  · exact absurd claimed' (free g claimed y hy othery)
  · exact absurd claimed (free g claimed' x hx otherx)
  · exact h x hx y hy g claimed claimed'

theorem put_released (h : Exclusive claim t) (none : claim r = none) :
    Exclusive claim (t.put r) := by
  apply h.put
  intro g claimed
  rw [none] at claimed
  cases claimed

end Exclusive

end

/-! ## The rows in which one table differs from an earlier one -/

namespace Table

variable {κ ρ : Type} {key : ρ → κ} [DecidableEq κ] [DecidableEq ρ]

/-- The rows of `t'` that `t` does not have as they are. -/
def changes (t t' : Table key) : List ρ := t'.rows.filter fun r => t.get (key r) ≠ some r

theorem mem_changes {t t' : Table key} {r : ρ} :
    r ∈ t.changes t' ↔ r ∈ t'.rows ∧ t.get (key r) ≠ some r := by
  simp [changes]

@[simp] theorem changes_self (t : Table key) : t.changes t = [] := by
  apply List.filter_eq_nil_iff.mpr
  intro r mem
  simpa using get_eq_some_iff.mpr ⟨mem, rfl⟩

theorem changes_insert {t t' : Table key} {r : ρ} (h : t.insert r = some t') :
    t.changes t' = [r] := by
  obtain ⟨fresh, rows⟩ := insert_eq_some.mp h
  have old : t.rows.filter (fun x => t.get (key x) ≠ some x) = [] := changes_self t
  have new : t.get (key r) ≠ some r := by
    rw [get_eq_none_iff.mpr fresh]
    simp
  rw [changes, rows, List.filter_append, old, List.nil_append]
  simp [new]

end Table

end Lib
