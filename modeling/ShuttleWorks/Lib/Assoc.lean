import Mathlib.Data.List.Basic

/-! Insertion-ordered dictionaries as lists of pairs: a write replaces the
value where the key stands or appends the pair, a merge writes the right-hand
pairs one after the other. -/

namespace Lib

section

variable {α : Type} (p : α → Prop) [DecidablePred p] (l : List α)

-- on the characters of a text the search for instances would find all characters first
instance (priority := 1100) decidableForallMem : Decidable (∀ a ∈ l, p a) := List.decidableBAll p l

instance (priority := 1100) decidableExistsMem : Decidable (∃ a ∈ l, p a) := List.decidableBEx p l

end

namespace Assoc

variable {κ ν : Type} [DecidableEq κ]

/-- The value under `k`. -/
def get (k : κ) : List (κ × ν) → Option ν
  | [] => none
  | (k', v) :: l => if k' = k then some v else get k l

/-- `d[k] = v`. -/
def set (k : κ) (v : ν) : List (κ × ν) → List (κ × ν)
  | [] => [(k, v)]
  | (k', v') :: l => if k' = k then (k, v) :: l else (k', v') :: set k v l

/-- `{**l, **m}`. -/
def merge (l m : List (κ × ν)) : List (κ × ν) := m.foldl (fun acc p => set p.1 p.2 acc) l

/-- Every pair but those under `k`. -/
def erase (k : κ) (l : List (κ × ν)) : List (κ × ν) := l.filter (fun p => p.1 ≠ k)

def keys (l : List (κ × ν)) : List κ := l.map Prod.fst

@[simp] theorem get_nil (k : κ) : get k ([] : List (κ × ν)) = none := rfl

@[simp] theorem get_cons (k k' : κ) (v : ν) (l : List (κ × ν)) :
    get k ((k', v) :: l) = if k' = k then some v else get k l := rfl

@[simp] theorem set_cons (k k' : κ) (v v' : ν) (l : List (κ × ν)) :
    set k v ((k', v') :: l) = if k' = k then (k, v) :: l else (k', v') :: set k v l := rfl

theorem get_set (k k' : κ) (v : ν) (l : List (κ × ν)) :
    get k' (set k v l) = if k = k' then some v else get k' l := by
  induction l with
  | nil => simp [set]
  | cons p l ih =>
    obtain ⟨a, b⟩ := p
    by_cases h : a = k
    · subst h
      by_cases h' : a = k' <;> simp [h']
    · by_cases h' : a = k'
      · subst h'
        simp [h, Ne.symm h]
      · simp [h, h', ih]

@[simp] theorem get_set_self (k : κ) (v : ν) (l : List (κ × ν)) : get k (set k v l) = some v := by
  simp [get_set]

theorem get_set_of_ne {k k' : κ} (h : k ≠ k') (v : ν) (l : List (κ × ν)) :
    get k' (set k v l) = get k' l := by
  simp [get_set, h]

theorem mem_of_mem_set {k : κ} {v : ν} {l : List (κ × ν)} {p : κ × ν} (h : p ∈ set k v l) :
    p = (k, v) ∨ p ∈ l := by
  induction l with
  | nil => exact .inl (List.mem_singleton.mp h)
  | cons q l ih =>
    obtain ⟨k', v'⟩ := q
    rw [set_cons] at h
    split at h
    · exact (List.mem_cons.mp h).imp_right fun h => List.mem_cons_of_mem _ h
    · rcases List.mem_cons.mp h with rfl | h
      · exact .inr List.mem_cons_self
      · exact (ih h).imp_right fun h => List.mem_cons_of_mem _ h

theorem mem_keys_set {k k' : κ} {v : ν} {l : List (κ × ν)} :
    k' ∈ keys (set k v l) ↔ k' = k ∨ k' ∈ keys l := by
  induction l with
  | nil => simp [set, keys]
  | cons p l ih =>
    obtain ⟨a, b⟩ := p
    by_cases h : a = k
    · subst h
      simp [keys]
    · simp only [keys, set_cons, if_neg h, List.map_cons, List.mem_cons] at ih ⊢
      rw [ih]
      exact or_left_comm

theorem nodup_keys_set {k : κ} {v : ν} {l : List (κ × ν)} (h : (keys l).Nodup) :
    (keys (set k v l)).Nodup := by
  induction l with
  | nil => simp [set, keys]
  | cons p l ih =>
    obtain ⟨a, b⟩ := p
    simp only [keys, List.map_cons, List.nodup_cons] at h
    by_cases e : a = k
    · subst e
      simpa [keys] using h
    · rw [set_cons, if_neg e]
      refine List.nodup_cons.mpr ⟨?_, ih h.2⟩
      intro mem
      rcases mem_keys_set.mp mem with mem | mem
      · exact e mem
      · exact h.1 mem

@[simp] theorem merge_nil (l : List (κ × ν)) : merge l [] = l := rfl

theorem merge_cons (l m : List (κ × ν)) (k : κ) (v : ν) :
    merge l ((k, v) :: m) = merge (set k v l) m := rfl

theorem get_merge_of_not_mem {k : κ} {m : List (κ × ν)} (h : k ∉ keys m) (l : List (κ × ν)) :
    get k (merge l m) = get k l := by
  induction m generalizing l with
  | nil => rfl
  | cons p m ih =>
    obtain ⟨a, b⟩ := p
    simp only [keys, List.map_cons, List.mem_cons, not_or] at h
    rw [merge_cons, ih h.2, get_set_of_ne (Ne.symm h.1)]

theorem get_merge_of_mem {k : κ} {m : List (κ × ν)} (hm : (keys m).Nodup) {v : ν}
    (h : (k, v) ∈ m) (l : List (κ × ν)) : get k (merge l m) = some v := by
  induction m generalizing l with
  | nil => simp at h
  | cons p m ih =>
    obtain ⟨a, b⟩ := p
    simp only [keys, List.map_cons, List.nodup_cons] at hm
    rw [merge_cons]
    rcases List.mem_cons.mp h with h | h
    · cases h
      rw [get_merge_of_not_mem hm.1, get_set_self]
    · exact ih hm.2 h _

theorem get_filter (q : κ → Bool) (k : κ) (l : List (κ × ν)) :
    get k (l.filter fun p => q p.1) = if q k then get k l else none := by
  induction l with
  | nil => simp
  | cons p l ih =>
    obtain ⟨a, b⟩ := p
    rw [List.filter_cons]
    by_cases ha : a = k
    · subst ha
      by_cases hq : q a
      · simp [hq]
      · simp [hq, ih]
    · by_cases hq : q a
      · rw [if_pos hq, get_cons, if_neg ha, ih, get_cons, if_neg ha]
      · rw [if_neg hq, ih, get_cons, if_neg ha]

theorem get_erase_of_ne {k k' : κ} (h : k ≠ k') (l : List (κ × ν)) :
    get k' (erase k l) = get k' l := by
  rw [erase, get_filter (fun k' => decide (k' ≠ k)), if_pos (decide_eq_true h.symm)]

theorem get_eq_some_of_mem {k : κ} {v : ν} {l : List (κ × ν)} (hl : (keys l).Nodup)
    (h : (k, v) ∈ l) : get k l = some v := by
  induction l with
  | nil => simp at h
  | cons p l ih =>
    obtain ⟨a, b⟩ := p
    simp only [keys, List.map_cons, List.nodup_cons] at hl
    rcases List.mem_cons.mp h with h | h
    · cases h
      simp
    · have : a ≠ k := fun e => hl.1 (e ▸ List.mem_map_of_mem (f := Prod.fst) h)
      simp [this, ih hl.2 h]

theorem mem_of_get {k : κ} {v : ν} {l : List (κ × ν)} (h : get k l = some v) : (k, v) ∈ l := by
  induction l with
  | nil => simp at h
  | cons p l ih =>
    obtain ⟨a, b⟩ := p
    rw [get_cons] at h
    split at h
    · next e => cases h; subst e; simp
    · exact List.mem_cons_of_mem _ (ih h)

theorem get_eq_none_iff {k : κ} {l : List (κ × ν)} : get k l = none ↔ k ∉ keys l := by
  induction l with
  | nil => simp [keys]
  | cons p l ih =>
    obtain ⟨a, b⟩ := p
    by_cases h : a = k
    · simp [keys, h]
    · simp only [keys, get_cons, h, ↓reduceIte, List.map_cons, List.mem_cons, not_or] at ih ⊢
      rw [ih]
      exact ⟨fun hl => ⟨Ne.symm h, hl⟩, And.right⟩

end Assoc

/-! ## A board

A dictionary from cells to whoever stands on them. Every row covers some cells, and a later row
takes over the cells it shares with an earlier one. -/

variable {κ ι ρ : Type} [DecidableEq κ]

/-- `who` takes all of the cells. -/
def occupy (who : ι) (cells : List κ) (board : List (κ × ι)) : List (κ × ι) :=
  cells.foldl (fun board cell => Assoc.set cell who board) board

theorem get_occupy (who : ι) (cells : List κ) (board : List (κ × ι)) (c : κ) :
    Assoc.get c (occupy who cells board) = if c ∈ cells then some who else Assoc.get c board := by
  induction cells generalizing board with
  | nil => simp [occupy]
  | cons cell cells ih =>
    have tail := ih (Assoc.set cell who board)
    rw [occupy] at tail ⊢
    rw [List.foldl_cons, tail, Assoc.get_set]
    by_cases mem : c ∈ cells
    · simp [mem]
    · by_cases e : cell = c
      · simp [e]
      · simp [mem, e, Ne.symm e]

/-- The board shows the rows: each cell of a row is taken, and whoever is on a cell has it. -/
structure Occupied (key : ρ → ι) (cells : ρ → List κ) (rows : List ρ) (board : List (κ × ι)) :
    Prop where
  held : ∀ r ∈ rows, ∀ c ∈ cells r, ∃ who, Assoc.get c board = some who
  written : ∀ c who, Assoc.get c board = some who → ∃ r ∈ rows, key r = who ∧ c ∈ cells r

namespace Occupied

variable {key : ρ → ι} {cells : ρ → List κ} {rows rows' : List ρ} {board : List (κ × ι)} {r : ρ}

theorem empty : Occupied key cells [] [] := by
  constructor
  · simp
  · simp

theorem occupy (h : Occupied key cells rows board) (mem : ∀ x, x ∈ rows' ↔ x = r ∨ x ∈ rows) :
    Occupied key cells rows' (occupy (key r) (cells r) board) := by
  constructor
  · intro x hx c hc
    rw [get_occupy]
    split
    · exact ⟨_, rfl⟩
    next other =>
    rcases (mem x).mp hx with rfl | hx
    · exact absurd hc other
    · exact h.held x hx c hc
  · intro c who hw
    rw [get_occupy] at hw
    split at hw
    · next mine =>
      cases hw
      exact ⟨r, (mem r).mpr (.inl rfl), rfl, mine⟩
    · obtain ⟨x, hx, e, hc⟩ := h.written c who hw
      exact ⟨x, (mem x).mpr (.inr hx), e, hc⟩

theorem free (h : Occupied key cells rows board) {c : κ} (none : Assoc.get c board = none)
    (hr : r ∈ rows) : c ∉ cells r := by
  intro hc
  obtain ⟨who, taken⟩ := h.held r hr c hc
  rw [none] at taken
  cases taken

theorem own (h : Occupied key cells rows board) (hr : r ∈ rows)
    (sole : ∀ x ∈ rows, key x ≠ key r → ∀ c ∈ cells r, c ∉ cells x) {c : κ} (hc : c ∈ cells r) :
    Assoc.get c board = some (key r) := by
  obtain ⟨who, taken⟩ := h.held r hr c hc
  obtain ⟨x, hx, rfl, hc'⟩ := h.written c who taken
  by_contra other
  refine sole x hx ?_ c hc hc'
  intro e
  exact other (e ▸ taken)

end Occupied

end Lib
