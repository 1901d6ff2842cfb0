import Mathlib.Data.List.Dedup
import Mathlib.Data.List.Sort
import ShuttleWorks.Lib.Dependency

/-! Lists of rows by coordinates: what stands at a row and a column, when no element
stands twice, and when the rows one after the other respect dependencies. -/

namespace Lib

section

variable {α β κ ρ : Type} {r m n : Nat}

/-- The element in column `m` of row `r`. -/
def At (rows : List (List α)) (r m : Nat) (a : α) : Prop :=
  ∃ row, rows[r]? = some row ∧ row[m]? = some a

theorem mem_flatten_iff_at {rows : List (List α)} {a : α} :
    a ∈ rows.flatten ↔ ∃ r m, At rows r m a := by
  rw [List.mem_flatten]
  constructor
  · rintro ⟨row, hrow, ha⟩
    obtain ⟨r, hr⟩ := List.getElem?_of_mem hrow
    obtain ⟨m, hm⟩ := List.getElem?_of_mem ha
    exact ⟨r, m, row, hr, hm⟩
  · rintro ⟨r, m, row, hr, hm⟩
    exact ⟨row, List.mem_of_getElem? hr, List.mem_of_getElem? hm⟩

theorem At.mem {rows : List (List α)} {a : α} (h : At rows r m a) :
    a ∈ rows.flatten :=
  mem_flatten_iff_at.mpr ⟨r, m, h⟩

theorem At.unique {rows : List (List α)} {a b : α} (h : At rows r m a) (h' : At rows r m b) :
    a = b := by
  obtain ⟨row, hr, hm⟩ := h
  obtain ⟨row', hr', hm'⟩ := h'
  rw [hr] at hr'
  cases hr'
  rw [hm] at hm'
  exact Option.some.inj hm'

theorem At.lt {rows : List (List α)} {a : α} (h : At rows r m a) : r < rows.length := by
  obtain ⟨row, hr, -⟩ := h
  exact (List.getElem?_eq_some_iff.mp hr).1

theorem At.place {key : α → κ} {rows : List (List α)} (unique : (rows.flatten.map key).Nodup)
    {r' m' : Nat} {a b : α} (h : At rows r m a) (h' : At rows r' m' b) (e : key a = key b) :
    r = r' ∧ m = m' := by
  obtain ⟨row, hr, hm⟩ := h
  obtain ⟨row', hr', hm'⟩ := h'
  obtain ⟨lt, rfl⟩ := List.getElem?_eq_some_iff.mp hr
  obtain ⟨lt', rfl⟩ := List.getElem?_eq_some_iff.mp hr'
  rw [List.map_flatten, List.nodup_flatten, List.pairwise_map] at unique
  obtain ⟨inRow, across⟩ := unique
  have apart : ∀ i j (hi : i < rows.length) (hj : j < rows.length), i < j →
      ∀ x ∈ rows[i], ∀ y ∈ rows[j], key x ≠ key y := by
    intro i j hi hj ij x hx y hy same
    exact List.pairwise_iff_getElem.mp across i j hi hj ij (List.mem_map_of_mem hx)
      (same ▸ List.mem_map_of_mem hy)
  rcases Nat.lt_trichotomy r r' with less | rfl | less
  · exact absurd e (apart r r' lt lt' less a (List.mem_of_getElem? hm) b
      (List.mem_of_getElem? hm'))
  · refine ⟨rfl, ?_⟩
    have nodup := inRow _ (List.mem_map_of_mem (List.getElem_mem lt))
    obtain ⟨within, rfl⟩ := List.getElem?_eq_some_iff.mp hm
    obtain ⟨within', rfl⟩ := List.getElem?_eq_some_iff.mp hm'
    have long : ∀ {i}, i < rows[r].length → i < (rows[r].map key).length := fun h => by
      rwa [List.length_map]
    have same : (rows[r].map key).get ⟨m, long within⟩ =
        (rows[r].map key).get ⟨m', long within'⟩ := by
      simpa using e
    exact congrArg Fin.val (nodup.injective_get same)
  · exact absurd e.symm (apart r' r lt' lt less b (List.mem_of_getElem? hm') a
      (List.mem_of_getElem? hm))

theorem At.tail {rows : List (List α)} {r m : Nat} {a : α} (h : At rows r m a) (hr : r ≠ 0) :
    ∃ row ∈ rows.tail, a ∈ row := by
  obtain ⟨row, hrow, hm⟩ := h
  cases rows with
  | nil => cases hrow
  | cons first rest =>
    cases r with
    | zero => exact absurd rfl hr
    | succ r => exact ⟨row, List.mem_of_getElem? hrow, List.mem_of_getElem? hm⟩

theorem exists_at_of_tail {rows : List (List α)} {row : List α} {a : α} (hrow : row ∈ rows.tail)
    (ha : a ∈ row) : ∃ r m, rows[r]? = some row ∧ r ≠ 0 ∧ At rows r m a := by
  obtain ⟨m, hm⟩ := List.getElem?_of_mem ha
  cases rows with
  | nil => cases hrow
  | cons first rest =>
    obtain ⟨r, hr⟩ := List.getElem?_of_mem hrow
    exact ⟨r + 1, m, hr, by omega, row, hr, hm⟩

theorem at_add {rows : List (List α)} {row : List α} {a x : α} :
    At (rows ++ [row ++ [a]]) r m x ↔
      At (rows ++ [row]) r m x ∨ (r = rows.length ∧ m = row.length ∧ x = a) := by
  simp only [At, List.getElem?_append]
  by_cases hr : r < rows.length
  · simp [hr, show r ≠ rows.length by omega]
  · by_cases last : r = rows.length
    · subst last
      by_cases hm : m < row.length
      · simp [List.getElem?_append, hm, show m ≠ row.length by omega]
      · by_cases here : m = row.length
        · subst here
          simp [eq_comm]
        · simp [List.getElem?_append, hm, here, show m - row.length ≠ 0 by omega]
    · simp [hr, last, show r - rows.length ≠ 0 by omega]

theorem at_concat_nil {rows : List (List α)} {x : α} :
    At (rows ++ [[]]) r m x ↔ At rows r m x := by
  simp only [At, List.getElem?_append]
  by_cases hr : r < rows.length
  · simp [hr]
  · simp only [hr, if_false]
    constructor
    · rintro ⟨row, hrow, hm⟩
      rw [List.getElem?_singleton] at hrow
      split at hrow
      · cases hrow
        simp at hm
      · cases hrow
    · rintro ⟨row, hrow, -⟩
      rw [List.getElem?_eq_none (by omega)] at hrow
      cases hrow

theorem at_map {f : α → β} {rows : List (List α)} {b : β} :
    At (rows.map fun row => row.map f) r m b ↔ ∃ a, At rows r m a ∧ f a = b := by
  simp only [At, List.getElem?_map, Option.map_eq_some_iff]
  constructor
  · rintro ⟨_, ⟨row, hr, rfl⟩, hm⟩
    rw [List.getElem?_map, Option.map_eq_some_iff] at hm
    obtain ⟨a, ha, rfl⟩ := hm
    exact ⟨a, ⟨row, hr, ha⟩, rfl⟩
  · rintro ⟨a, ⟨row, hr, ha⟩, rfl⟩
    exact ⟨_, ⟨row, hr, rfl⟩, by rw [List.getElem?_map, ha]; rfl⟩

theorem getElem?_range_eq_some {i j : Nat} : (List.range n)[i]? = some j ↔ i < n ∧ i = j := by
  by_cases h : i < n
  · simp [h]
  · simp [h]

theorem at_table {w : Nat → Nat} {f : Nat → Nat → α} {a : α} :
    At ((List.range n).map fun r => (List.range (w r)).map (f r)) r m a ↔
      r < n ∧ m < w r ∧ f r m = a := by
  simp only [At, List.getElem?_map, Option.map_eq_some_iff, getElem?_range_eq_some]
  constructor
  · rintro ⟨_, ⟨r', ⟨hr, rfl⟩, rfl⟩, hm⟩
    rw [List.getElem?_map, Option.map_eq_some_iff] at hm
    obtain ⟨m', hm, rfl⟩ := hm
    obtain ⟨hlt, rfl⟩ := getElem?_range_eq_some.mp hm
    exact ⟨hr, hlt, rfl⟩
  · rintro ⟨hr, hm, rfl⟩
    refine ⟨_, ⟨r, ⟨hr, rfl⟩, rfl⟩, ?_⟩
    rw [List.getElem?_map, getElem?_range_eq_some.mpr ⟨hm, rfl⟩]
    rfl

theorem nodup_flatten_of_at {rows : List (List α)}
    (h : ∀ r m r' m' a, At rows r m a → At rows r' m' a → r = r' ∧ m = m') :
    rows.flatten.Nodup := by
  rw [List.nodup_flatten]
  constructor
  · intro row hrow
    obtain ⟨r, hr⟩ := List.getElem?_of_mem hrow
    rw [List.nodup_iff_getElem?_ne_getElem?]
    intro m m' hm hm' e
    have stands : row[m]? = some row[m] := List.getElem?_eq_getElem (by omega)
    have := (h r m r m' row[m] ⟨row, hr, stands⟩ ⟨row, hr, e ▸ stands⟩).2
    omega
  · rw [List.pairwise_iff_getElem]
    intro r r' hr hr' lt a ha ha'
    obtain ⟨m, hm⟩ := List.getElem?_of_mem ha
    obtain ⟨m', hm'⟩ := List.getElem?_of_mem ha'
    have := (h r m r' m' a ⟨_, List.getElem?_eq_getElem hr, hm⟩
      ⟨_, List.getElem?_eq_getElem hr', hm'⟩).1
    omega

theorem Ordered.row {key : ρ → κ} {deps : ρ → List κ} {row : List ρ} {seen : List κ}
    (h : ∀ (m : Nat) x, row[m]? = some x → ∀ d ∈ deps x,
      d ∈ seen ∨ ∃ m' < m, ∃ y, row[m']? = some y ∧ key y = d) : Ordered key deps seen row := by
  induction row generalizing seen with
  | nil => trivial
  | cons x row ih =>
    constructor
    · intro d hd
      rcases h 0 x rfl d hd with hd | ⟨m', lt, -⟩
      · exact hd
      · omega
    · apply ih
      intro m y hy d hd
      rcases h (m + 1) y hy d hd with hd | ⟨m', lt, z, hz, rfl⟩
      · exact .inl (List.mem_cons_of_mem _ hd)
      · cases m' with
        | zero =>
          cases hz
          exact .inl List.mem_cons_self
        | succ m' => exact .inr ⟨m', by omega, z, hz, rfl⟩

theorem Ordered.flatten_of_before {key : ρ → κ} {deps : ρ → List κ} {rows : List (List ρ)}
    {seen : List κ} (h : ∀ r m x, At rows r m x → ∀ d ∈ deps x,
      d ∈ seen ∨ ∃ r' m' y, (r' < r ∨ (r' = r ∧ m' < m)) ∧ At rows r' m' y ∧ key y = d) :
    Ordered key deps seen rows.flatten := by
  induction rows generalizing seen with
  | nil => trivial
  | cons row rows ih =>
    rw [List.flatten_cons]
    refine Ordered.append (Ordered.row ?_) (ih ?_)
    · intro m x hm d hd
      rcases h 0 m x ⟨row, rfl, hm⟩ d hd with
        hd | ⟨r', m', y, before, ⟨row', hr, hm'⟩, e⟩
      · exact .inl hd
      · obtain ⟨rfl, lt⟩ := before.resolve_left (Nat.not_lt_zero r')
        cases hr
        exact .inr ⟨m', lt, y, hm', e⟩
    · intro r m x hx d hd
      obtain ⟨row', hr, hm⟩ := hx
      rw [List.mem_append]
      rcases h (r + 1) m x ⟨row', hr, hm⟩ d hd with
        hd | ⟨r', m', y, lt, ⟨row'', hr'', hm''⟩, rfl⟩
      · exact .inl (.inr hd)
      · cases r' with
        | zero =>
          cases hr''
          exact .inl (.inl (List.mem_map_of_mem (List.mem_of_getElem? hm'')))
        | succ r' => exact .inr ⟨r', m', y, by omega, ⟨row'', hr'', hm''⟩, rfl⟩

theorem Ordered.flatten {key : ρ → κ} {deps : ρ → List κ} {rows : List (List ρ)} {seen : List κ}
    (h : ∀ r m x, At rows r m x → ∀ d ∈ deps x,
      d ∈ seen ∨ ∃ r' < r, ∃ m' y, At rows r' m' y ∧ key y = d) :
    Ordered key deps seen rows.flatten := by
  apply Ordered.flatten_of_before
  intro r m x hx d hd
  rcases h r m x hx d hd with hd | ⟨r', lt, m', y, hy, e⟩
  · exact .inl hd
  · exact .inr ⟨r', m', y, .inl lt, hy, e⟩

end

/-! ## Rows written down

Element by element, each with its row and its column, and read back in whatever order they come:
the rows that are not empty return. -/

variable {α : Type}

theorem insertionSort_eq_of_perm {r s : α → α → Prop} [DecidableRel r] [Std.Total r] [IsTrans α r]
    (weaken : ∀ a b, s a b → r a b) (strict : ∀ a b, s a b → ¬ r b a) {l l' : List α}
    (perm : l.Perm l') (sorted : l'.Pairwise s) : l.insertionSort r = l' := by
  refine List.Perm.eq_of_pairwise ?_ (List.pairwise_insertionSort r l)
    (sorted.imp (fun h => weaken _ _ h)) ((List.perm_insertionSort r l).trans perm)
  intro a b ha hb hab hba
  have ha : a ∈ l' := ((List.perm_insertionSort r l).trans perm).mem_iff.mp ha
  by_contra hne
  -- distinct elements of a strictly sorted list are related one way only
  obtain ⟨i, hi, rfl⟩ := List.mem_iff_getElem.mp ha
  obtain ⟨j, hj, rfl⟩ := List.mem_iff_getElem.mp hb
  rcases Nat.lt_trichotomy i j with lt | eq | gt
  · exact strict _ _ (List.pairwise_iff_getElem.mp sorted i j hi hj lt) hba
  · subst eq
    exact hne rfl
  · exact strict _ _ (List.pairwise_iff_getElem.mp sorted j i hj hi gt) hab

variable {r m : Nat}

section regroup

variable [LinearOrder α]

def columnLe (p q : Nat × α) : Prop := p.1 < q.1 ∨ (p.1 = q.1 ∧ p.2 ≤ q.2)

instance : DecidableRel (columnLe (α := α)) := fun _ _ => inferInstanceAs (Decidable (_ ∨ _))

instance : Std.Total (columnLe (α := α)) where
  total p q := by
    rcases Nat.lt_trichotomy p.1 q.1 with lt | eq | gt
    · exact Or.inl (Or.inl lt)
    · rcases le_total p.2 q.2 with h | h
      · exact Or.inl (Or.inr ⟨eq, h⟩)
      · exact Or.inr (Or.inr ⟨eq.symm, h⟩)
    · exact Or.inr (Or.inl gt)

instance : IsTrans (Nat × α) columnLe where
  trans p q r hpq hqr := by
    rcases hpq with h | ⟨e, h⟩ <;> rcases hqr with h' | ⟨e', h'⟩
    · exact Or.inl (by omega)
    · exact Or.inl (by omega)
    · exact Or.inl (by omega)
    · exact Or.inr ⟨by omega, h.trans h'⟩

/-- The elements of row `r` with their columns. -/
def bucket (entries : List (Nat × Nat × α)) (r : Nat) : List (Nat × α) :=
  (entries.filter fun e => e.1 = r).map Prod.snd

def regroup (entries : List (Nat × Nat × α)) : List (List α) :=
  ((entries.map Prod.fst).dedup.insertionSort (· ≤ ·)).map fun r =>
    ((bucket entries r).insertionSort columnLe).map Prod.snd

variable {entries : List (Nat × Nat × α)} {rows : List (List α)}

omit [LinearOrder α] in
theorem mem_bucket {a : α} : (m, a) ∈ bucket entries r ↔ (r, m, a) ∈ entries := by
  simp only [bucket, List.mem_map, List.mem_filter, decide_eq_true_eq]
  constructor
  · rintro ⟨⟨r', e⟩, ⟨he, rfl⟩, rfl⟩
    exact he
  · intro he
    exact ⟨_, ⟨he, rfl⟩, rfl⟩

theorem sorted_bucket (nodup : entries.Nodup) (places : ∀ r m a, (r, m, a) ∈ entries ↔ At rows r m a)
    (r : Nat) : ((bucket entries r).insertionSort columnLe).map Prod.snd = rows.getD r [] := by
  have unique : (bucket entries r).Nodup := by
    refine List.Nodup.map_on ?_ (nodup.filter _)
    rintro ⟨r₁, e₁⟩ h₁ ⟨r₂, e₂⟩ h₂ e
    rw [List.mem_filter, decide_eq_true_eq] at h₁ h₂
    obtain ⟨-, rfl⟩ := h₁
    obtain ⟨-, same⟩ := h₂
    exact Prod.ext same.symm e
  have ascending : ((rows.getD r []).zipIdx.map fun q => (q.2, q.1)).Pairwise
      fun p q : Nat × α => p.1 < q.1 := by
    refine List.pairwise_map.mpr (List.pairwise_iff_getElem.mpr (fun i j hi hj lt => ?_))
    simp only [List.getElem_zipIdx]
    omega
  have perm : (bucket entries r).Perm ((rows.getD r []).zipIdx.map fun q => (q.2, q.1)) := by
    refine (List.perm_ext_iff_of_nodup unique (ascending.imp ?_)).mpr ?_
    · rintro p q lt rfl
      omega
    · rintro ⟨m, a⟩
      rw [mem_bucket, places, At]
      simp only [List.mem_map, Prod.mk.injEq, Prod.exists, List.mem_zipIdx_iff_getElem?]
      constructor
      · rintro ⟨row, hr, hm⟩
        exact ⟨a, m, by simpa [hr] using hm, rfl, rfl⟩
      · rintro ⟨a', m', h, rfl, rfl⟩
        cases hr : rows[r]? with
        | none => simp [hr] at h
        | some row => exact ⟨row, rfl, by simpa [hr] using h⟩
  rw [insertionSort_eq_of_perm (r := columnLe) (fun _ _ => Or.inl) ?_ perm ascending, List.map_map]
  · show ((rows.getD r []).zipIdx.map Prod.fst) = _
    simp
  · rintro p q lt (h | ⟨h, -⟩) <;> omega

/-- **Regrouping gives back the rows that are not empty.** -/
theorem regroup_eq (nodup : entries.Nodup)
    (places : ∀ r m a, (r, m, a) ∈ entries ↔ At rows r m a) :
    regroup entries = rows.filter fun row => row ≠ [] := by
  have keys : ((entries.map Prod.fst).dedup.insertionSort (· ≤ ·)) =
      (List.range rows.length).filter fun r => rows.getD r [] ≠ [] := by
    have ascending := List.pairwise_lt_range (n := rows.length) |>.filter
      fun r => decide (rows.getD r [] ≠ [])
    refine insertionSort_eq_of_perm (s := (· < ·)) (fun _ _ => Nat.le_of_lt)
      (fun _ _ => Nat.not_le_of_lt) ?_ ascending
    refine (List.perm_ext_iff_of_nodup (List.nodup_dedup _) (ascending.imp Nat.ne_of_lt)).mpr ?_
    intro r
    simp only [List.mem_dedup, List.mem_map, List.mem_filter, List.mem_range, decide_eq_true_eq]
    constructor
    · rintro ⟨⟨r, m, a⟩, he, rfl⟩
      obtain ⟨row, hr, hm⟩ := (places r m a).mp he
      refine ⟨(List.getElem?_eq_some_iff.mp hr).1, ?_⟩
      rw [List.getD_eq_getElem?_getD, hr, Option.getD_some]
      rintro rfl
      simp at hm
    · rintro ⟨lt, hne⟩
      obtain ⟨a, l, hrow⟩ := List.exists_cons_of_ne_nil hne
      refine ⟨(r, 0, a), (places r 0 a).mpr ⟨rows.getD r [], ?_, by rw [hrow]; rfl⟩, rfl⟩
      simp [lt]
  have all : rows = (List.range rows.length).map fun r => rows.getD r [] := by
    refine List.ext_getElem (by simp) (fun i h h' => ?_)
    simp [h]
  rw [regroup, keys, List.map_congr_left (fun r _ => sorted_bucket nodup places r)]
  conv_rhs => rw [all, List.filter_map]
  rfl

end regroup

theorem findSome?_eq_of_forall {β γ : Type} {f : β → Option γ} {l : List β} {c : Option γ}
    (some : l ≠ []) (h : ∀ b ∈ l, f b = c) : l.findSome? f = c := by
  cases c with
  | none => exact List.findSome?_eq_none_iff.mpr h
  | some c =>
    cases l with
    | nil => exact absurd rfl some
    | cons b l => simp [h b List.mem_cons_self]

/-! ## Writing rows down -/

def entries (rows : List (List α)) : List (Nat × Nat × α) :=
  rows.zipIdx.flatMap fun p => p.1.zipIdx.map fun q => (p.2, q.2, q.1)

theorem mem_entries {rows : List (List α)} {a : α} :
    (r, m, a) ∈ entries rows ↔ At rows r m a := by
  simp only [entries, List.mem_flatMap, List.mem_map, At]
  constructor
  · rintro ⟨⟨row, r'⟩, hr, ⟨a', m'⟩, hm, e⟩
    cases e
    exact ⟨row, List.mem_zipIdx_iff_getElem?.mp hr, List.mem_zipIdx_iff_getElem?.mp hm⟩
  · rintro ⟨row, hr, hm⟩
    exact ⟨(row, r), List.mem_zipIdx_iff_getElem?.mpr hr, (a, m),
      List.mem_zipIdx_iff_getElem?.mpr hm, rfl⟩

theorem entries_elements (rows : List (List α)) :
    (entries rows).map (fun e => e.2.2) = rows.flatten := by
  have row : ∀ p : List α × Nat,
      (p.1.zipIdx.map fun q => (p.2, q.2, q.1)).map (fun e : Nat × Nat × α => e.2.2) = p.1 := by
    intro p
    rw [List.map_map]
    show p.1.zipIdx.map Prod.fst = _
    simp
  rw [entries, List.map_flatMap, List.flatMap_congr (fun p _ => row p), List.flatMap_def]
  simp

end Lib
