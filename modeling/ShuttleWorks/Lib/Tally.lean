import Mathlib.Algebra.Order.Group.Unbundled.Int
import Mathlib.Data.List.Dedup
import Mathlib.Data.List.Perm.Basic
import Mathlib.Data.List.Sort
import ShuttleWorks.Lib.Assoc

/-! Counting and picking while a list is gone through in some order: how often each key was met,
and for each key the value nearest to zero. What does not depend on the order. -/

namespace Lib

section

variable {n : Nat} {l : List Int}

theorem le_foldl_max {l : List Nat} {a : Nat} (h : n ≤ a ∨ n ∈ l) : n ≤ l.foldl max a := by
  induction l generalizing a with
  | nil => simpa using h
  | cons b l ih =>
    rw [List.foldl_cons]
    refine ih ?_
    rcases h with h | h
    · exact Or.inl (le_max_of_le_left h)
    · rcases List.mem_cons.mp h with rfl | h
      · exact Or.inl (le_max_right _ _)
      · exact Or.inr h

/-! ## Sorting by a key -/

section

variable {α κ : Type} [LinearOrder κ]

def sortBy (key : α → κ) (l : List α) : List α := l.insertionSort (fun a b => key a ≤ key b)

theorem sortBy_perm (key : α → κ) (l : List α) : (sortBy key l).Perm l :=
  List.perm_insertionSort _ l

theorem pairwise_sortBy (key : α → κ) (l : List α) :
    (sortBy key l).Pairwise fun a b => key a ≤ key b := by
  have : Std.Total fun a b : α => key a ≤ key b := ⟨fun a b => le_total _ _⟩
  have : IsTrans α fun a b => key a ≤ key b := ⟨fun _ _ _ => le_trans⟩
  exact List.pairwise_insertionSort _ l

theorem sortBy_congr {key : α → κ} {l l' : List α} (perm : l.Perm l')
    (apart : ∀ a ∈ l, ∀ b ∈ l, key a = key b → a = b) : sortBy key l = sortBy key l' := by
  refine List.Perm.eq_of_pairwise ?_ (pairwise_sortBy key l) (pairwise_sortBy key l')
    ((sortBy_perm key l).trans (perm.trans (sortBy_perm key l').symm))
  intro a b ha hb hab hba
  have ha := (sortBy_perm key l).mem_iff.mp ha
  have hb := perm.mem_iff.mpr ((sortBy_perm key l').mem_iff.mp hb)
  exact apart a ha b hb (le_antisymm hab hba)

end

/-! ## Counting -/

section

variable {κ : Type} [DecidableEq κ]

/-- `counts[key] += 1`. -/
def bump (counts : List (κ × Nat)) (k : κ) : List (κ × Nat) :=
  Assoc.set k ((Assoc.get k counts).getD 0 + 1) counts

def countEach (l : List κ) : List (κ × Nat) := l.foldl bump []

theorem get_foldl_bump (l : List κ) (counts : List (κ × Nat)) (k : κ) :
    (Assoc.get k (l.foldl bump counts)).getD 0 = (Assoc.get k counts).getD 0 + l.count k := by
  induction l generalizing counts with
  | nil => simp
  | cons a l ih =>
    rw [List.foldl_cons, ih, bump, Assoc.get_set, List.count_cons]
    by_cases same : a = k
    · subst same
      simp only [↓reduceIte, Option.getD_some, beq_self_eq_true]
      omega
    · simp [same]

theorem mem_keys_foldl_bump (l : List κ) (counts : List (κ × Nat)) (k : κ) :
    k ∈ Assoc.keys (l.foldl bump counts) ↔ k ∈ l ∨ k ∈ Assoc.keys counts := by
  induction l generalizing counts with
  | nil => simp
  | cons a l ih =>
    rw [List.foldl_cons, ih, bump, Assoc.mem_keys_set, List.mem_cons]
    tauto

theorem nodup_keys_foldl_bump (l : List κ) {counts : List (κ × Nat)}
    (h : (Assoc.keys counts).Nodup) : (Assoc.keys (l.foldl bump counts)).Nodup := by
  induction l generalizing counts with
  | nil => exact h
  | cons a l ih => exact ih (Assoc.nodup_keys_set h)

theorem nodup_keys_countEach (l : List κ) : (Assoc.keys (countEach l)).Nodup :=
  nodup_keys_foldl_bump l List.nodup_nil

/-- **Counting gives every key that occurs, with the number of its occurrences.** -/
theorem mem_countEach {l : List κ} {x : κ × Nat} : x ∈ countEach l ↔ x.1 ∈ l ∧ x.2 = l.count x.1 := by
  have count : ∀ k, (Assoc.get k (countEach l)).getD 0 = l.count k := fun k => by
    rw [countEach, get_foldl_bump]
    simp
  have keys : ∀ k, k ∈ Assoc.keys (countEach l) ↔ k ∈ l := fun k => by
    rw [countEach, mem_keys_foldl_bump]
    simp [Assoc.keys]
  obtain ⟨k, n⟩ := x
  constructor
  · intro h
    have found := Assoc.get_eq_some_of_mem (nodup_keys_countEach l) h
    refine ⟨(keys k).mp (List.mem_map_of_mem h), ?_⟩
    rw [← count k, found, Option.getD_some]
  · rintro ⟨hk, hn⟩
    cases found : Assoc.get k (countEach l) with
    | none => exact absurd ((keys k).mpr hk) (Assoc.get_eq_none_iff.mp found)
    | some m =>
      have same := count k
      rw [found, Option.getD_some] at same
      simp only at hn
      rw [hn, ← same]
      exact Assoc.mem_of_get found

theorem countEach_perm {l l' : List κ} (perm : l.Perm l') : (countEach l).Perm (countEach l') := by
  have nodup : ∀ l : List κ, (countEach l).Nodup := fun l => (nodup_keys_countEach l).of_map _
  refine (List.perm_ext_iff_of_nodup (nodup l) (nodup l')).mpr fun x => ?_
  rw [mem_countEach, mem_countEach, perm.mem_iff, perm.count_eq]

theorem count_flatMap {α : Type} {f : α → List κ} {l : List α} {k : κ} :
    (l.filter (fun a => k ∈ f a)).length ≤ (l.flatMap f).count k ∧
      ((l.flatMap f).count k = (l.filter (fun a => k ∈ f a)).length ↔
        ∀ a ∈ l, (f a).count k ≤ 1) := by
  induction l with
  | nil => simp
  | cons a l ih =>
    obtain ⟨least, exact⟩ := ih
    simp only [List.flatMap_cons, List.count_append, List.filter_cons, List.forall_mem_cons,
      decide_eq_true_eq]
    rw [← exact]
    by_cases member : k ∈ f a
    · have one : 0 < (f a).count k := List.count_pos_iff.mpr member
      simp only [member, ↓reduceIte, List.length_cons]
      omega
    · have none : (f a).count k = 0 := List.count_eq_zero.mpr member
      simp only [member, ↓reduceIte, none]
      omega

theorem mem_countEach_iff {l : List κ} {k : κ} :
    (k, n) ∈ countEach l ↔ 0 < n ∧ n = l.count k := by
  rw [mem_countEach]
  constructor
  · rintro ⟨hk, hn⟩
    have hn : n = l.count k := hn
    exact ⟨by rw [hn]; exact List.count_pos_iff.mpr hk, hn⟩
  · rintro ⟨pos, hn⟩
    rw [hn] at pos
    exact ⟨List.count_pos_iff.mp pos, hn⟩

end

/-! ## The value nearest to zero -/

def nearer (best d : Int) : Int := if d.natAbs < best.natAbs then d else best

def nearest : List Int → Option Int
  | [] => none
  | d :: rest => some (rest.foldl nearer d)

def Agree (l : List Int) : Prop := ∀ a ∈ l, ∀ b ∈ l, (∀ c ∈ l, a.natAbs ≤ c.natAbs) →
  (∀ c ∈ l, b.natAbs ≤ c.natAbs) → a = b

theorem foldl_nearer (l : List Int) (best : Int) :
    (l.foldl nearer best = best ∨ l.foldl nearer best ∈ l) ∧
      (l.foldl nearer best).natAbs ≤ best.natAbs ∧
      ∀ c ∈ l, (l.foldl nearer best).natAbs ≤ c.natAbs := by
  induction l generalizing best with
  | nil => simp
  | cons d l ih =>
    obtain ⟨member, least, below⟩ := ih (nearer best d)
    rw [List.foldl_cons]
    have step : nearer best d = best ∨ nearer best d = d := by
      unfold nearer
      split <;> simp
    have bound : (nearer best d).natAbs ≤ best.natAbs ∧ (nearer best d).natAbs ≤ d.natAbs := by
      unfold nearer
      split <;> omega
    refine ⟨?_, le_trans least bound.1, ?_⟩
    · rcases member with same | mem
      · rcases step with kept | taken
        · exact .inl (same.trans kept)
        · refine .inr ?_
          rw [same, taken]
          exact List.mem_cons_self
      · exact .inr (List.mem_cons_of_mem d mem)
    · intro c hc
      rcases List.mem_cons.mp hc with rfl | hc
      · exact le_trans least bound.2
      · exact below c hc

theorem nearest_spec {r : Int} (h : nearest l = some r) :
    r ∈ l ∧ ∀ c ∈ l, r.natAbs ≤ c.natAbs := by
  cases l with
  | nil => cases h
  | cons d rest =>
    cases h
    obtain ⟨member, least, below⟩ := foldl_nearer rest d
    refine ⟨?_, ?_⟩
    · rcases member with same | mem
      · simp [same]
      · exact List.mem_cons_of_mem d mem
    · intro c hc
      rcases List.mem_cons.mp hc with rfl | hc
      · exact least
      · exact below c hc

theorem nearest_cons {d : Int} {rest : List Int} (least : ∀ c ∈ rest, d.natAbs ≤ c.natAbs) :
    nearest (d :: rest) = some d := by
  have kept : rest.foldl nearer d = d := by
    induction rest with
    | nil => rfl
    | cons c rest ih =>
      rw [List.foldl_cons, nearer, if_neg (not_lt.mpr (least c List.mem_cons_self))]
      exact ih fun c hc => least c (List.mem_cons_of_mem _ hc)
  rw [nearest, kept]

theorem nearest_eq_of {l' : List Int} {f : Int → Int} (size : ∀ d, (f d).natAbs = d.natAbs)
    (perm : l'.Perm (l.map f)) (agree : Agree l) : nearest l' = (nearest l).map f := by
  cases found : nearest l with
  | none =>
    have nothing : l = [] := by
      cases l with
      | nil => rfl
      | cons d rest => cases found
    subst nothing
    rw [perm.eq_nil]
    rfl
  | some r =>
    obtain ⟨hr, least⟩ := nearest_spec found
    cases found' : nearest l' with
    | none =>
      have nothing : l' = [] := by
        cases l' with
        | nil => rfl
        | cons d rest => cases found'
      subst nothing
      have : l.map f = [] := perm.symm.eq_nil
      rw [List.map_eq_nil_iff.mp this] at hr
      cases hr
    | some r' =>
      obtain ⟨hr', least'⟩ := nearest_spec found'
      obtain ⟨d, hd, rfl⟩ := List.mem_map.mp (perm.mem_iff.mp hr')
      have other : ∀ c ∈ l, d.natAbs ≤ c.natAbs := fun c hc => by
        have := least' (f c) (perm.mem_iff.mpr (List.mem_map_of_mem hc))
        rwa [size, size] at this
      rw [agree d hd r hr other least, Option.map_some]

end

/-! ## Conflicts between neighbours after sorting, and within a group -/

variable {α κ ν : Type}

/-! ## Neighbours -/

def neighbours (l : List α) : List (α × α) := l.zip l.tail

theorem forall_neighbours {R : α → α → Prop} {l : List α} :
    (∀ x ∈ neighbours l, R x.1 x.2) ↔ l.IsChain R := by
  induction l with
  | nil => simp [neighbours]
  | cons a l ih =>
    cases l with
    | nil => simp [neighbours]
    | cons b l =>
      rw [List.isChain_cons_cons, ← ih]
      simp [neighbours]

section Sorted

variable {before : α → α → Prop} {le : α → α → Bool}

/-- **Neighbours suffice.** After sorting by an order that no element contradicts, it is enough to
compare every element with the next one. -/
theorem isChain_mergeSort_iff (trans_ : ∀ {a b c}, before a b → before b c → before a c)
    (le_trans_ : ∀ a b c, le a b = true → le b c = true → le a c = true)
    (le_total_ : ∀ a b, (le a b || le b a) = true)
    (later : ∀ {a b}, le a b = true → ¬ before b a) (l : List α) :
    (l.mergeSort le).IsChain before ↔ l.Pairwise fun a b => before a b ∨ before b a := by
  have transitive : Trans before before before := ⟨trans_⟩
  have either : ∀ {a b}, (before a b ∨ before b a) → before b a ∨ before a b := Or.symm
  have sorted : (l.mergeSort le).Pairwise fun a b => le a b = true :=
    List.pairwise_mergeSort le_trans_ le_total_ l
  rw [List.isChain_iff_pairwise, ← (List.mergeSort_perm l le).pairwise_iff either]
  constructor
  · exact fun h => h.imp Or.inl
  · intro h
    apply (h.and sorted).imp
    rintro a b ⟨h, le_⟩
    exact h.resolve_right (later le_)

end Sorted

theorem forall_pairwise {R : κ → α → α → Prop} {l : List α} :
    (∀ k, l.Pairwise (R k)) ↔ l.Pairwise fun a b => ∀ k, R k a b := by
  simp only [List.pairwise_iff_forall_sublist]
  exact ⟨fun h a b two k => h k two, fun h k a b two => h two k⟩

/-! ## Groups -/

variable [DecidableEq κ]

def pushTo (groups : List (κ × List ν)) (x : κ × ν) : List (κ × List ν) :=
  Assoc.set x.1 ((Assoc.get x.1 groups).getD [] ++ [x.2]) groups

def grouped (pushes : List (κ × ν)) : List (κ × List ν) := pushes.foldl pushTo []

def valuesOf (pushes : List (κ × ν)) (k : κ) : List ν :=
  (pushes.filter (fun x => x.1 = k)).map Prod.snd

theorem get_grouped (pushes : List (κ × ν)) (k : κ) :
    (Assoc.get k (grouped pushes)).getD [] = valuesOf pushes k := by
  suffices ∀ groups : List (κ × List ν), (Assoc.get k (pushes.foldl pushTo groups)).getD [] =
      (Assoc.get k groups).getD [] ++ valuesOf pushes k by simpa [grouped] using this []
  induction pushes with
  | nil => simp [valuesOf]
  | cons x pushes ih =>
    intro groups
    rw [List.foldl_cons, ih, pushTo, Assoc.get_set]
    by_cases same : x.1 = k
    · subst same
      simp [valuesOf]
    · simp [valuesOf, same]

theorem grouped_nodup (pushes : List (κ × ν)) : (Assoc.keys (grouped pushes)).Nodup := by
  suffices ∀ groups : List (κ × List ν), (Assoc.keys groups).Nodup →
      (Assoc.keys (pushes.foldl pushTo groups)).Nodup from this [] List.nodup_nil
  induction pushes with
  | nil => exact fun _ h => h
  | cons x pushes ih => exact fun groups h => ih _ (Assoc.nodup_keys_set h)

theorem forall_grouped {P : κ → List ν → Prop} (nothing : ∀ k, P k []) {pushes : List (κ × ν)} :
    (∀ x ∈ grouped pushes, P x.1 x.2) ↔ ∀ k, P k (valuesOf pushes k) := by
  constructor
  · intro h k
    rw [← get_grouped]
    cases found : Assoc.get k (grouped pushes) with
    | none => exact nothing k
    | some values => exact h (k, values) (Assoc.mem_of_get found)
  · rintro h ⟨k, values⟩ mem
    have found := Assoc.get_eq_some_of_mem (grouped_nodup pushes) mem
    have whole := get_grouped pushes k
    rw [found, Option.getD_some] at whole
    rw [whole]
    exact h k

theorem length_le_one_iff {l : List α} : l.length ≤ 1 ↔ l.Pairwise fun _ _ => False := by
  cases l with
  | nil => simp
  | cons a l =>
    cases l with
    | nil => simp
    | cons b l =>
      refine iff_of_false (by simp) fun h => ?_
      exact (List.pairwise_cons.mp h).1 b List.mem_cons_self

end Lib
