import Mathlib.Data.List.Perm.Basic
import Mathlib.Order.Nat
import Mathlib.Order.Lattice

/-! A binary heap in a list: the children of place `i` are the places `2 * i + 1` and
`2 * i + 2`, and nobody's key is below the key of their parent. An element is pushed at the end
and rises; the first one is replaced by an element that sinks to a leaf and rises from there. -/

namespace Lib.Heap

variable {α κ : Type} {l : List α} {i j k n : Nat}

/-! ## Exchanging two elements -/

def swap (l : List α) (i j : Nat) : List α :=
  match l[i]?, l[j]? with
  | some a, some b => (l.set i b).set j a
  | _, _ => l

theorem swap_eq (hi : i < l.length) (hj : j < l.length) :
    swap l i j = (l.set i l[j]).set j l[i] := by
  simp [swap, hi, hj]

theorem swap_perm (l : List α) (i j : Nat) : (swap l i j).Perm l := by
  by_cases hi : i < l.length
  · by_cases hj : j < l.length
    · rw [swap_eq hi hj]
      exact List.set_set_perm hi hj
    · simp [swap, hj]
  · simp [swap, hi]

@[simp] theorem length_swap (l : List α) (i j : Nat) : (swap l i j).length = l.length :=
  (swap_perm l i j).length_eq

def partner (i j k : Nat) : Nat := if k = i then j else if k = j then i else k

theorem getElem?_swap (hi : i < l.length) (hj : j < l.length) (k : Nat) :
    (swap l i j)[k]? = l[partner i j k]? := by
  rw [swap_eq hi hj, List.getElem?_set, List.getElem?_set]
  unfold partner
  by_cases hkj : j = k
  · subst hkj
    by_cases hki : j = i
    · subst hki
      simp [hi]
    · simp [hki, hi, hj]
  · by_cases hki : i = k
    · subst hki
      simp [hkj, hi, hj]
    · simp [hkj, hki, Ne.symm hki, Ne.symm hkj]

/-! ## Order between places -/

section

variable [LinearOrder κ] {key : α → κ}

/-- Where both places are taken, the first has the smaller key or an equal one. -/
def Le (key : α → κ) (l : List α) (i j : Nat) : Prop :=
  ∀ a ∈ l[i]?, ∀ b ∈ l[j]?, key a ≤ key b

def Less (key : α → κ) (l : List α) (i j : Nat) : Prop :=
  ∃ a ∈ l[i]?, ∃ b ∈ l[j]?, key a < key b

instance (key : α → κ) (l : List α) (i j : Nat) : Decidable (Less key l i j) :=
  match ha : l[i]?, hb : l[j]? with
  | some a, some b => decidable_of_iff (key a < key b) (by simp [Less, ha, hb])
  | none, _ => isFalse (by simp [Less, ha])
  | _, none => isFalse (by simp [Less, hb])

theorem Less.le (h : Less key l i j) : Le key l i j := by
  obtain ⟨a, ha, b, hb, less⟩ := h
  intro a' ha' b' hb'
  rw [Option.mem_unique ha' ha, Option.mem_unique hb' hb]
  exact less.le

theorem le_of_not_less (h : ¬ Less key l i j) : Le key l j i := by
  intro b hb a ha
  refine le_of_not_gt fun less => h ⟨a, ha, b, hb, less⟩

theorem Le.trans (h : Le key l i j) (h' : Le key l j k) (mid : j < l.length) : Le key l i k := by
  intro a ha c hc
  have hb : l[j] ∈ l[j]? := List.getElem?_eq_getElem mid
  exact (h a ha _ hb).trans (h' _ hb c hc)

theorem le_of_length_le (h : l.length ≤ j) : Le key l i j := by
  intro a _ b hb
  rw [List.getElem?_eq_none h] at hb
  cases hb

theorem le_swap (hi : i < l.length) (hj : j < l.length) {x y : Nat} :
    Le key (swap l i j) x y ↔ Le key l (partner i j x) (partner i j y) := by
  unfold Le
  rw [getElem?_swap hi hj, getElem?_swap hi hj]

def parent (i : Nat) : Nat := (i - 1) / 2

theorem parent_lt (h : 0 < i) : parent i < i := by
  unfold parent
  omega

def Ordered (key : α → κ) (l : List α) : Prop := ∀ i, 0 < i → Le key l (parent i) i

theorem Ordered.first_le {top : α} {rest : List α} (h : Ordered key (top :: rest)) :
    ∀ b ∈ top :: rest, key top ≤ key b := by
  have reach : ∀ i, Le key (top :: rest) 0 i := by
    intro i
    induction i using Nat.strongRecOn with
    | ind i ih =>
      rcases Nat.eq_zero_or_pos i with rfl | pos
      · intro a ha b hb
        rw [Option.mem_unique ha hb]
      · by_cases inside : i < (top :: rest).length
        · exact (ih _ (parent_lt pos)).trans (h i pos) ((parent_lt pos).trans inside)
        · exact le_of_length_le (not_lt.mp inside)
  intro b mem
  obtain ⟨i, hi⟩ := List.mem_iff_getElem?.mp mem
  exact reach i top rfl b hi

/-! ## Rising -/

/-- `_siftdown`: the element moves to its parent's place as long as its key is smaller. The first
argument bounds the exchanges. -/
def siftdown (key : α → κ) : Nat → List α → Nat → List α
  | 0, l, _ => l
  | n + 1, l, i =>
    if 0 < i ∧ Less key l i (parent i) then siftdown key n (swap l i (parent i)) (parent i) else l

theorem siftdown_perm (key : α → κ) (n : Nat) (l : List α) (i : Nat) :
    (siftdown key n l i).Perm l := by
  induction n generalizing l i with
  | zero => rfl
  | succ n ih =>
    unfold siftdown
    split
    · exact (ih _ _).trans (swap_perm ..)
    · rfl

/-- Only the element at one place may be out of order, with its parent; its children may have
that parent instead. -/
structure Rising (key : α → κ) (l : List α) (i : Nat) : Prop where
  order : ∀ j, 0 < j → j ≠ i → Le key l (parent j) j
  below : 0 < i → ∀ j, 0 < j → parent j = i → Le key l (parent i) j

theorem Rising.swap (h : Rising key l i) (pos : 0 < i) (inside : i < l.length)
    (less : Less key l i (parent i)) : Rising key (Heap.swap l i (parent i)) (parent i) := by
  have up := parent_lt pos
  have inside' := up.trans inside
  constructor
  · intro j hj ne
    rw [le_swap inside inside']
    by_cases same : j = i
    · subst same
      simpa [partner, up.ne] using less.le
    · by_cases child : parent j = i
      · have := h.below pos j hj child
        simpa [partner, child, same, ne] using this
      · by_cases sibling : parent j = parent i
        · have := less.le.trans (sibling ▸ h.order j hj same) inside'
          simpa [partner, sibling, same, ne, up.ne] using this
        · simpa [partner, child, sibling, same, ne] using h.order j hj same
  · intro pos' j hj child
    have up' := parent_lt pos'
    have first := h.order (parent i) pos' up.ne
    rw [le_swap inside inside']
    by_cases same : j = i
    · subst same
      simpa [partner, up'.ne, (up'.trans up).ne] using first
    · have ne : j ≠ parent i := by
        have := parent_lt hj
        omega
      have := first.trans (child ▸ h.order j hj same) inside'
      simpa [partner, up'.ne, (up'.trans up).ne, same, ne] using this

theorem siftdown_ordered (h : Rising key l i) (inside : i < l.length) (enough : i ≤ n) :
    Ordered key (siftdown key n l i) := by
  induction n generalizing l i with
  | zero =>
    intro j hj
    exact h.order j hj (by omega)
  | succ n ih =>
    unfold siftdown
    by_cases rise : 0 < i ∧ Less key l i (parent i)
    · obtain ⟨pos, less⟩ := rise
      rw [if_pos ⟨pos, less⟩]
      have up := parent_lt pos
      refine ih (h.swap pos inside less) ?_ (by omega)
      rw [length_swap]
      exact up.trans inside
    · rw [if_neg rise]
      intro j hj
      by_cases same : j = i
      · subst same
        exact le_of_not_less fun less => rise ⟨hj, less⟩
      · exact h.order j hj same

/-! ## Sinking -/

/-- The child that takes a place: the right one unless the left one is smaller. -/
def child (key : α → κ) (l : List α) (i : Nat) : Nat :=
  if 2 * i + 2 < l.length ∧ ¬ Less key l (2 * i + 1) (2 * i + 2) then 2 * i + 2 else 2 * i + 1

theorem parent_child : parent (child key l i) = i := by
  unfold child parent
  split <;> omega

theorem lt_child : i < child key l i := by
  unfold child
  split <;> omega

theorem child_lt (h : 2 * i + 1 < l.length) : child key l i < l.length := by
  unfold child
  split
  · exact (‹_ ∧ _› : _ ∧ _).1
  · exact h

theorem child_le (pos : 0 < j) (h : parent j = i) : Le key l (child key l i) j := by
  have two : j = 2 * i + 1 ∨ j = 2 * i + 2 := by
    unfold parent at h
    omega
  have self : ∀ x, Le key l x x := fun x a ha b hb => by rw [Option.mem_unique ha hb]
  unfold child
  split
  · obtain ⟨-, right⟩ := ‹_ ∧ _›
    rcases two with rfl | rfl
    · exact le_of_not_less right
    · exact self _
  · have left := ‹¬ (_ ∧ _)›
    rcases two with rfl | rfl
    · exact self _
    · by_cases inside : 2 * i + 2 < l.length
      · exact (not_not.mp fun no => left ⟨inside, no⟩ : Less key l _ _).le
      · exact le_of_length_le (not_lt.mp inside)

/-- `_siftup`: the smaller child takes the place until there is none, and what stood there rises
from the leaf. -/
def siftup (key : α → κ) : Nat → List α → Nat → List α
  | 0, l, _ => l
  | n + 1, l, i =>
    if 2 * i + 1 < l.length then siftup key n (swap l i (child key l i)) (child key l i)
    else siftdown key i l i

theorem siftup_perm (key : α → κ) (n : Nat) (l : List α) (i : Nat) : (siftup key n l i).Perm l := by
  induction n generalizing l i with
  | zero => rfl
  | succ n ih =>
    unfold siftup
    split
    · exact (ih _ _).trans (swap_perm ..)
    · exact siftdown_perm ..

/-- The element at one place may be out of order with its parent and with its children; the
children may have that parent instead. -/
structure Sinking (key : α → κ) (l : List α) (i : Nat) : Prop where
  order : ∀ j, 0 < j → j ≠ i → parent j ≠ i → Le key l (parent j) j
  below : 0 < i → ∀ j, 0 < j → parent j = i → Le key l (parent i) j

theorem Sinking.swap (h : Sinking key l i) (more : 2 * i + 1 < l.length) :
    Sinking key (Heap.swap l i (child key l i)) (child key l i) := by
  have down : i < child key l i := lt_child
  have inside : child key l i < l.length := child_lt more
  have up : parent (child key l i) = i := parent_child
  generalize hc : child key l i = c at down inside up
  constructor
  · intro j hj ne other
    rw [le_swap (down.trans inside) inside]
    by_cases same : j = i
    · subst same
      have := h.below hj c (hj.trans down) up
      simpa [partner, other, (parent_lt hj).ne] using this
    · by_cases under : parent j = i
      · have below : Le key l (child key l i) j := child_le hj under
        have := hc ▸ below
        simpa [partner, under, same, ne] using this
      · simpa [partner, under, same, ne, other] using h.order j hj same under
  · intro _ j hj child
    have below := parent_lt hj
    rw [le_swap (down.trans inside) inside, up]
    have := h.order j hj (by omega) (by omega)
    rw [child] at this
    simpa [partner, show j ≠ i by omega, show j ≠ c by omega] using this

theorem siftup_ordered (h : Sinking key l i) (inside : i < l.length) (enough : l.length ≤ n + i) :
    Ordered key (siftup key n l i) := by
  induction n generalizing l i with
  | zero => omega
  | succ n ih =>
    unfold siftup
    split
    · have down : i < child key l i := lt_child
      refine ih (h.swap ‹_›) ?_ ?_
      · rw [length_swap]
        exact child_lt ‹_›
      · rw [length_swap]
        omega
    · refine siftdown_ordered ⟨fun j hj ne => ?_, h.below⟩ inside le_rfl
      by_cases leaf : parent j = i
      · refine le_of_length_le ?_
        unfold parent at leaf
        omega
      · exact h.order j hj ne leaf

/-! ## The operations -/

def heappush (key : α → κ) (heap : List α) (x : α) : List α :=
  siftdown key heap.length (heap ++ [x]) heap.length

theorem heappush_perm (key : α → κ) (heap : List α) (x : α) :
    (heappush key heap x).Perm (x :: heap) :=
  (siftdown_perm ..).trans (List.perm_append_singleton x heap)

theorem heappush_ordered {heap : List α} (h : Ordered key heap) (x : α) :
    Ordered key (heappush key heap x) := by
  refine siftdown_ordered ⟨fun j hj ne => ?_, fun pos j hj child => ?_⟩ (by simp) le_rfl
  · have up := parent_lt hj
    rcases lt_or_ge j heap.length with inside | outside
    · unfold Le
      rw [List.getElem?_append_left inside, List.getElem?_append_left (up.trans inside)]
      exact h j hj
    · refine le_of_length_le ?_
      rw [List.length_append, List.length_singleton]
      omega
  · have up := parent_lt hj
    refine le_of_length_le ?_
    rw [List.length_append, List.length_singleton]
    omega

/-- Push an element and take the first one off, which may be the element itself. -/
def heappushpop (key : α → κ) (heap : List α) (x : α) : α × List α :=
  match heap with
  | top :: rest =>
    if key top < key x then (top, siftup key (rest.length + 1) (x :: rest) 0) else (x, heap)
  | [] => (x, [])

theorem heappushpop_perm (key : α → κ) (heap : List α) (x : α) :
    ((heappushpop key heap x).1 :: (heappushpop key heap x).2).Perm (x :: heap) := by
  unfold heappushpop
  split
  · split
    · exact ((siftup_perm ..).cons _).trans (List.Perm.swap ..)
    · rfl
  · rfl

theorem heappushpop_ordered {heap : List α} (h : Ordered key heap) (x : α) :
    Ordered key (heappushpop key heap x).2 := by
  unfold heappushpop
  split
  · split
    · refine siftup_ordered ⟨fun j hj _ inner => ?_, fun no => absurd no (lt_irrefl _)⟩
        (Nat.succ_pos _) le_rfl
      have := h j hj
      unfold Le at this ⊢
      obtain ⟨j, rfl⟩ := Nat.exists_eq_succ_of_ne_zero hj.ne'
      obtain ⟨p, hp⟩ := Nat.exists_eq_succ_of_ne_zero inner
      rw [hp] at this ⊢
      exact this
    · exact h
  · exact h

theorem heappushpop_le {heap : List α} (h : Ordered key heap) (x : α) :
    ∀ b ∈ x :: heap, key (heappushpop key heap x).1 ≤ key b := by
  intro b mem
  cases heap with
  | nil => simp_all [heappushpop]
  | cons top rest =>
    have first := h.first_le
    unfold heappushpop
    dsimp only
    split
    · rcases List.mem_cons.mp mem with rfl | mem
      · exact le_of_lt ‹_›
      · exact first b mem
    · rcases List.mem_cons.mp mem with rfl | mem
      · exact le_rfl
      · exact (not_lt.mp ‹_›).trans (first b mem)

end

end Lib.Heap
