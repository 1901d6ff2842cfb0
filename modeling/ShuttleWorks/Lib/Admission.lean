import Mathlib.Data.List.Count
import Mathlib.Order.Lattice
import ShuttleWorks.Lib.Except
import ShuttleWorks.Lib.Transition

/-! Two lists filled side by side, each up to a cap. The left list numbers what is put into it.
A run of such steps puts in everything, or fails because one of the lists would pass its cap:
which of the two depends only on the lengths of what is put in. -/

namespace Lib

section

variable {ε α β γ : Type}

/-- What was put in so far. -/
structure Filled (γ β : Type) where
  left : List γ
  right : List β

/-- The entries as they are numbered when they are put in after the first `k`. -/
def numberFrom (stamp : Nat → α → γ) (k : Nat) (xs : List α) : List γ :=
  (xs.zipIdx k).map fun x => stamp x.2 x.1

@[simp] theorem length_numberFrom (stamp : Nat → α → γ) (k : Nat) (xs : List α) :
    (numberFrom stamp k xs).length = xs.length := by
  simp [numberFrom]

theorem numberFrom_append (stamp : Nat → α → γ) (k : Nat) (xs ys : List α) :
    numberFrom stamp k (xs ++ ys) =
      numberFrom stamp k xs ++ numberFrom stamp (k + xs.length) ys := by
  simp [numberFrom, List.zipIdx_append]

theorem map_numberFrom {δ : Type} {stamp : Nat → α → γ} {f : γ → δ} {g : α → δ}
    (h : ∀ k a, f (stamp k a) = g a) (k : Nat) (xs : List α) :
    (numberFrom stamp k xs).map f = xs.map g := by
  induction xs generalizing k with
  | nil => rfl
  | cons a xs ih =>
    have rest := ih (k + 1)
    simp only [numberFrom, List.zipIdx_cons, List.map_cons, h] at rest ⊢
    rw [rest]

namespace Filled

def Within (capLeft capRight : Nat) (acc : Filled γ β) : Prop :=
  acc.left.length ≤ capLeft ∧ acc.right.length ≤ capRight

/-- The lists after `xs` and `ys` were put in. -/
def put (stamp : Nat → α → γ) (acc : Filled γ β) (xs : List α) (ys : List β) : Filled γ β :=
  ⟨acc.left ++ numberFrom stamp acc.left.length xs, acc.right ++ ys⟩

@[simp] theorem put_nil (stamp : Nat → α → γ) (acc : Filled γ β) : acc.put stamp [] [] = acc := by
  simp [put, numberFrom]

theorem put_put (stamp : Nat → α → γ) (acc : Filled γ β) (xs xs' : List α) (ys ys' : List β) :
    (acc.put stamp xs ys).put stamp xs' ys' = acc.put stamp (xs ++ xs') (ys ++ ys') := by
  simp [put, numberFrom_append]

/-- A step that puts in `xs` and `ys`, or fails with a `bad` error when they do not fit. -/
def Puts (stamp : Nat → α → γ) (capLeft capRight : Nat) (bad : ε → Prop)
    (step : Filled γ β → Except ε (Filled γ β)) (xs : List α) (ys : List β) : Prop :=
  ∀ acc : Filled γ β, acc.Within capLeft capRight →
    ((acc.put stamp xs ys).Within capLeft capRight → step acc = .ok (acc.put stamp xs ys)) ∧
    (¬ (acc.put stamp xs ys).Within capLeft capRight → ∃ e, bad e ∧ step acc = .error e)

variable {stamp : Nat → α → γ} {capLeft capRight : Nat} {bad : ε → Prop}

theorem within_of_put {acc : Filled γ β} {xs : List α} {ys : List β}
    (h : (acc.put stamp xs ys).Within capLeft capRight) : acc.Within capLeft capRight := by
  simp only [Within, put, List.length_append] at h ⊢
  omega

namespace Puts

theorem nothing : Puts stamp capLeft capRight bad
    (fun acc : Filled γ β => Except.ok acc) [] [] := by
  intro acc within
  simp [within]

theorem append {step step' : Filled γ β → Except ε (Filled γ β)} {xs xs' : List α} {ys ys' : List β}
    (h : Puts stamp capLeft capRight bad step xs ys)
    (h' : Puts stamp capLeft capRight bad step' xs' ys') :
    Puts stamp capLeft capRight bad (fun acc => step acc >>= step') (xs ++ xs') (ys ++ ys') := by
  intro acc within
  simp only [← put_put]
  obtain ⟨fits, full⟩ := h acc within
  by_cases first : (acc.put stamp xs ys).Within capLeft capRight
  · simp only [fits first, ok_bind]
    exact h' _ first
  · obtain ⟨e, he, failed⟩ := full first
    constructor
    · intro both
      exact absurd (within_of_put both) first
    · intro _
      exact ⟨e, he, by simp only [failed]; rfl⟩

theorem loop {κ : Type} {f : Filled γ β → κ → Except ε (Filled γ β)} {xs : κ → List α}
    {ys : κ → List β} {l : List κ}
    (h : ∀ a ∈ l, Puts stamp capLeft capRight bad (fun acc => f acc a) (xs a) (ys a)) :
    Puts stamp capLeft capRight bad (fun acc => l.foldlM f acc) (l.flatMap xs) (l.flatMap ys) := by
  induction l with
  | nil => exact nothing
  | cons a l ih =>
    simp only [List.foldlM_cons, List.flatMap_cons]
    exact (h a List.mem_cons_self).append (ih fun b hb => h b (List.mem_cons_of_mem _ hb))

theorem left {e : ε} (he : bad e) (a : α) : Puts stamp capLeft capRight bad
    (fun acc : Filled γ β => if capLeft ≤ acc.left.length then Except.error e
      else .ok ⟨acc.left ++ [stamp acc.left.length a], acc.right⟩) [a] [] := by
  intro acc within
  simp only [Within, put, numberFrom, List.zipIdx_cons, List.zipIdx_nil, List.map_cons,
    List.map_nil, List.length_append, List.length_singleton, List.append_nil] at within ⊢
  constructor
  · intro fits
    rw [if_neg (by omega)]
  · intro full
    exact ⟨e, he, if_pos (by omega)⟩

theorem right {e : ε} (he : bad e) (b : β) : Puts stamp capLeft capRight bad
    (fun acc : Filled γ β => if capRight ≤ acc.right.length then Except.error e
      else .ok ⟨acc.left, acc.right ++ [b]⟩) ([] : List α) [b] := by
  intro acc within
  simp only [Within, put, numberFrom, List.zipIdx_nil, List.map_nil, List.append_nil,
    List.length_append, List.length_singleton] at within ⊢
  constructor
  · intro fits
    rw [if_neg (by omega)]
  · intro full
    exact ⟨e, he, if_pos (by omega)⟩

end Puts

end Filled

end

/-! ## Lists with a limited number of places

Whoever enters is given a place, or is queued if the places are taken; whoever leaves gives the
place back. Nobody moves up from the queue, so somebody who enters later can be given a place
before those who are queued, but only after one of them was given back. -/

inductive Place
  | held | queued | gone
  deriving DecidableEq

/-- Somebody on a list. -/
structure Seat (ι κ : Type) where
  id : ι
  list : κ
  place : Place

namespace Admission

variable {ι κ : Type} [DecidableEq ι] [DecidableEq κ]

def taken (ss : List (Seat ι κ)) (k : κ) : Nat :=
  ss.countP (fun s => s.list = k ∧ s.place = .held)

/-- New seats, one after the other: each has a place or is queued, by what is taken before it. -/
def Lands (full : κ → Nat → Prop) : List (Seat ι κ) → List (Seat ι κ) → Prop
  | _, [] => True
  | ss, s :: new => (s.place ≠ .gone ∧ (s.place = .queued ↔ full s.list (taken ss s.list))) ∧
      Lands full (ss ++ [s]) new

def vacate (id : ι) (s : Seat ι κ) : Seat ι κ :=
  if s.id = id then { s with place := .gone } else s

inductive Move (ι κ : Type)
  | arrive (new : List (Seat ι κ))
  | leave (id : ι)

inductive Step (full : κ → Nat → Prop) :
    List (Seat ι κ) → Move ι κ → List (Seat ι κ) → Prop
  | arrive {ss new : List (Seat ι κ)} : Lands full ss new → Step full ss (.arrive new) (ss ++ new)
  | leave {ss : List (Seat ι κ)} (id : ι) : Step full ss (.leave id) (ss.map (vacate id))

def Frees (ss : List (Seat ι κ)) (k : κ) : Move ι κ → Prop
  | .arrive _ => False
  | .leave id => ∃ s ∈ ss, s.id = id ∧ s.list = k ∧ s.place = .held

section
omit [DecidableEq ι]

theorem taken_append (ss new : List (Seat ι κ)) (k : κ) :
    taken (ss ++ new) k = taken ss k + taken new k := List.countP_append

theorem lands_append {full : κ → Nat → Prop} {ss new new' : List (Seat ι κ)} :
    Lands full ss (new ++ new') ↔ Lands full ss new ∧ Lands full (ss ++ new) new' := by
  induction new generalizing ss with
  | nil => simp [Lands]
  | cons s new ih => simp [Lands, ih, and_assoc]

variable {full : κ → Nat → Prop} {ss new : List (Seat ι κ)} {k : κ}

theorem lands_cons_of_split {s : Seat ι κ} {a b : List (Seat ι κ)}
    (h : Lands full ss (a ++ s :: b)) :
    s.place ≠ .gone ∧ (s.place = .queued ↔ full s.list (taken (ss ++ a) s.list)) :=
  (lands_append.mp h).2.1

theorem Lands.taken_le {cap : Nat} (limit : ∀ n, cap ≤ n → full k n) (h : Lands full ss new) :
    taken (ss ++ new) k ≤ max (taken ss k) cap := by
  induction new generalizing ss with
  | nil => simp
  | cons s new ih =>
    obtain ⟨⟨-, queued⟩, rest⟩ := h
    have whole := ih rest
    rw [List.append_assoc, List.singleton_append] at whole
    refine whole.trans (max_le ?_ (le_max_right _ _))
    rw [taken_append]
    by_cases holds : s.list = k ∧ s.place = .held
    · obtain ⟨rfl, held⟩ := holds
      have below : taken ss s.list < cap := by
        by_contra above
        have wait := queued.mpr (limit _ (Nat.le_of_not_lt above))
        simp [held] at wait
      have one : taken [s] s.list = 1 := by simp [taken, held]
      rw [one]
      exact (Nat.succ_le_of_lt below).trans (le_max_right _ _)
    · have nothing : taken [s] k = 0 := by
        simp only [taken, List.countP_singleton]
        simpa using holds
      rw [nothing]
      exact le_max_left _ _

section Full
variable (upward : ∀ k m n, m ≤ n → full k m → full k n)
include upward

theorem Lands.queued (h : Lands full ss new) (none : full k (taken ss k)) {s : Seat ι κ}
    (mem : s ∈ new) (here : s.list = k) : s.place = .queued := by
  obtain ⟨a, b, rfl⟩ := List.append_of_mem mem
  subst here
  refine (lands_cons_of_split h).2.mpr (upward _ _ _ ?_ none)
  rw [taken_append]
  exact Nat.le_add_right _ _

theorem Lands.full_of_queued (h : Lands full ss new) {s : Seat ι κ} (mem : s ∈ new)
    (wait : s.place = .queued) : full s.list (taken (ss ++ new) s.list) := by
  obtain ⟨a, b, rfl⟩ := List.append_of_mem mem
  refine upward _ _ _ ?_ ((lands_cons_of_split h).2.mp wait)
  rw [← List.append_assoc, taken_append (ss ++ a)]
  exact Nat.le_add_right _ _

end Full

end

variable {full : κ → Nat → Prop} {ss ss' : List (Seat ι κ)} {m : Move ι κ} {k : κ}

theorem taken_vacate_le (id : ι) : taken (ss.map (vacate id)) k ≤ taken ss k := by
  rw [taken, List.countP_map]
  refine List.countP_mono_left fun s _ holds => ?_
  by_cases own : s.id = id
  · simp [vacate, own] at holds
  · simpa [vacate, own] using holds

/-- **Step.** A list whose places are not taken is filled up to its limit at most. -/
theorem Step.taken_le {cap : Nat} (limit : ∀ n, cap ≤ n → full k n) (h : Step full ss m ss') :
    taken ss' k ≤ max (taken ss k) cap := by
  cases h with
  | arrive lands => exact lands.taken_le limit
  | leave id => exact (taken_vacate_le id).trans (le_max_left _ _)

/-- **Step.** Places stay taken until one is given back. -/
theorem Step.taken_ge (h : Step full ss m ss') (keeps : ¬ Frees ss k m) :
    taken ss k ≤ taken ss' k := by
  cases h with
  | arrive =>
    rw [taken_append]
    exact Nat.le_add_right _ _
  | leave id =>
    rw [taken, taken, List.countP_map]
    refine List.countP_mono_left fun s hs holds => ?_
    simp only [Bool.decide_and, Bool.and_eq_true, decide_eq_true_eq] at holds
    have other : s.id ≠ id := fun own => keeps ⟨s, hs, own, holds⟩
    simp [vacate, other, holds]

end Admission

end Lib
