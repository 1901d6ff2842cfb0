import Mathlib.Data.List.Sort
import Mathlib.Data.Nat.ModEq
import Mathlib.Data.Nat.Prime.Basic
import Mathlib.Tactic.Ring

/-! Lists of consecutive numbers. -/

namespace Lib

/-- A strictly increasing list from `f` on that leaves nothing out below any of
its members is an interval. -/
theorem eq_range'_of_closed {l : List Nat} {f : Nat} (sorted : l.Pairwise (· < ·))
    (lower : ∀ x ∈ l, f ≤ x) (closed : ∀ x ∈ l, ∀ y, f ≤ y → y < x → y ∈ l) :
    l = List.range' f l.length := by
  induction l generalizing f with
  | nil => rfl
  | cons a l ih =>
    obtain ⟨above, sorted⟩ := List.pairwise_cons.mp sorted
    have first : a = f := by
      by_contra hne
      have hlt := Nat.lt_of_le_of_ne (lower a List.mem_cons_self) (Ne.symm hne)
      rcases List.mem_cons.mp (closed a List.mem_cons_self f (Nat.le_refl f) hlt) with h | h
      · exact hne h.symm
      · have := above f h
        omega
    subst first
    have rest := ih sorted above fun x hx y hy hlt => by
      rcases List.mem_cons.mp (closed x (List.mem_cons_of_mem _ hx) y (by omega) hlt) with h | h
      · omega
      · exact h
    rw [List.length_cons, List.range'_succ, ← rest]

/-- The last of the `n` numbers after `c`. -/
theorem foldl_last_range' (c n : Nat) : (List.range' (c + 1) n).foldl (fun _ q => q) c = c + n := by
  induction n generalizing c with
  | zero => rfl
  | succ n ih =>
    rw [List.range'_succ, List.foldl_cons, ih]
    omega

/-! ## The pairs of positions of a list, the earlier one first -/

section

variable {α : Type}

/-- Each element with the elements after it, positions counted from `k`. -/
def pairings (k : Nat) : List α → List ((α × Nat) × (α × Nat))
  | [] => []
  | a :: rest => (rest.zipIdx (k + 1)).map (Prod.mk (a, k)) ++ pairings (k + 1) rest

theorem mem_pairings {k : Nat} {l : List α} {p : (α × Nat) × (α × Nat)} :
    p ∈ pairings k l ↔ p.1.2 < p.2.2 ∧ p.1 ∈ l.zipIdx k ∧ p.2 ∈ l.zipIdx k := by
  obtain ⟨⟨a, i⟩, b, j⟩ := p
  have later : ∀ {x : α} {m : Nat} {n : Nat} {rest : List α}, (x, m) ∈ rest.zipIdx n → n ≤ m :=
    fun h => (List.mem_zipIdx_iff_le_and_getElem?_sub.mp h).1
  induction l generalizing k with
  | nil => simp [pairings]
  | cons c rest ih =>
    simp only [pairings, List.mem_append, List.mem_map, ih, List.zipIdx_cons, List.mem_cons,
      Prod.mk.injEq]
    constructor
    · rintro (⟨x, mem, ⟨rfl, rfl⟩, rfl⟩ | ⟨lt, hi, hj⟩)
      · have := later mem
        exact ⟨by omega, .inl ⟨rfl, rfl⟩, .inr mem⟩
      · exact ⟨lt, .inr hi, .inr hj⟩
    · rintro ⟨lt, ⟨rfl, rfl⟩ | hi, ⟨rfl, rfl⟩ | hj⟩
      · omega
      · exact .inl ⟨(b, j), hj, ⟨rfl, rfl⟩, rfl⟩
      · have := later hi
        omega
      · exact .inr ⟨lt, hi, hj⟩

theorem nodup_pairings (k : Nat) (l : List α) :
    ((pairings k l).map fun p => (p.1.2, p.2.2)).Nodup := by
  induction l generalizing k with
  | nil => exact List.nodup_nil
  | cons a rest ih =>
    rw [pairings, List.map_append, List.map_map]
    apply List.Nodup.append _ (ih (k + 1))
    · rintro ⟨i, j⟩ first later
      obtain ⟨x, -, e⟩ := List.mem_map.mp first
      obtain ⟨p, mem, e'⟩ := List.mem_map.mp later
      have start := (List.mem_zipIdx_iff_le_and_getElem?_sub.mp (mem_pairings.mp mem).2.1).1
      have same : k = p.1.2 := congrArg Prod.fst (e.trans e'.symm)
      omega
    · have positions : ((rest.zipIdx (k + 1)).map Prod.snd).Nodup := by
        rw [List.zipIdx_map_snd]
        exact List.nodup_range'
      have pairs := positions.map (f := fun j => (k, j)) fun j j' e => congrArg Prod.snd e
      rwa [List.map_map] at pairs

end

/-! ## The circle method

Of an even number of players one stands apart and is numbered zero; the others stand on a circle of
odd length, numbered from one, and turn by one place a round. Two on the circle meet where their
numbers and twice the round add up to a multiple of the length, and the one apart meets the one
whose number and the round do. -/

namespace Circle

variable {m i j a b c : ℕ}

def Meets (m i a b : ℕ) : Prop :=
  if a = 0 then m ∣ b + i else if b = 0 then m ∣ a + i else m ∣ a + b + 2 * i

theorem meets_apart : Meets m i 0 b ↔ m ∣ b + i := by
  simp [Meets]

theorem meets_circle (ha : a ≠ 0) (hb : b ≠ 0) : Meets m i a b ↔ m ∣ a + b + 2 * i := by
  simp [Meets, ha, hb]

theorem Meets.symm (ne : a ≠ b) (h : Meets m i a b) : Meets m i b a := by
  unfold Meets at h ⊢
  split_ifs at h ⊢ with ha hb
  · exact absurd (ha.trans hb.symm) ne.symm
  · exact h
  · exact h
  · rwa [Nat.add_comm b a]

theorem Meets.of_modEq (h : i ≡ j [MOD m]) (met : Meets m i a b) : Meets m j a b := by
  have move : ∀ {x y : ℕ}, x ≡ y [MOD m] → m ∣ x → m ∣ y := fun e hx =>
    (Nat.modEq_zero_iff_dvd.mp (e.symm.trans (Nat.modEq_zero_iff_dvd.mpr hx)))
  unfold Meets at met ⊢
  split_ifs at met ⊢
  · exact move (h.add_left b) met
  · exact move (h.add_left a) met
  · exact move ((h.mul_left 2).add_left (a + b)) met

theorem eq_of_modEq_circle (h : a ≡ b [MOD m]) (ha : 0 < a ∧ a ≤ m) (hb : 0 < b ∧ b ≤ m) :
    a = b := by
  rcases Nat.lt_trichotomy a b with lt | eq | gt
  · have := (Nat.modEq_iff_dvd' lt.le).mp h
    exact absurd (Nat.le_of_dvd (by omega) this) (by omega)
  · exact eq
  · have := (Nat.modEq_iff_dvd' gt.le).mp h.symm
    exact absurd (Nat.le_of_dvd (by omega) this) (by omega)

theorem modEq_of_dvd_add {x y k : ℕ} (hx : m ∣ k + x) (hy : m ∣ k + y) : x ≡ y [MOD m] :=
  Nat.ModEq.add_left_cancel' k
    ((Nat.modEq_zero_iff_dvd.mpr hx).trans (Nat.modEq_zero_iff_dvd.mpr hy).symm)

/-- **Nobody has two opponents in a round.** -/
theorem Meets.opponent (ab : a ≠ b) (ac : a ≠ c) (ha : a ≤ m) (hb : b ≤ m) (hc : c ≤ m)
    (h : Meets m i a b) (h' : Meets m i a c) : b = c := by
  -- whoever meets the one apart would meet itself on the circle
  have itself : ∀ {x y : ℕ}, m ∣ x + i → m ∣ x + y + 2 * i → y ≡ x [MOD m] := by
    intro x y hx hy
    have double : m ∣ x + 2 * i + x := by
      rw [show x + 2 * i + x = 2 * (x + i) by ring]
      exact hx.mul_left 2
    rw [Nat.add_right_comm] at hy
    exact modEq_of_dvd_add hy double
  unfold Meets at h h'
  split_ifs at h h' with a0 b0 c0 c0
  · exact eq_of_modEq_circle (Nat.ModEq.add_right_cancel' i
      ((Nat.modEq_zero_iff_dvd.mpr h).trans (Nat.modEq_zero_iff_dvd.mpr h').symm))
      ⟨by omega, hb⟩ ⟨by omega, hc⟩
  · rw [b0, c0]
  · have := eq_of_modEq_circle (itself h h') ⟨by omega, hc⟩ ⟨by omega, ha⟩
    exact absurd this.symm ac
  · have := eq_of_modEq_circle (itself h' h) ⟨by omega, hb⟩ ⟨by omega, ha⟩
    exact absurd this.symm ab
  · rw [Nat.add_right_comm] at h h'
    exact eq_of_modEq_circle (modEq_of_dvd_add h h') ⟨by omega, hb⟩ ⟨by omega, hc⟩

theorem exists_meets (odd : Odd m) (a b : ℕ) : ∃ i, Meets m i a b := by
  obtain ⟨k, rfl⟩ := odd
  unfold Meets
  split_ifs
  · exact ⟨2 * k * b, b, by ring⟩
  · exact ⟨2 * k * a, a, by ring⟩
  · exact ⟨k * (a + b), a + b, by ring⟩

/-- **And it is one round of every turn.** -/
theorem Meets.round (odd : Odd m) (h : Meets m i a b) (h' : Meets m j a b) : i ≡ j [MOD m] := by
  unfold Meets at h h'
  split_ifs at h h'
  · exact modEq_of_dvd_add h h'
  · exact modEq_of_dvd_add h h'
  · exact Nat.ModEq.cancel_left_of_coprime odd.coprime_two_left.symm (modEq_of_dvd_add h h')

theorem existsUnique_meets (odd : Odd m) (turn : ℕ) (a b : ℕ) :
    ∃! i, i / m = turn ∧ Meets m i a b := by
  obtain ⟨i, met⟩ := exists_meets odd a b
  have pos : 0 < m := Nat.pos_of_ne_zero fun zero => by simp [zero] at odd
  refine ⟨i % m + m * turn, ⟨?_, met.of_modEq ?_⟩, ?_⟩
  · rw [Nat.add_mul_div_left _ _ pos, Nat.div_eq_of_lt (Nat.mod_lt i pos), Nat.zero_add]
  · rw [Nat.ModEq, Nat.add_mul_mod_self_left, Nat.mod_mod]
  · rintro j ⟨rfl, met'⟩
    rw [← met'.round odd met, Nat.mod_add_div]

end Circle

end Lib
