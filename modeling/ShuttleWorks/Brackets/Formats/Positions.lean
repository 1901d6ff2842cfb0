import Mathlib.Data.List.Perm.Subperm
import Mathlib.Data.List.Range
import ShuttleWorks.Brackets.Formats.Seeding

/-! Where repeated bisection puts the seeds. The loop of `_bwf_positions` fills a bracket of size
`2 ^ (k + 1)` with `seedAt k`, a bijection with inverse `posAt k`. Every block of the level `j`
holds one of the first `2 ^ j` seeds, so the placement is balanced exactly up to size 4. -/

namespace Brackets
open Lib

/-! ## The seed of a position, the position of a seed -/

/-- The seed at a position of a bracket of size `2 ^ (k + 1)`: a section of the level before
keeps its two ends, and its two new seeds come between them, the higher one first. -/
def seedAt : Nat → Nat → Nat
  | 0, p => p + 1
  | k + 1, p =>
    if p % 4 = 0 then seedAt k (2 * (p / 4))
    else if p % 4 = 1 then 2 ^ (k + 1) + 2 * (p / 4) + 2
    else if p % 4 = 2 then 2 ^ (k + 1) + 2 * (p / 4) + 1
    else seedAt k (2 * (p / 4) + 1)

/-- The position of the seed `i + 1`. -/
def posAt : Nat → Nat → Nat
  | 0, i => i
  | k + 1, i =>
    if i < 2 ^ (k + 1) then 2 * posAt k i + posAt k i % 2
    else if i % 2 = 0 then 2 * (i - 2 ^ (k + 1)) + 2
    else 2 * (i - 2 ^ (k + 1)) - 1

theorem two_pow_succ (k : Nat) : 2 ^ (k + 1) = 2 * 2 ^ k := by
  rw [Nat.pow_succ, Nat.mul_comm]

theorem seedAt_four_mul (k q : Nat) : seedAt (k + 1) (4 * q) = seedAt k (2 * q) := by
  have div : 4 * q / 4 = q := by omega
  simp [seedAt, div]

theorem seedAt_four_mul_add_one (k q : Nat) :
    seedAt (k + 1) (4 * q + 1) = 2 ^ (k + 1) + 2 * q + 2 := by
  have div : (4 * q + 1) / 4 = q := by omega
  have mod : (4 * q + 1) % 4 = 1 := by omega
  simp [seedAt, div, mod]

theorem seedAt_four_mul_add_two (k q : Nat) :
    seedAt (k + 1) (4 * q + 2) = 2 ^ (k + 1) + 2 * q + 1 := by
  have div : (4 * q + 2) / 4 = q := by omega
  have mod : (4 * q + 2) % 4 = 2 := by omega
  simp [seedAt, div, mod]

theorem seedAt_four_mul_add_three (k q : Nat) :
    seedAt (k + 1) (4 * q + 3) = seedAt k (2 * q + 1) := by
  have div : (4 * q + 3) / 4 = q := by omega
  have mod : (4 * q + 3) % 4 = 3 := by omega
  simp [seedAt, div, mod]

theorem four_cases (p : Nat) : ∃ q, p = 4 * q ∨ p = 4 * q + 1 ∨ p = 4 * q + 2 ∨ p = 4 * q + 3 :=
  ⟨p / 4, by omega⟩

theorem seedAt_pos (k p : Nat) : 0 < seedAt k p := by
  induction k generalizing p with
  | zero => simp [seedAt]
  | succ k ih =>
    obtain ⟨q, rfl | rfl | rfl | rfl⟩ := four_cases p
    · rw [seedAt_four_mul]
      exact ih _
    · rw [seedAt_four_mul_add_one]
      exact Nat.succ_pos _
    · rw [seedAt_four_mul_add_two]
      exact Nat.succ_pos _
    · rw [seedAt_four_mul_add_three]
      exact ih _

theorem seedAt_le {k p : Nat} (hp : p < 2 ^ (k + 1)) : seedAt k p ≤ 2 ^ (k + 1) := by
  induction k generalizing p with
  | zero =>
    simp [seedAt] at hp ⊢
    omega
  | succ k ih =>
    have size := two_pow_succ (k + 1)
    obtain ⟨q, rfl | rfl | rfl | rfl⟩ := four_cases p
    · rw [seedAt_four_mul]
      have := @ih (2 * q) (by omega)
      omega
    · rw [seedAt_four_mul_add_one]
      have := two_pow_succ k
      omega
    · rw [seedAt_four_mul_add_two]
      omega
    · rw [seedAt_four_mul_add_three]
      have := @ih (2 * q + 1) (by omega)
      omega

variable {k i p w s h m t b : Nat}

theorem posAt_lt (hi : i < 2 ^ (k + 1)) : posAt k i < 2 ^ (k + 1) := by
  induction k generalizing i with
  | zero => simpa [posAt] using hi
  | succ k ih =>
    have size := two_pow_succ (k + 1)
    have even := two_pow_succ k
    simp only [posAt]
    split
    · next h =>
      have := ih h
      omega
    · split <;> omega

theorem posAt_seedAt (hp : p < 2 ^ (k + 1)) : posAt k (seedAt k p - 1) = p := by
  induction k generalizing p with
  | zero => simp [seedAt, posAt]
  | succ k ih =>
    have size := two_pow_succ (k + 1)
    have even := two_pow_succ k
    obtain ⟨q, rfl | rfl | rfl | rfl⟩ := four_cases p
    · have seat := @ih (2 * q) (by omega)
      have le := @seedAt_le k (2 * q) (by omega)
      have pos := seedAt_pos k (2 * q)
      rw [seedAt_four_mul, posAt, if_pos (by omega), seat]
      omega
    · rw [seedAt_four_mul_add_one, posAt, if_neg (by omega), if_neg (by omega)]
      omega
    · rw [seedAt_four_mul_add_two, posAt, if_neg (by omega), if_pos (by omega)]
      omega
    · have seat := @ih (2 * q + 1) (by omega)
      have le := @seedAt_le k (2 * q + 1) (by omega)
      have pos := seedAt_pos k (2 * q + 1)
      rw [seedAt_four_mul_add_three, posAt, if_pos (by omega), seat]
      omega

theorem seedAt_posAt (hi : i < 2 ^ (k + 1)) : seedAt k (posAt k i) = i + 1 := by
  induction k generalizing i with
  | zero => simp [seedAt, posAt]
  | succ k ih =>
    have size := two_pow_succ (k + 1)
    have even := two_pow_succ k
    rw [posAt]
    split
    · next h =>
      have seat := ih h
      rcases Nat.mod_two_eq_zero_or_one (posAt k i) with hm | hm
      · obtain ⟨s, hs⟩ : ∃ s, posAt k i = 2 * s := ⟨posAt k i / 2, by omega⟩
        rw [hs] at seat ⊢
        rw [show 2 * (2 * s) + 2 * s % 2 = 4 * s by omega, seedAt_four_mul, seat]
      · obtain ⟨s, hs⟩ : ∃ s, posAt k i = 2 * s + 1 := ⟨posAt k i / 2, by omega⟩
        rw [hs] at seat ⊢
        rw [show 2 * (2 * s + 1) + (2 * s + 1) % 2 = 4 * s + 3 by omega,
          seedAt_four_mul_add_three, seat]
    · next h =>
      obtain ⟨d, rfl⟩ : ∃ d, i = 2 ^ (k + 1) + d := ⟨i - 2 ^ (k + 1), by omega⟩
      split
      · next hm =>
        obtain ⟨s, rfl⟩ : ∃ s, d = 2 * s := ⟨d / 2, by omega⟩
        rw [show 2 * (2 ^ (k + 1) + 2 * s - 2 ^ (k + 1)) + 2 = 4 * s + 2 by omega,
          seedAt_four_mul_add_two]
      · next hm =>
        obtain ⟨s, rfl⟩ : ∃ s, d = 2 * s + 1 := ⟨d / 2, by omega⟩
        rw [show 2 * (2 ^ (k + 1) + (2 * s + 1) - 2 ^ (k + 1)) - 1 = 4 * s + 1 by omega,
          seedAt_four_mul_add_one]
        omega

theorem posAt_inj {i' : Nat} (hi : i < 2 ^ (k + 1)) (hi' : i' < 2 ^ (k + 1))
    (h : posAt k i = posAt k i') : i = i' := by
  have seed := seedAt_posAt hi
  have seed' := seedAt_posAt hi'
  rw [h] at seed
  omega

theorem seedAt_inj {p' : Nat} (hp : p < 2 ^ (k + 1)) (hp' : p' < 2 ^ (k + 1))
    (h : seedAt k p = seedAt k p') : p = p' := by
  have seat := posAt_seedAt hp
  rw [h, posAt_seedAt hp'] at seat
  exact seat.symm

/-! ## The loop computes it -/

/-- A position while the sections are `w` wide: only their two ends hold a seed. -/
def laid (k w p : Nat) : Nat :=
  if p % w = 0 then seedAt k (2 * (p / w))
  else if p % w = w - 1 then seedAt k (2 * (p / w) + 1)
  else 0

def sections (w count : Nat) : List (Nat × Nat) :=
  (List.range count).map fun s => (s * w, s * w + (w - 1))

theorem laid_at {r : Nat} (hr : r < w) :
    laid k w (s * w + r) = if r = 0 then seedAt k (2 * s)
      else if r = w - 1 then seedAt k (2 * s + 1) else 0 := by
  have mod : (s * w + r) % w = r := by
    rw [Nat.mul_comm, Nat.mul_add_mod, Nat.mod_eq_of_lt hr]
  have div : (s * w + r) / w = s := by
    rw [Nat.mul_comm, Nat.mul_add_div (by omega), Nat.div_eq_of_lt hr, Nat.add_zero]
  rw [laid, mod, div]

theorem map_range_set (f : Nat → Nat) (n i v : Nat) :
    ((List.range n).map f).set i v = (List.range n).map fun p => if p = i then v else f p := by
  refine List.ext_getElem (by simp) fun p hp _ => ?_
  simp only [List.getElem_set, List.getElem_map, List.getElem_range]
  by_cases h : i = p
  · simp [h]
  · simp [h, Ne.symm h]

/-- The middle of a section `2 * h` wide at position `a`. -/
theorem bisectSection_section (wide : 2 ≤ h) (positions : List Nat) (next a : Nat)
    (secs : List (Nat × Nat)) :
    bisectSection (positions, next, secs) (a, a + (2 * h - 1)) =
      ((positions.set (a + h) next).set (a + (h - 1)) (next + 1), next + 2,
        secs ++ [(a, a + (h - 1)), (a + h, a + (2 * h - 1))]) := by
  have mid : (a + (a + (2 * h - 1))) / 2 = a + (h - 1) := by omega
  have next : a + (h - 1) + 1 = a + h := by omega
  rw [bisectSection, if_neg (by dsimp only; omega)]
  dsimp only
  rw [mid, next]

/-- Bisecting the section `s` writes its two middle seeds and leaves the rest. -/
theorem laid_bisected (wide : 2 ≤ h) :
    (if p = s * (2 * h) + (h - 1) then 2 ^ (k + 1) + 1 + 2 * s + 1
      else if p = s * (2 * h) + h then 2 ^ (k + 1) + 1 + 2 * s
      else if p < s * (2 * h) then laid (k + 1) h p else laid k (2 * h) p) =
      if p < (s + 1) * (2 * h) then laid (k + 1) h p else laid k (2 * h) p := by
  have next : (s + 1) * (2 * h) = s * (2 * h) + 2 * h := by rw [Nat.add_mul, Nat.one_mul]
  rcases Nat.lt_or_ge p (s * (2 * h)) with before | inside
  · rw [if_neg (by omega), if_neg (by omega), if_pos before, if_pos (by omega)]
  obtain ⟨r, rfl⟩ : ∃ r, p = s * (2 * h) + r := ⟨p - s * (2 * h), by omega⟩
  rcases Nat.lt_or_ge r (2 * h) with within | after
  swap
  · rw [if_neg (by omega), if_neg (by omega), if_neg (by omega), if_neg (by omega)]
  rw [if_pos (show s * (2 * h) + r < (s + 1) * (2 * h) by omega),
    if_neg (show ¬ s * (2 * h) + r < s * (2 * h) by omega), laid_at within]
  have twice : s * (2 * h) = 2 * s * h := by rw [← Nat.mul_assoc, Nat.mul_comm s 2]
  rcases Nat.lt_or_ge r h with lower | upper
  · -- the lower half: its first position is the section's, its last the second middle one
    rw [show s * (2 * h) + r = 2 * s * h + r by omega, laid_at lower,
      show 2 * (2 * s) = 4 * s by omega, seedAt_four_mul, seedAt_four_mul_add_one]
    by_cases first : r = 0
    · simp only [first, ↓reduceIte]
      rw [if_neg (by omega), if_neg (by omega)]
    · by_cases last : r = h - 1
      · rw [if_pos (by omega), if_neg first, if_pos last]
        omega
      · rw [if_neg (by omega), if_neg (by omega), if_neg first, if_neg (by omega), if_neg first,
          if_neg last]
  · -- the upper half: its first position is the first middle one, its last the section's
    obtain ⟨r, rfl⟩ : ∃ q, r = h + q := ⟨r - h, by omega⟩
    have shift : s * (2 * h) + (h + r) = (2 * s + 1) * h + r := by
      rw [Nat.add_mul, Nat.one_mul]
      omega
    rw [shift, laid_at (by omega), show 2 * (2 * s + 1) = 4 * s + 2 by omega,
      seedAt_four_mul_add_two, seedAt_four_mul_add_three]
    have start : (2 * s + 1) * h = s * (2 * h) + h := by
      rw [Nat.add_mul, Nat.one_mul]
      omega
    by_cases first : r = 0
    · rw [if_neg (by omega), if_pos (by omega), if_pos first]
      omega
    · by_cases last : r = h - 1
      · rw [if_neg (by omega), if_neg (by omega), if_neg (by omega), if_pos (by omega),
          if_neg first, if_pos last]
      · rw [if_neg (by omega), if_neg (by omega), if_neg (by omega), if_neg (by omega),
          if_neg first, if_neg last]

/-- **One level of the loop bisects its sections from left to right.** -/
theorem foldl_bisectSection (wide : 2 ≤ h) (k size s : Nat) :
    (sections (2 * h) s).foldl bisectSection
        ((List.range size).map (laid k (2 * h)), 2 ^ (k + 1) + 1, []) =
      ((List.range size).map
          (fun p => if p < s * (2 * h) then laid (k + 1) h p else laid k (2 * h) p),
        2 ^ (k + 1) + 1 + 2 * s, sections h (2 * s)) := by
  induction s with
  | zero => simp [sections]
  | succ s ih =>
    have secs : sections (2 * h) (s + 1) =
        sections (2 * h) s ++ [(s * (2 * h), s * (2 * h) + (2 * h - 1))] := by
      simp [sections, List.range_succ]
    have twice : s * (2 * h) = 2 * s * h := by rw [← Nat.mul_assoc, Nat.mul_comm s 2]
    have next : sections h (2 * (s + 1)) =
        sections h (2 * s) ++ [(s * (2 * h), s * (2 * h) + (h - 1)),
          (s * (2 * h) + h, s * (2 * h) + (2 * h - 1))] := by
      rw [show 2 * (s + 1) = 2 * s + 1 + 1 by omega]
      simp only [sections, List.range_succ, List.map_append, List.map_cons, List.map_nil,
        List.append_assoc, List.cons_append, List.nil_append, Nat.add_mul, Nat.one_mul]
      rw [twice, show 2 * s * h + h + (h - 1) = 2 * s * h + (2 * h - 1) by omega]
    rw [secs, List.foldl_append, ih, List.foldl_cons, List.foldl_nil,
      bisectSection_section wide, map_range_set, map_range_set, next]
    refine congrArg₂ Prod.mk (List.map_congr_left fun p _ => ?_) rfl
    rw [laid_bisected wide]

theorem bisectLevels_eq {fuel : Nat} (enough : m ≤ fuel) (k : Nat) :
    bisectLevels (2 ^ (k + m + 1)) fuel ((List.range (2 ^ (k + m + 1))).map (laid k (2 ^ (m + 1))))
        (2 ^ (k + 1) + 1) (sections (2 ^ (m + 1)) (2 ^ k)) =
      (List.range (2 ^ (k + m + 1))).map (seedAt (k + m)) := by
  induction m generalizing k fuel with
  | zero =>
    have full : (List.range (2 ^ (k + 1))).map (laid k 2) =
        (List.range (2 ^ (k + 1))).map (seedAt k) := by
      refine List.map_congr_left fun p _ => ?_
      have div := Nat.div_add_mod p 2
      rcases Nat.mod_two_eq_zero_or_one p with hm | hm
      · rw [laid, if_pos hm, show 2 * (p / 2) = p by omega]
      · rw [laid, if_neg (by omega), if_pos (by omega), show 2 * (p / 2) + 1 = p by omega]
    cases fuel with
    | zero => exact full
    | succ fuel =>
      rw [bisectLevels, if_pos (Or.inr (by simp))]
      exact full
  | succ m ih =>
    obtain ⟨fuel, rfl⟩ : ∃ f, fuel = f + 1 := ⟨fuel - 1, by omega⟩
    have more : 2 ^ (k + 1) < 2 ^ (k + (m + 1) + 1) :=
      Nat.pow_lt_pow_right (by omega) (by omega)
    have some : sections (2 ^ (m + 1 + 1)) (2 ^ k) ≠ [] := by
      simp [sections]
    have wide : 2 ≤ 2 ^ (m + 1) := by
      have := Nat.one_le_two_pow (n := m)
      rw [two_pow_succ]
      omega
    have width := two_pow_succ (m + 1)
    have covered : 2 ^ k * (2 * 2 ^ (m + 1)) = 2 ^ (k + (m + 1) + 1) := by
      rw [← two_pow_succ, ← Nat.pow_add]
      exact congrArg (2 ^ ·) (by omega)
    rw [bisectLevels, if_neg (by
      rintro (none | deep)
      · exact some none
      · omega), width, foldl_bisectSection wide]
    dsimp only
    have level : (List.range (2 ^ (k + (m + 1) + 1))).map
          (fun p => if p < 2 ^ k * (2 * 2 ^ (m + 1)) then laid (k + 1) (2 ^ (m + 1)) p
            else laid k (2 * 2 ^ (m + 1)) p) =
        (List.range (2 ^ (k + (m + 1) + 1))).map (laid (k + 1) (2 ^ (m + 1))) := by
      refine List.map_congr_left fun p hp => if_pos ?_
      rw [covered]
      exact List.mem_range.mp hp
    have next := @ih fuel (by omega) (k + 1)
    rw [level, show 2 ^ (k + 1) + 1 + 2 * 2 ^ k = 2 ^ (k + 1 + 1) + 1 by
      have := two_pow_succ k
      have := two_pow_succ (k + 1)
      omega, ← two_pow_succ, show k + (m + 1) = k + 1 + m by omega]
    exact next

/-- **`_bwf_positions` computes `seedAt`.** -/
theorem bwfPositions_eq (k : Nat) :
    bwfPositions (2 ^ (k + 1)) = (List.range (2 ^ (k + 1))).map (seedAt k) := by
  have size : 2 ≤ 2 ^ (k + 1) := by
    have := Nat.one_le_two_pow (n := k)
    rw [two_pow_succ]
    omega
  have start : ((List.replicate (2 ^ (k + 1)) 0).set 0 1).set (2 ^ (k + 1) - 1) 2 =
      (List.range (2 ^ (k + 1))).map (laid 0 (2 ^ (k + 1))) := by
    refine List.ext_getElem (by simp) fun p hp _ => ?_
    have lt : p < 2 ^ (k + 1) := by simpa using hp
    simp only [List.getElem_set, List.getElem_replicate, List.getElem_map, List.getElem_range]
    rw [laid, Nat.mod_eq_of_lt lt, Nat.div_eq_of_lt lt]
    by_cases first : p = 0
    · rw [if_neg (by omega), if_pos (by omega), if_pos first]
      rfl
    · rw [if_neg first]
      by_cases last : p = 2 ^ (k + 1) - 1
      · rw [if_pos (by omega), if_pos last]
        rfl
      · rw [if_neg (by omega), if_neg (by omega), if_neg last]
  have enough : k ≤ 2 ^ (k + 1) := by
    have := Nat.lt_two_pow_self (n := k + 1)
    omega
  have whole := bisectLevels_eq enough 0
  rw [Nat.zero_add] at whole
  rw [bwfPositions, start]
  simpa [sections] using whole

/-! ## Every seed stands once -/

theorem bwfPositions_perm (k : Nat) :
    (bwfPositions (2 ^ (k + 1))).Perm (List.range' 1 (2 ^ (k + 1))) := by
  have distinct : (bwfPositions (2 ^ (k + 1))).Nodup := by
    rw [bwfPositions_eq]
    exact (List.nodup_map_iff_inj_on List.nodup_range).mpr fun p hp p' hp' h =>
      seedAt_inj (List.mem_range.mp hp) (List.mem_range.mp hp') h
  apply (distinct.subperm fun seed h => ?_).perm_of_length_le
  · simp [bwfPositions_eq]
  · rw [bwfPositions_eq, List.mem_map] at h
    obtain ⟨p, hp, rfl⟩ := h
    have pos := seedAt_pos k p
    have le := seedAt_le (List.mem_range.mp hp)
    exact List.mem_range'_1.mpr ⟨by omega, by omega⟩

/-! ## Blocks of consecutive positions -/

theorem posAt_div (hi : i < 2 ^ (t + 1)) (m : Nat) :
    posAt (t + m) i / 2 ^ m = posAt t i := by
  induction m with
  | zero => simp
  | succ m ih =>
    have early : i < 2 ^ (t + m + 1) :=
      lt_of_lt_of_le hi (Nat.pow_le_pow_right (by omega) (by omega))
    have half : posAt (t + (m + 1)) i / 2 = posAt (t + m) i := by
      rw [← Nat.add_assoc, posAt, if_pos early]
      omega
    rw [two_pow_succ, ← Nat.div_div_eq_div_mul, half, ih]

/-- The block `b` of `w` consecutive positions. -/
def block (positions : List Nat) (w b : Nat) : List Nat := (positions.drop (b * w)).take w

def bestSeed (seeds : List Nat) : Nat := seeds.min?.getD 0

/-- Strength is balanced at every level of a bracket of size `2 ^ k`: the best seeds of a block
and its sibling sum to one more than the number of blocks. -/
def Balanced (positions : List Nat) (k : Nat) : Prop :=
  ∀ j, 1 ≤ j → j ≤ k → ∀ i, 2 * i + 1 < 2 ^ j →
    bestSeed (block positions (2 ^ k / 2 ^ j) (2 * i)) +
      bestSeed (block positions (2 ^ k / 2 ^ j) (2 * i + 1)) = 2 ^ j + 1

theorem mem_block {seed : Nat} :
    seed ∈ block ((List.range (2 ^ (k + 1))).map (seedAt k)) w b ↔
      ∃ p, b * w ≤ p ∧ p < b * w + w ∧ p < 2 ^ (k + 1) ∧ seedAt k p = seed := by
  rw [block, List.mem_iff_getElem?]
  constructor
  · rintro ⟨r, hr⟩
    rw [List.getElem?_take] at hr
    split at hr
    · next within =>
      rw [List.getElem?_drop, List.getElem?_map, Option.map_eq_some_iff] at hr
      obtain ⟨p, hp, rfl⟩ := hr
      obtain ⟨lt, rfl⟩ := List.getElem?_eq_some_iff.mp hp
      rw [List.length_range] at lt
      rw [List.getElem_range]
      exact ⟨b * w + r, by omega, by omega, lt, rfl⟩
    · cases hr
  · rintro ⟨p, low, high, lt, rfl⟩
    refine ⟨p - b * w, ?_⟩
    rw [List.getElem?_take, if_pos (by omega), List.getElem?_drop,
      show b * w + (p - b * w) = p by omega, List.getElem?_map, List.getElem?_range lt]
    rfl

/-- **The best seed of a block is the seed its position had when the block was one position.** -/
theorem bestSeed_block (hb : b < 2 ^ (t + 1)) :
    bestSeed (block (bwfPositions (2 ^ (t + m + 1))) (2 ^ m) b) = seedAt t b := by
  have size : 2 ^ (t + m + 1) = 2 ^ (t + 1) * 2 ^ m := by
    rw [← Nat.pow_add]
    exact congrArg (2 ^ ·) (by omega)
  have width : 0 < 2 ^ m := Nat.two_pow_pos m
  have pos := seedAt_pos t b
  have le := seedAt_le hb
  have early : 2 ^ (t + 1) ≤ 2 ^ (t + m + 1) := Nat.pow_le_pow_right (by omega) (by omega)
  rw [bwfPositions_eq, bestSeed, List.min?_eq_some_iff.mpr]
  · rfl
  constructor
  · -- the seed stands in the block
    have lt : seedAt t b - 1 < 2 ^ (t + 1) := by omega
    have seat := posAt_div lt m
    rw [posAt_seedAt hb] at seat
    have low := Nat.div_mul_le_self (posAt (t + m) (seedAt t b - 1)) (2 ^ m)
    have high := Nat.lt_div_mul_add (a := posAt (t + m) (seedAt t b - 1)) width
    rw [seat] at low high
    refine mem_block.mpr ⟨_, low, high, posAt_lt (by omega), ?_⟩
    rw [seedAt_posAt (by omega)]
    omega
  · -- and a better one would stand in another block
    intro seed h
    obtain ⟨p, low, high, lt, rfl⟩ := mem_block.mp h
    by_contra better
    have found := seedAt_pos (t + m) p
    have early : seedAt (t + m) p - 1 < 2 ^ (t + 1) := by omega
    have seat := posAt_div early m
    rw [posAt_seedAt lt] at seat
    have here : p / 2 ^ m = b := Nat.div_eq_of_lt_le low (by rw [Nat.add_mul]; omega)
    have same := seedAt_posAt early
    rw [← seat, here] at same
    omega

/-- **The placement is a permutation of the seeds; it is balanced exactly up to size 4.** -/
theorem bwfPositions_balanced_iff (k : Nat) :
    ((bwfPositions (2 ^ (k + 1))).Perm (List.range' 1 (2 ^ (k + 1))) ∧
      Balanced (bwfPositions (2 ^ (k + 1))) (k + 1)) ↔ k + 1 ≤ 2 := by
  have blocks : ∀ t m b, k = t + m → b < 2 ^ (t + 1) →
      bestSeed (block (bwfPositions (2 ^ (k + 1))) (2 ^ (k + 1) / 2 ^ (t + 1)) b) =
        seedAt t b := by
    rintro t m b rfl hb
    rw [Nat.pow_div (by omega) (by omega), show t + m + 1 - (t + 1) = m by omega]
    exact bestSeed_block hb
  constructor
  · rintro ⟨-, balanced⟩
    by_contra large
    -- on the third level seed 1 meets seed 6
    have third := balanced 3 (by omega) (by omega) 0 (by omega)
    rw [blocks 2 (k - 2) (2 * 0) (by omega) (by omega),
      blocks 2 (k - 2) (2 * 0 + 1) (by omega) (by omega)] at third
    simp [seedAt] at third
  · intro small
    refine ⟨bwfPositions_perm k, fun j first last i hi => ?_⟩
    obtain ⟨t, rfl⟩ : ∃ t, j = t + 1 := ⟨j - 1, by omega⟩
    rw [blocks t (k - t) (2 * i) (by omega) (by omega),
      blocks t (k - t) (2 * i + 1) (by omega) (by omega)]
    obtain rfl | rfl : t = 0 ∨ t = 1 := by omega
    · simp only [seedAt]
      omega
    · obtain rfl | rfl : i = 0 ∨ i = 1 := by omega
      · rfl
      · rfl

/-- Eight seeds: seed 8 stands in the quarter of seed 3, and seed 1 opens against seed 6. -/
theorem bwfPositions_eight :
    bwfPositions 8 = [1, 6, 5, 4, 3, 8, 7, 2] ∧
      ¬ ((bwfPositions 8).Perm (List.range' 1 8) ∧ Balanced (bwfPositions 8) 3) := by
  refine ⟨by decide, fun h => ?_⟩
  have pair := h.2 3 (by decide) (by decide) 0 (by decide)
  revert pair
  decide

end Brackets
