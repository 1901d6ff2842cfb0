import ShuttleWorks.Brackets.Draw
import ShuttleWorks.Lib.Grid
import ShuttleWorks.Lib.Tally

/-! Longest-path dependency waves: the rounds of the segment formats. On units
that stand in dependency order the layering is defined, every unit is in exactly
one wave and every dependency in a strictly earlier one. -/

namespace Brackets
open Lib

/-- One more than the largest depth among these units; 0 when there are none. -/
def depthAbove (depth : PlayUnitId → Option Nat) : List PlayUnitId → Option Nat
  | [] => some 0
  | d :: ds =>
    match depth d, depthAbove depth ds with
    | some a, some b => some (max (a + 1) b)
    | _, _ => none

/-- `_depth`, for a recursion no deeper than `fuel`; a cycle is deeper than any. -/
def depth (units : PlayUnits) : Nat → PlayUnitId → Option Nat
  | 0, _ => none
  | fuel + 1, id =>
    match units.get id with
    | none => none
    | some unit =>
      depthAbove (depth units fuel) (unit.dependencies.filter fun d => units.Has d)

def wave (units : PlayUnits) (id : PlayUnitId) : Option Nat :=
  depth units (units.rows.length + 1) id

/-- `metadata_order_key`, compared. -/
def orderKeyLe (u v : PlayUnit) : Prop :=
  u.metadata.segmentOrder < v.metadata.segmentOrder ∨
    (u.metadata.segmentOrder = v.metadata.segmentOrder ∧
      (u.metadata.round < v.metadata.round ∨
        (u.metadata.round = v.metadata.round ∧
          (u.metadata.matchIndex < v.metadata.matchIndex ∨
            (u.metadata.matchIndex = v.metadata.matchIndex ∧ u.id ≤ v.id)))))

instance : DecidableRel orderKeyLe := fun _ _ => inferInstanceAs (Decidable (_ ∨ _))

def waveUnits (units : PlayUnits) (w : Nat) : List PlayUnitId :=
  ((units.rows.filter fun u => wave units u.id = some w).insertionSort orderKeyLe).map PlayUnit.id

def deepest (units : PlayUnits) : Nat :=
  (units.rows.map fun u => (wave units u.id).getD 0).foldl max 0

def wavesFromDependencies (units : PlayUnits) : Except String (List (List PlayUnitId)) :=
  match units.rows.find? (fun u => wave units u.id = none) with
  | some u => .error ("dependency cycle through play unit '" ++ u.id ++ "'")
  | none =>
    if units.rows = [] then .ok []
    else .ok ((List.range (deepest units + 1)).map (waveUnits units))

/-! ## Depths -/

variable {units : PlayUnits} {f : PlayUnitId → Option Nat} {l : List PlayUnitId} {n : Nat}
  {d : PlayUnitId} {fuel : Nat} {u : PlayUnit} {w : Nat}

theorem depthAbove_isSome (h : ∀ d ∈ l, (f d).isSome) : (depthAbove f l).isSome := by
  induction l with
  | nil => rfl
  | cons d l ih =>
    obtain ⟨a, ha⟩ := Option.isSome_iff_exists.mp (h d List.mem_cons_self)
    obtain ⟨b, hb⟩ := Option.isSome_iff_exists.mp (ih (fun d hd => h d (List.mem_cons_of_mem _ hd)))
    simp [depthAbove, ha, hb]

theorem depthAbove_lt (h : depthAbove f l = some n) (hd : d ∈ l) :
    ∃ m, f d = some m ∧ m < n := by
  induction l generalizing n with
  | nil => simp at hd
  | cons e l ih =>
    rw [depthAbove] at h
    split at h
    · next a b ha hb =>
      have top : max (a + 1) b = n := Option.some.inj h
      rcases List.mem_cons.mp hd with rfl | hd
      · exact ⟨a, ha, by omega⟩
      · obtain ⟨m, hm, lt⟩ := ih hb hd
        exact ⟨m, hm, by omega⟩
    · cases h

theorem depthAbove_congr {g : PlayUnitId → Option Nat} (h : ∀ d ∈ l, f d = g d) :
    depthAbove f l = depthAbove g l := by
  induction l with
  | nil => rfl
  | cons d l ih =>
    rw [depthAbove, depthAbove, h d List.mem_cons_self,
      ih (fun d hd => h d (List.mem_cons_of_mem _ hd))]

theorem depth_succ {id : PlayUnitId} (h : depth units fuel id = some n) :
    depth units (fuel + 1) id = some n := by
  induction fuel generalizing id n with
  | zero => cases h
  | succ fuel ih =>
    rw [depth] at h ⊢
    cases hu : units.get id with
    | none => simp [hu] at h
    | some u =>
      simp only [hu] at h ⊢
      rw [← h]
      refine depthAbove_congr (fun d hd => ?_)
      obtain ⟨m, hm, -⟩ := depthAbove_lt h hd
      rw [hm, ih hm]

theorem depth_mono {fuel' : Nat} (hf : fuel ≤ fuel') {id : PlayUnitId}
    (h : depth units fuel id = some n) : depth units fuel' id = some n := by
  induction hf with
  | refl => exact h
  | step _ ih => exact depth_succ ih

theorem depth_isSome (ordered : Ordered PlayUnit.id PlayUnit.dependencies [] units.rows) :
    ∀ (n : Nat) (before after : List PlayUnit) (u : PlayUnit), before.length = n →
      units.rows = before ++ u :: after → (depth units (n + 1) u.id).isSome := by
  intro n
  induction n using Nat.strong_induction_on with
  | h n ih =>
    intro before after u len rows
    have stored : units.get u.id = some u := Table.get_eq_some_iff.mpr ⟨by simp [rows], rfl⟩
    rw [depth]
    simp only [stored]
    refine depthAbove_isSome (fun d hd => ?_)
    have hd : d ∈ u.dependencies := List.mem_of_mem_filter hd
    rw [rows] at ordered
    obtain ⟨hdeps, -⟩ := ordered.of_append.2
    have := hdeps d hd
    simp only [List.append_nil, List.mem_map] at this
    obtain ⟨v, hv, rfl⟩ := this
    obtain ⟨l, m, rfl⟩ := List.append_of_mem hv
    have small : l.length < n := by
      rw [← len]
      simp
    obtain ⟨k, hk⟩ := Option.isSome_iff_exists.mp
      (ih l.length small l (m ++ u :: after) v rfl (by rw [rows]; simp))
    rw [depth_mono (by omega) hk]
    rfl

theorem wave_isSome (ordered : Ordered PlayUnit.id PlayUnit.dependencies [] units.rows)
    (hu : u ∈ units.rows) : ∃ w, wave units u.id = some w := by
  obtain ⟨l, m, rows⟩ := List.append_of_mem hu
  obtain ⟨k, hk⟩ := Option.isSome_iff_exists.mp (depth_isSome ordered l.length l m u rfl rows)
  refine ⟨k, depth_mono ?_ hk⟩
  rw [rows]
  simp

theorem wave_lt (hu : u ∈ units.rows) (h : wave units u.id = some w) (hd : d ∈ u.dependencies)
    (has : units.Has d) :
    ∃ m < w, wave units d = some m := by
  have stored : units.get u.id = some u := Table.get_eq_some_iff.mpr ⟨hu, rfl⟩
  rw [wave, depth] at h
  simp only [stored] at h
  obtain ⟨m, hm, lt⟩ := depthAbove_lt h (List.mem_filter.mpr ⟨hd, by simpa using has⟩)
  exact ⟨m, lt, depth_succ hm⟩

theorem wave_zero (hu : u ∈ units.rows) (h : u.dependencies = []) :
    wave units u.id = some 0 := by
  have stored : units.get u.id = some u := Table.get_eq_some_iff.mpr ⟨hu, rfl⟩
  simp [wave, depth, stored, h, depthAbove]

/-! ## Waves -/

theorem mem_waveUnits {id : PlayUnitId} :
    id ∈ waveUnits units w ↔ ∃ u ∈ units.rows, u.id = id ∧ wave units id = some w := by
  simp only [waveUnits, List.mem_map, List.mem_insertionSort, List.mem_filter, decide_eq_true_eq]
  constructor
  · rintro ⟨u, ⟨hu, hw⟩, rfl⟩
    exact ⟨u, hu, rfl, hw⟩
  · rintro ⟨u, hu, rfl, hw⟩
    exact ⟨u, ⟨hu, hw⟩, rfl⟩

theorem nodup_waveUnits (w : Nat) : (waveUnits units w).Nodup := by
  have filtered := ((List.filter_sublist (p := fun u => decide (wave units u.id = some w))
    (l := units.rows)).map PlayUnit.id).nodup units.unique
  exact (((List.perm_insertionSort orderKeyLe _).map PlayUnit.id).nodup_iff).mpr filtered

/-- What the layering gives on units in dependency order. -/
structure Layered (units : PlayUnits) (rounds : List (List PlayUnitId)) : Prop where
  all : rounds.flatten.Perm (units.rows.map PlayUnit.id)
  wave : ∀ u ∈ units.rows, ∃ w, wave units u.id = some w
  round : ∀ n id, (∃ r, rounds[n]? = some r ∧ id ∈ r) ↔
    ∃ u ∈ units.rows, u.id = id ∧ Brackets.wave units id = some n

/-- **The waves of units in dependency order.** -/
theorem wavesFromDependencies_ok
    (ordered : Ordered PlayUnit.id PlayUnit.dependencies [] units.rows) :
    ∃ rounds, wavesFromDependencies units = .ok rounds ∧ Layered units rounds := by
  have acyclic : units.rows.find? (fun u => wave units u.id = none) = none := by
    rw [List.find?_eq_none]
    intro u hu
    obtain ⟨w, hw⟩ := wave_isSome ordered hu
    simp [hw]
  unfold wavesFromDependencies
  rw [acyclic]
  dsimp only
  split
  · next h =>
    exact ⟨[], rfl, by simp [h], by simp [h], by simp [h]⟩
  · have round : ∀ n id, (∃ r, ((List.range (deepest units + 1)).map (waveUnits units))[n]? =
        some r ∧ id ∈ r) ↔ ∃ u ∈ units.rows, u.id = id ∧ wave units id = some n := by
      intro n id
      simp only [List.getElem?_map, Option.map_eq_some_iff, getElem?_range_eq_some]
      constructor
      · rintro ⟨r, ⟨m, ⟨-, rfl⟩, rfl⟩, hid⟩
        exact mem_waveUnits.mp hid
      · rintro ⟨u, hu, rfl, hw⟩
        have le : n ≤ deepest units := by
          refine le_foldl_max (Or.inr (List.mem_map.mpr ⟨u, hu, ?_⟩))
          rw [hw]
          rfl
        exact ⟨_, ⟨n, ⟨by omega, rfl⟩, rfl⟩, mem_waveUnits.mpr ⟨u, hu, rfl, hw⟩⟩
    refine ⟨_, rfl, ?_, fun u hu => wave_isSome ordered hu, round⟩
    rw [List.perm_ext_iff_of_nodup ?_ units.unique]
    · intro id
      rw [List.mem_flatten]
      constructor
      · rintro ⟨r, hr, hid⟩
        obtain ⟨n, hn⟩ := List.getElem?_of_mem hr
        obtain ⟨u, hu, rfl, -⟩ := (round n id).mp ⟨r, hn, hid⟩
        exact List.mem_map_of_mem hu
      · intro hid
        obtain ⟨u, hu, rfl⟩ := List.mem_map.mp hid
        obtain ⟨w, hw⟩ := wave_isSome ordered hu
        obtain ⟨r, hr, hid⟩ := (round w u.id).mpr ⟨u, hu, rfl, hw⟩
        exact ⟨r, List.mem_of_getElem? hr, hid⟩
    · rw [List.nodup_flatten]
      constructor
      · intro r hr
        obtain ⟨w, -, rfl⟩ := List.mem_map.mp hr
        exact nodup_waveUnits w
      · rw [List.pairwise_map]
        refine List.Pairwise.imp ?_ List.pairwise_lt_range
        intro w w' lt id hid hid'
        obtain ⟨u, -, rfl, hw⟩ := mem_waveUnits.mp hid
        obtain ⟨u', -, -, hw'⟩ := mem_waveUnits.mp hid'
        rw [hw] at hw'
        cases hw'
        omega

end Brackets
