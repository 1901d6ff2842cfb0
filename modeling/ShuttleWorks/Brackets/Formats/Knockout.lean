import Mathlib.Algebra.Ring.Int.Defs
import Mathlib.Algebra.Ring.Nat
import ShuttleWorks.Brackets.Draw
import ShuttleWorks.Lib.Text

/-! The knockout cascade over any entry slots. Single elimination and the segments
of the other formats build it with their own ids and metadata; its rounds have a
closed form, unit by unit. -/

namespace Brackets
open Lib

/-! ## The cascade -/

def sideOf : BracketSlot → Side
  | .participant p => if p = BYE then [] else [p]
  | .feeder _ _ => []

/-- The feeders of two slots, each once. -/
def feedersOf (slotA slotB : BracketSlot) : List PlayUnitId :=
  match slotA.feederPlayUnitId, slotB.feederPlayUnitId with
  | some a, some b => if b = a then [a] else [a, b]
  | some a, none => [a]
  | none, some b => [b]
  | none, none => []

theorem mem_feedersOf {slotA slotB : BracketSlot} {x : PlayUnitId} :
    x ∈ feedersOf slotA slotB ↔ slotA.FedBy x ∨ slotB.FedBy x := by
  unfold feedersOf BracketSlot.FedBy
  cases slotA.feederPlayUnitId with
  | none => cases slotB.feederPlayUnitId <;> simp [eq_comm]
  | some a =>
    cases slotB.feederPlayUnitId with
    | none => simp [eq_comm]
    | some b =>
      by_cases e : b = a
      · simp [e, eq_comm]
      · simp [e, eq_comm]

/-- What the units of one cascade share, and how their ids and metadata are formed. -/
structure Cascade where
  eventId : EventId
  durationSlots : Nat
  unitId : Nat → Nat → PlayUnitId
  metadata : Nat → Nat → Metadata

namespace Cascade

/-- A unit over two slots. -/
def unit (c : Cascade) (r m : Nat) (slotA slotB : BracketSlot) (dependencies : List PlayUnitId) :
    PlayUnit where
  id := c.unitId r m
  eventId := c.eventId
  sideA := sideOf slotA
  sideB := sideOf slotB
  slotA := slotA
  slotB := slotB
  expectedDurationSlots := c.durationSlots
  dependencies := dependencies
  metadata := c.metadata r m

end Cascade

def pairs {α : Type} : List α → List (α × α)
  | a :: b :: l => (a, b) :: pairs l
  | _ => []

namespace Cascade

def firstRound (c : Cascade) (entrySlots : List BracketSlot) : List PlayUnit :=
  (pairs entrySlots).zipIdx.map fun p =>
    c.unit 0 p.2 p.1.1 p.1.2 (feedersOf p.1.1 p.1.2)

def nextRound (c : Cascade) (r : Nat) (prev : List PlayUnitId) : List PlayUnit :=
  (pairs prev).zipIdx.map fun p =>
    c.unit r p.2 (.feeder p.1.1 .winner) (.feeder p.1.2 .winner) [p.1.1, p.1.2]

/-- The rounds after `prev`, until one unit is left. -/
def laterRounds (c : Cascade) : Nat → Nat → List PlayUnitId → List (List PlayUnit)
  | 0, _, _ => []
  | fuel + 1, r, prev =>
    if prev.length ≤ 1 then []
    else c.nextRound r prev ::
      c.laterRounds fuel (r + 1) ((c.nextRound r prev).map PlayUnit.id)

def rounds (c : Cascade) (entrySlots : List BracketSlot) : List (List PlayUnit) :=
  c.firstRound entrySlots ::
    c.laterRounds entrySlots.length 1 ((c.firstRound entrySlots).map PlayUnit.id)

end Cascade

def knockoutUnitId (idPrefix segId : String) (r m : Nat) : PlayUnitId :=
  idPrefix ++ ("-" ++ (segId ++ "-" ++ ("R" ++ (toString r ++ "-" ++ toString m))))

/-- The ids and metadata of a segment. -/
def segmentCascade (eventId : EventId) (idPrefix segId : String) (segOrder durationSlots : Nat)
    (startPositions : Option (Nat × Nat)) : Cascade where
  eventId := eventId
  durationSlots := durationSlots
  unitId := knockoutUnitId idPrefix segId
  metadata r m :=
    { segment := some segId, segmentOrder := segOrder, round := r, matchIndex := m
      positions := startPositions }

/-- `build_knockout`: the units of the segment round by round. -/
def buildKnockout (entrySlots : List BracketSlot) (eventId : EventId) (idPrefix segId : String)
    (segOrder durationSlots : Nat) (startPositions : Option (Nat × Nat) := none) :
    Except String (List (List PlayUnit)) :=
  if entrySlots.length < 2 ∨ entrySlots.length &&& (entrySlots.length - 1) ≠ 0 then
    .error ("knockout segment '" ++ segId ++ "' needs a power-of-two entry count >= 2, got " ++
      toString entrySlots.length)
  else
    .ok ((segmentCascade eventId idPrefix segId segOrder durationSlots startPositions).rounds
      entrySlots)

/-! ## Ids -/

theorem knockoutUnitId_inj {p seg seg' : String} (h : DashFree seg) (h' : DashFree seg')
    {r m r' m' : Nat} (e : knockoutUnitId p seg r m = knockoutUnitId p seg' r' m') :
    seg = seg' ∧ r = r' ∧ m = m' := by
  have tail := (String.append_right_inj _).mp ((String.append_right_inj _).mp e)
  obtain ⟨hs, hr⟩ := dash_inj h h' tail
  obtain ⟨hr, hm⟩ := dash_inj (dashFree_toString r) (dashFree_toString r')
    ((String.append_right_inj _).mp hr)
  exact ⟨hs, toString_injective hr, toString_injective hm⟩

/-! ## The closed form -/

variable {α : Type} {k : Nat}

theorem pairs_append {l : List α} (h : l.length % 2 = 0) (a b : α) :
    pairs (l ++ [a, b]) = pairs l ++ [(a, b)] := by
  match l, h with
  | [], _ => rfl
  | [x], h => simp at h
  | x :: y :: l, h =>
    have : l.length % 2 = 0 := by
      simp only [List.length_cons] at h
      omega
    simp only [List.cons_append, pairs, pairs_append this]

theorem pairs_range (f : Nat → α) (n : Nat) :
    pairs ((List.range (2 * n)).map f) = (List.range n).map fun m => (f (2 * m), f (2 * m + 1)) := by
  induction n with
  | zero => rfl
  | succ n ih =>
    have two : List.range (2 * (n + 1)) = List.range (2 * n) ++ [2 * n, 2 * n + 1] := by
      rw [show 2 * (n + 1) = 2 * n + 1 + 1 from by omega, List.range_succ, List.range_succ]
      simp
    rw [two, List.map_append, List.map_cons, List.map_cons, List.map_nil,
      pairs_append (by simp), ih, List.range_succ, List.map_append]
    rfl

theorem zipIdx_range {β : Type} (f : Nat → α) (g : α × Nat → β) (n : Nat) :
    ((List.range n).map f).zipIdx.map g = (List.range n).map fun m => g (f m, m) := by
  refine List.ext_getElem (by simp) (fun i h h' => ?_)
  simp

theorem eq_range_map (l : List α) (d : α) :
    l = (List.range l.length).map fun i => l.getD i d := by
  refine List.ext_getElem (by simp) (fun i h h' => ?_)
  simp [List.getD, h]

namespace Cascade

/-- The unit `m` of round `r`. -/
def unitAt (c : Cascade) (entry : Nat → BracketSlot) : Nat → Nat → PlayUnit
  | 0, m => c.unit 0 m (entry (2 * m)) (entry (2 * m + 1))
      (feedersOf (entry (2 * m)) (entry (2 * m + 1)))
  | r + 1, m =>
    c.unit (r + 1) m (.feeder (c.unitId r (2 * m)) .winner)
      (.feeder (c.unitId r (2 * m + 1)) .winner) [c.unitId r (2 * m), c.unitId r (2 * m + 1)]

@[simp] theorem unitAt_id (c : Cascade) (entry : Nat → BracketSlot) (r m : Nat) :
    (c.unitAt entry r m).id = c.unitId r m := by
  cases r <;> rfl

@[simp] theorem unitAt_eventId (c : Cascade) (entry : Nat → BracketSlot) (r m : Nat) :
    (c.unitAt entry r m).eventId = c.eventId := by
  cases r <;> rfl

@[simp] theorem unitAt_metadata (c : Cascade) (entry : Nat → BracketSlot) (r m : Nat) :
    (c.unitAt entry r m).metadata = c.metadata r m := by
  cases r <;> rfl

theorem map_unitAt_id (c : Cascade) (entry : Nat → BracketSlot) (r n : Nat) :
    ((List.range n).map (c.unitAt entry r)).map PlayUnit.id = (List.range n).map (c.unitId r) := by
  rw [List.map_map]
  exact List.map_congr_left (fun m _ => unitAt_id c entry r m)

theorem firstRound_eq (c : Cascade) (entry : Nat → BracketSlot) (n : Nat) :
    c.firstRound ((List.range (2 * n)).map entry) = (List.range n).map (c.unitAt entry 0) := by
  rw [firstRound, pairs_range, zipIdx_range]
  rfl

theorem nextRound_eq (c : Cascade) (entry : Nat → BracketSlot) (r n : Nat) :
    c.nextRound (r + 1) ((List.range (2 * n)).map (c.unitId r)) =
      (List.range n).map (c.unitAt entry (r + 1)) := by
  rw [nextRound, pairs_range, zipIdx_range]
  rfl

theorem laterRounds_eq (c : Cascade) (entry : Nat → BracketSlot) {j fuel : Nat} (h : j ≤ fuel)
    (r : Nat) :
    c.laterRounds fuel (r + 1) ((List.range (2 ^ j)).map (c.unitId r)) =
      (List.range j).map fun i =>
        (List.range (2 ^ (j - 1 - i))).map (c.unitAt entry (r + 1 + i)) := by
  induction j generalizing fuel r with
  | zero =>
    cases fuel with
    | zero => rfl
    | succ fuel => simp [laterRounds]
  | succ j ih =>
    cases fuel with
    | zero => omega
    | succ fuel =>
      have double : 2 ^ (j + 1) = 2 * 2 ^ j := by rw [Nat.pow_succ, Nat.mul_comm]
      have more : ¬ ((List.range (2 ^ (j + 1))).map (c.unitId r)).length ≤ 1 := by
        have : 0 < 2 ^ j := Nat.two_pow_pos j
        simp only [List.length_map, List.length_range]
        omega
      rw [laterRounds, if_neg more, double, nextRound_eq c entry, map_unitAt_id,
        ih (by omega) (r + 1), List.range_succ_eq_map, List.map_cons, List.map_map]
      refine congrArg₂ _ (by simp) (List.map_congr_left (fun i _ => ?_))
      simp only [Function.comp_apply, Nat.succ_eq_add_one]
      rw [show j + 1 - 1 - (i + 1) = j - 1 - i from by omega,
        show r + 1 + 1 + i = r + 1 + (i + 1) from by omega]

/-- **The rounds of a cascade over `2 ^ (k + 1)` entries.** -/
theorem rounds_eq (c : Cascade) {entrySlots : List BracketSlot}
    (h : entrySlots.length = 2 ^ (k + 1)) (d : BracketSlot) :
    c.rounds entrySlots = (List.range (k + 1)).map fun r =>
      (List.range (2 ^ (k - r))).map (c.unitAt (fun i => entrySlots.getD i d) r) := by
  have first : c.firstRound entrySlots =
      (List.range (2 ^ k)).map (c.unitAt (fun i => entrySlots.getD i d) 0) := by
    conv_lhs => rw [eq_range_map entrySlots d, h, Nat.pow_succ, Nat.mul_comm]
    rw [firstRound_eq]
  have fuel : k ≤ entrySlots.length := by
    rw [h]
    have := Nat.lt_two_pow_self (n := k + 1)
    omega
  rw [rounds, first, map_unitAt_id, laterRounds_eq c (fun i => entrySlots.getD i d) fuel,
    List.range_succ_eq_map, List.map_cons, List.map_map]
  refine congrArg₂ _ (by simp) (List.map_congr_left (fun i _ => ?_))
  simp only [Function.comp_apply, Nat.succ_eq_add_one]
  rw [show k - 1 - i = k - (i + 1) from by omega, show 0 + 1 + i = i + 1 from by omega]

end Cascade

theorem power_of_two {n : Nat} (h : ¬ (n < 2 ∨ n &&& (n - 1) ≠ 0)) : ∃ k, n = 2 ^ (k + 1) := by
  rw [not_or, not_not] at h
  obtain ⟨k, hk⟩ := (Nat.and_sub_one_eq_zero_iff_isPowerOfTwo (by omega)).mp h.2
  cases k with
  | zero => omega
  | succ k => exact ⟨k, hk⟩

theorem power_of_two_test (k : Nat) :
    ¬ (2 ^ (k + 1) < 2 ∨ 2 ^ (k + 1) &&& (2 ^ (k + 1) - 1) ≠ 0) := by
  have pos : 0 < 2 ^ k := Nat.two_pow_pos k
  rw [not_or, not_not]
  refine ⟨by rw [Nat.pow_succ]; omega, ?_⟩
  exact (Nat.and_sub_one_eq_zero_iff_isPowerOfTwo (by rw [Nat.pow_succ]; omega)).mpr ⟨k + 1, rfl⟩

theorem buildKnockout_eq {entrySlots : List BracketSlot} (h : entrySlots.length = 2 ^ (k + 1))
    (eventId : EventId) (idPrefix segId : String) (segOrder durationSlots : Nat)
    (startPositions : Option (Nat × Nat)) :
    buildKnockout entrySlots eventId idPrefix segId segOrder durationSlots startPositions =
      .ok ((segmentCascade eventId idPrefix segId segOrder durationSlots startPositions).rounds
        entrySlots) := by
  rw [buildKnockout, if_neg]
  rw [h]
  exact power_of_two_test k

end Brackets
