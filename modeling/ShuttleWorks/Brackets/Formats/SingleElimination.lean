import ShuttleWorks.Brackets.Formats.Rounds
import ShuttleWorks.Brackets.Formats.Spawn

/-! The single-elimination draw: one cascade over the seeded entrants. -/

namespace Brackets
open Lib

/-- The ids and metadata of a cascade in plain rounds. -/
def plainCascade (eventId : EventId) (idPrefix : String) (durationSlots : Nat) : Cascade where
  eventId := eventId
  durationSlots := durationSlots
  unitId := roundUnitId idPrefix
  metadata r m := { round := r, matchIndex := m }

def generateSingleElimination (participants : List Participant) (eventId : EventId)
    (idPrefix : String) (durationSlots : Nat) (seededCount bracketSize : Option Nat)
    (randomize : Bool := false) : Except String Draw :=
  if randomize then
    .error "randomize=True is not yet supported; deterministic placement only"
  else (bracketShape participants seededCount bracketSize).map fun shape =>
    plainDraw (knockoutEvent eventId "single_elimination" shape.1 participants.length shape.2)
      participants
      ((plainCascade eventId idPrefix durationSlots).rounds (entrantSlots participants shape.1))

variable {r m : Nat}

namespace Cascade

variable {c : Cascade} {entry : Nat → BracketSlot}

theorem unitAt_dependsOnFeeders (entrants : ∀ i, ∃ p, entry i = .participant p) (r m : Nat) :
    let u := c.unitAt entry r m
    (u.Concrete ∨ u.Waiting) ∧ u.DependsOnFeeders := by
  cases r with
  | zero =>
    obtain ⟨a, ha⟩ := entrants (2 * m)
    obtain ⟨b, hb⟩ := entrants (2 * m + 1)
    have concrete : (c.unitAt entry 0 m).Concrete := by
      simp only [unitAt, ha, hb]
      exact ⟨rfl, ⟨a, rfl⟩, b, rfl⟩
    exact ⟨Or.inl concrete, dependsOnFeeders_of_concrete concrete⟩
  | succ r =>
    have feeders : (c.unitAt entry (r + 1) m).DependsOnFeeders := by
      intro x
      simp [unitAt, unit, eq_comm]
    exact ⟨Or.inr (waiting_of_feeders rfl rfl rfl rfl feeders), feeders⟩

theorem unitAt_fedOnce (entrants : ∀ i, ∃ p, entry i = .participant p)
    (inj : ∀ {r m r' m'}, c.unitId r m = c.unitId r' m' → r = r' ∧ m = m') {r' m' : Nat}
    {i j : PlayUnit.Place} {id : PlayUnitId} {take : FeederTake}
    (hi : (c.unitAt entry r m).slot i = .feeder id take)
    (hj : (c.unitAt entry r' m').slot j = .feeder id take) : (r = r' ∧ m = m') ∧ i = j := by
  rw [SpawnPlan.slot_unitAt] at hi hj
  cases r with
  | zero =>
    obtain ⟨p, hp⟩ := entrants (2 * m + (if i = .A then 0 else 1))
    dsimp only at hi
    rw [hp] at hi
    cases hi
  | succ r =>
    cases r' with
    | zero =>
      obtain ⟨p, hp⟩ := entrants (2 * m' + (if j = .A then 0 else 1))
      dsimp only at hj
      rw [hp] at hj
      cases hj
    | succ r' =>
      obtain ⟨rfl, same⟩ := inj
        ((BracketSlot.feeder.inj hi).1.trans (BracketSlot.feeder.inj hj).1.symm)
      obtain ⟨rfl, rfl⟩ := SpawnPlan.place_inj same
      exact ⟨⟨rfl, rfl⟩, rfl⟩

end Cascade

section rounds

variable (participants : List Participant) (eventId : EventId) (idPrefix : String)
  (durationSlots k : Nat)

def entrantAt (i : Nat) : BracketSlot :=
  (entrantSlots participants (2 ^ (k + 1))).getD i (.participant BYE)

def singleRounds : List (List PlayUnit) :=
  (plainCascade eventId idPrefix durationSlots).rounds (entrantSlots participants (2 ^ (k + 1)))

theorem entrantAt_participant (i : Nat) : ∃ p, entrantAt participants k i = .participant p := by
  rw [entrantAt, List.getD_eq_getElem?_getD]
  cases hi : (entrantSlots participants (2 ^ (k + 1)))[i]? with
  | none => exact ⟨BYE, rfl⟩
  | some s => exact entrantSlots_participants _ _ s (List.mem_of_getElem? hi)

theorem at_singleRounds {u : PlayUnit} :
    At (singleRounds participants eventId idPrefix durationSlots k) r m u ↔
      r < k + 1 ∧ m < 2 ^ (k - r) ∧ (plainCascade eventId idPrefix durationSlots).unitAt
        (entrantAt participants k) r m = u := by
  rw [singleRounds, Cascade.rounds_eq _ (length_entrantSlots _ _) (.participant BYE), at_table]
  rfl

theorem singleRounds_plain :
    PlainRounds idPrefix eventId (singleRounds participants eventId idPrefix durationSlots k) where
  id := by
    intro r m u hu
    obtain ⟨-, -, rfl⟩ := (at_singleRounds ..).mp hu
    rw [Cascade.unitAt_id, Cascade.unitAt_metadata]
    rfl
  round := by
    intro r m u hu
    obtain ⟨-, -, rfl⟩ := (at_singleRounds ..).mp hu
    rw [Cascade.unitAt_metadata]
    rfl
  ascending := by
    intro row hrow
    rw [singleRounds, Cascade.rounds_eq _ (length_entrantSlots _ _) (.participant BYE)] at hrow
    obtain ⟨r, -, rfl⟩ := List.mem_map.mp hrow
    refine List.pairwise_map.mpr (List.pairwise_lt_range.imp ?_)
    intro m m' lt
    rw [Cascade.unitAt_metadata, Cascade.unitAt_metadata]
    exact lt
  event := by
    intro r m u hu
    obtain ⟨-, -, rfl⟩ := (at_singleRounds ..).mp hu
    exact Cascade.unitAt_eventId _ _ _ _
  segment := by
    intro r m u hu
    obtain ⟨-, -, rfl⟩ := (at_singleRounds ..).mp hu
    rw [Cascade.unitAt_metadata]
    rfl
  shape := by
    intro r m u hu
    obtain ⟨-, -, rfl⟩ := (at_singleRounds ..).mp hu
    exact (Cascade.unitAt_dependsOnFeeders (entrantAt_participant participants k) r m).1
  depends := by
    intro r m u hu d hd
    obtain ⟨hr, hm, rfl⟩ := (at_singleRounds ..).mp hu
    cases r with
    | zero =>
      obtain ⟨a, ha⟩ := entrantAt_participant participants k (2 * m)
      obtain ⟨b, hb⟩ := entrantAt_participant participants k (2 * m + 1)
      simp [Cascade.unitAt, Cascade.unit, ha, hb, feedersOf, BracketSlot.feederPlayUnitId] at hd
    | succ r =>
      obtain ⟨hA, hB⟩ := SpawnPlan.next_bound hr hm
      simp only [Cascade.unitAt, Cascade.unit, List.mem_cons, List.not_mem_nil, or_false] at hd
      rcases hd with rfl | rfl
      · exact ⟨r, by omega, 2 * m, _, (at_singleRounds ..).mpr ⟨by omega, hA, rfl⟩,
          Cascade.unitAt_id _ _ _ _⟩
      · exact ⟨r, by omega, 2 * m + 1, _, (at_singleRounds ..).mpr ⟨by omega, hB, rfl⟩,
          Cascade.unitAt_id _ _ _ _⟩
  first := by
    intro r m u hu deps _
    obtain ⟨-, -, rfl⟩ := (at_singleRounds ..).mp hu
    cases r with
    | zero => rfl
    | succ r => simp [Cascade.unitAt, Cascade.unit] at deps

/-- **Each outcome of a single elimination feeds one slot at most.** -/
theorem singleRounds_fedOnce :
    FedOnce (singleRounds participants eventId idPrefix durationSlots k).flatten := by
  intro u hu v hv i j id take hi hj
  obtain ⟨r, m, hu⟩ := mem_flatten_iff_at.mp hu
  obtain ⟨r', m', hv⟩ := mem_flatten_iff_at.mp hv
  obtain ⟨-, -, rfl⟩ := (at_singleRounds ..).mp hu
  obtain ⟨-, -, rfl⟩ := (at_singleRounds ..).mp hv
  obtain ⟨⟨rfl, rfl⟩, rfl⟩ := Cascade.unitAt_fedOnce (entrantAt_participant participants k)
    roundUnitId_inj hi hj
  exact ⟨rfl, rfl⟩

/-- **A single elimination routes every outcome and every entrant.** -/
theorem singleRounds_routed : Routed participants
    (singleRounds participants eventId idPrefix durationSlots k).flatten where
  once := singleRounds_fedOnce participants eventId idPrefix durationSlots k
  feeders := by
    intro u hu
    obtain ⟨r, m, hu⟩ := mem_flatten_iff_at.mp hu
    obtain ⟨-, -, rfl⟩ := (at_singleRounds ..).mp hu
    exact (Cascade.unitAt_dependsOnFeeders (entrantAt_participant participants k) r m).2
  sides := by
    intro u hu i
    obtain ⟨r, m, hu⟩ := mem_flatten_iff_at.mp hu
    obtain ⟨-, -, rfl⟩ := (at_singleRounds ..).mp hu
    exact SpawnPlan.side_unitAt i
  enters := by
    intro distinct u hu v hv i j x hx hi hj
    obtain ⟨r, m, hu⟩ := mem_flatten_iff_at.mp hu
    obtain ⟨r', m', hv⟩ := mem_flatten_iff_at.mp hv
    obtain ⟨-, -, rfl⟩ := (at_singleRounds ..).mp hu
    obtain ⟨-, -, rfl⟩ := (at_singleRounds ..).mp hv
    rw [SpawnPlan.slot_unitAt] at hi hj
    cases r with
    | succ r => cases hi
    | zero =>
      cases r' with
      | succ r' => cases hj
      | zero =>
        have same := entrantSlots_inj (2 ^ (k + 1)) distinct hx (getElem?_of_getD hx hi)
          (getElem?_of_getD hx hj)
        obtain ⟨rfl, rfl⟩ := SpawnPlan.place_inj same
        exact ⟨rfl, rfl⟩

end rounds

/-- **A single-elimination draw is its cascade in plain rounds.** -/
theorem generateSingleElimination_ok {participants : List Participant} {eventId : EventId}
    {idPrefix : String} {durationSlots : Nat} {seededCount bracketSize : Option Nat}
    {randomize : Bool} {d : Draw}
    (h : generateSingleElimination participants eventId idPrefix durationSlots seededCount
      bracketSize randomize = .ok d) :
    ∃ seeded k, participants.length ≤ 2 ^ (k + 1) ∧ 2 ≤ participants.length ∧ d = plainDraw
      (knockoutEvent eventId "single_elimination" (2 ^ (k + 1)) participants.length seeded)
        participants (singleRounds participants eventId idPrefix durationSlots k) := by
  unfold generateSingleElimination at h
  split at h
  · cases h
  · cases hs : bracketShape participants seededCount bracketSize with
    | error e =>
      rw [hs] at h
      cases h
    | ok shape =>
      obtain ⟨size, seeded⟩ := shape
      obtain ⟨⟨k, rfl⟩, -, fits, two⟩ := bracketShape_ok hs
      rw [hs] at h
      cases h
      exact ⟨seeded, k, fits, two, rfl⟩

end Brackets
