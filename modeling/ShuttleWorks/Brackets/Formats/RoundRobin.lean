import Mathlib.Data.Nat.Log
import ShuttleWorks.Brackets.Formats.Rounds
import ShuttleWorks.Brackets.Formats.Seeding

/-! The round robin by the circle method: the first place stays, the others rotate,
and the matches of the phantom that fills an odd field are left out. -/

namespace Brackets
open Lib

section

def rotate : List Nat → List Nat
  | [] => []
  | first :: rest => first :: (first :: rest).getLastD first :: rest.dropLast

/-- The circle before round `i`. -/
def circle (n : Nat) : Nat → List Nat
  | 0 => List.range n
  | i + 1 => rotate (circle n i)

def circlePairs (n i : Nat) : List (Nat × Nat) :=
  ((circle n i).take (n / 2)).zip ((circle n i).drop (n / 2)).reverse

/-- A match between two entrants whose sides are known. -/
def poolUnit (eventId : EventId) (idPrefix : String) (durationSlots r m : Nat)
    (cycle : Option Nat) (a b : ParticipantId) : PlayUnit where
  id := roundUnitId idPrefix r m
  eventId := eventId
  sideA := [a]
  sideB := [b]
  slotA := .participant a
  slotB := .participant b
  expectedDurationSlots := durationSlots
  metadata := { round := r, matchIndex := m, cycle := cycle }

/-- One pairing; the phantom's match is skipped. -/
def circleMatch (workList : List Participant) (eventId : EventId) (idPrefix : String)
    (durationSlots i : Nat) (pairing : (Nat × Nat) × Nat) : Option PlayUnit :=
  let a := workList.getD pairing.1.1 byeParticipant
  let b := workList.getD pairing.1.2 byeParticipant
  if a.id = BYE ∨ b.id = BYE then none
  else some (poolUnit eventId idPrefix durationSlots i pairing.2
    (some (i / (workList.length - 1))) a.id b.id)

/-- The rounds of every cycle, one after the other. -/
def circleRounds (workList : List Participant) (eventId : EventId) (idPrefix : String)
    (durationSlots rounds : Nat) : List (List PlayUnit) :=
  (List.range (rounds * (workList.length - 1))).map fun i =>
    (circlePairs workList.length i).zipIdx.filterMap
      (circleMatch workList eventId idPrefix durationSlots i)

def padded (participants : List Participant) : List Participant :=
  if participants.length % 2 = 1 then participants ++ [byeParticipant] else participants

def generateRoundRobin (participants : List Participant) (rounds : Nat) (eventId : EventId)
    (idPrefix : String) (durationSlots : Nat) : Except String Draw :=
  if participants.length < 2 then .error "need at least 2 participants"
  else if rounds < 1 then .error "rounds must be >= 1"
  else .ok (plainDraw
    { id := eventId
      typeTags := ["round_robin"]
      formatPluginName := "round_robin"
      parameters := [("participant_count", .int participants.length), ("rounds", .int rounds)] }
    participants (circleRounds (padded participants) eventId idPrefix durationSlots rounds))

variable {workList : List Participant} {eventId : EventId} {idPrefix : String} {durationSlots : Nat}
  {u : PlayUnit}

theorem circleMatch_eq_some {i : Nat} {pairing : (Nat × Nat) × Nat}
    (h : circleMatch workList eventId idPrefix durationSlots i pairing = some u) :
    ∃ a b, a ≠ BYE ∧ b ≠ BYE ∧ u = poolUnit eventId idPrefix durationSlots i pairing.2
      (some (i / (workList.length - 1))) a b := by
  unfold circleMatch at h
  dsimp only at h
  split at h
  · cases h
  · next real =>
    rw [not_or] at real
    cases h
    exact ⟨_, _, real.1, real.2, rfl⟩

theorem at_circleRounds {rounds r m : Nat}
    (h : At (circleRounds workList eventId idPrefix durationSlots rounds) r m u) :
    ∃ number a b, a ≠ BYE ∧ b ≠ BYE ∧ u = poolUnit eventId idPrefix durationSlots r number
      (some (r / (workList.length - 1))) a b := by
  obtain ⟨row, hr, hm⟩ := h
  rw [circleRounds, List.getElem?_map, Option.map_eq_some_iff] at hr
  obtain ⟨i, hi, rfl⟩ := hr
  obtain ⟨-, rfl⟩ := getElem?_range_eq_some.mp hi
  obtain ⟨pairing, -, hu⟩ := List.mem_filterMap.mp (List.mem_of_getElem? hm)
  obtain ⟨a, b, ha, hb, rfl⟩ := circleMatch_eq_some hu
  exact ⟨pairing.2, a, b, ha, hb, rfl⟩

theorem zipIdx_pairwise {α : Type} (l : List α) (n : Nat) :
    (l.zipIdx n).Pairwise fun p q => p.2 < q.2 := by
  refine List.pairwise_iff_getElem.mpr (fun i j hi hj lt => ?_)
  simp only [List.getElem_zipIdx]
  omega

theorem circleRounds_plain (rounds : Nat) :
    PlainRounds idPrefix eventId (circleRounds workList eventId idPrefix durationSlots rounds) where
  id := by
    intro r m u hu
    obtain ⟨number, a, b, -, -, rfl⟩ := at_circleRounds hu
    rfl
  round := by
    intro r m u hu
    obtain ⟨number, a, b, -, -, rfl⟩ := at_circleRounds hu
    rfl
  ascending := by
    intro row hrow
    obtain ⟨i, -, rfl⟩ := List.mem_map.mp hrow
    rw [List.pairwise_filterMap]
    refine (zipIdx_pairwise _ 0).imp ?_
    intro p q lt u hu v hv
    obtain ⟨a, b, -, -, rfl⟩ := circleMatch_eq_some hu
    obtain ⟨a', b', -, -, rfl⟩ := circleMatch_eq_some hv
    exact lt
  event := by
    intro r m u hu
    obtain ⟨number, a, b, -, -, rfl⟩ := at_circleRounds hu
    rfl
  segment := by
    intro r m u hu
    obtain ⟨number, a, b, -, -, rfl⟩ := at_circleRounds hu
    rfl
  shape := by
    intro r m u hu
    obtain ⟨number, a, b, -, -, rfl⟩ := at_circleRounds hu
    exact Or.inl ⟨rfl, ⟨a, rfl⟩, b, rfl⟩
  depends := by
    intro r m u hu d hd
    obtain ⟨number, a, b, -, -, rfl⟩ := at_circleRounds hu
    cases hd
  first := by
    intro r m u hu _ walkover
    obtain ⟨number, a, b, -, -, rfl⟩ := at_circleRounds hu
    exact absurd rfl walkover

/-- **A round robin is its circle in plain rounds.** -/
theorem generateRoundRobin_ok {participants : List Participant} {rounds : Nat} {d : Draw}
    (h : generateRoundRobin participants rounds eventId idPrefix durationSlots = .ok d) :
    ∃ event : Event, event.id = eventId ∧ d = plainDraw event participants
      (circleRounds (padded participants) eventId idPrefix durationSlots rounds) := by
  unfold generateRoundRobin at h
  split at h
  · cases h
  split at h
  · cases h
  cases h
  exact ⟨_, rfl, rfl⟩

end

/-! ## The Swiss draw

Only its first round is generated: the top half of the seeds against the bottom half, and a bye for
the last seed of an odd field. -/

def clampRounds (rounds participantCount : Nat) : Nat :=
  if 2 ≤ participantCount then min rounds (participantCount - 1) else rounds

def defaultRounds (participantCount : Nat) : Nat :=
  if participantCount < 2 then 1
  else clampRounds (max 1 (Nat.clog 2 participantCount)) participantCount

/-- `normalize_swiss_config`: the number of rounds. -/
def normalizeSwissConfig (config : JsonObject) (participantCount : Nat) : Except String Nat :=
  match Assoc.get "swiss_rounds" config with
  | none | some .null => .ok (defaultRounds participantCount)
  | some (.int n) =>
    if n < 1 then .error ("swiss_rounds must be >= 1, got " ++ toString n)
    else .ok (clampRounds n.toNat participantCount)
  | some _ => .error "swiss_rounds must be an integer >= 1"

/-- `build_swiss_round`: the pairings, then the bye unit. -/
def buildSwissRound (pairs : List (ParticipantId × ParticipantId)) (bye : Option ParticipantId)
    (eventId : EventId) (idPrefix : String) (roundIndex durationSlots : Nat) : List PlayUnit :=
  pairs.zipIdx.map (fun p =>
    poolUnit eventId idPrefix durationSlots roundIndex p.2 none p.1.1 p.1.2) ++
  bye.toList.map fun id =>
    { poolUnit eventId idPrefix durationSlots roundIndex pairs.length none id BYE with sideB := [] }

/-- Seed `i` against seed `i + n / 2`, and the seed left over. -/
def seedFold (participants : List Participant) :
    List (ParticipantId × ParticipantId) × Option ParticipantId :=
  let even := participants.length % 2 = 0
  let entries := if even then participants else participants.dropLast
  let half := entries.length / 2
  (((entries.take half).zip (entries.drop half)).map fun p => (p.1.id, p.2.id),
    if even then none else participants.getLast?.map Participant.id)

def generateSwiss (participants : List Participant) (eventId : EventId) (idPrefix : String)
    (durationSlots : Nat) (config : JsonObject) : Except String Draw :=
  if participants.length < 2 then .error "need at least 2 participants"
  else (normalizeSwissConfig config participants.length).map fun rounds =>
    let fold := seedFold participants
    plainDraw
      { id := eventId
        typeTags := ["swiss"]
        formatPluginName := "swiss"
        parameters := [("participant_count", .int participants.length),
          ("swiss_rounds", .int rounds),
          ("resolved_config", .obj [("swiss_rounds", .int rounds)])] }
      participants [buildSwissRound fold.1 fold.2 eventId idPrefix 0 durationSlots]

variable {eventId : EventId} {idPrefix : String} {durationSlots : Nat}

theorem mem_buildSwissRound {pairs : List (ParticipantId × ParticipantId)}
    {bye : Option ParticipantId} {r : Nat} {u : PlayUnit}
    (h : u ∈ buildSwissRound pairs bye eventId idPrefix r durationSlots) :
    ∃ m a b side, u = { poolUnit eventId idPrefix durationSlots r m none a b with sideB := side } := by
  rcases List.mem_append.mp h with h | h
  · obtain ⟨p, -, rfl⟩ := List.mem_map.mp h
    exact ⟨p.2, p.1.1, p.1.2, [p.1.2], rfl⟩
  · obtain ⟨id, -, rfl⟩ := List.mem_map.mp h
    exact ⟨pairs.length, id, BYE, [], rfl⟩

theorem buildSwissRound_ascending (pairs : List (ParticipantId × ParticipantId))
    (bye : Option ParticipantId) (r : Nat) :
    (buildSwissRound pairs bye eventId idPrefix r durationSlots).Pairwise
      fun u v => u.metadata.matchIndex < v.metadata.matchIndex := by
  rw [buildSwissRound, List.pairwise_append]
  refine ⟨List.pairwise_map.mpr ((zipIdx_pairwise _ 0).imp (fun lt => lt)), ?_, ?_⟩
  · cases bye <;> simp
  · intro u hu v hv
    obtain ⟨p, hp, rfl⟩ := List.mem_map.mp hu
    obtain ⟨id, -, rfl⟩ := List.mem_map.mp hv
    have := (List.mem_zipIdx hp).2.1
    simpa [poolUnit] using this

theorem swissRounds_plain (pairs : List (ParticipantId × ParticipantId))
    (bye : Option ParticipantId) :
    PlainRounds idPrefix eventId [buildSwissRound pairs bye eventId idPrefix 0 durationSlots] := by
  have units : ∀ {r m u}, At [buildSwissRound pairs bye eventId idPrefix 0 durationSlots] r m u →
      r = 0 ∧ ∃ m a b side,
        u = { poolUnit eventId idPrefix durationSlots 0 m none a b with sideB := side } := by
    rintro r m u ⟨row, hr, hm⟩
    cases r with
    | zero =>
      cases hr
      exact ⟨rfl, mem_buildSwissRound (List.mem_of_getElem? hm)⟩
    | succ r => simp at hr
  refine ⟨?_, ?_, ?_, ?_, ?_, ?_, ?_, ?_⟩
  · intro r m u hu
    obtain ⟨rfl, number, a, b, side, rfl⟩ := units hu
    rfl
  · intro r m u hu
    obtain ⟨rfl, number, a, b, side, rfl⟩ := units hu
    rfl
  · intro row hrow
    rw [List.mem_singleton.mp hrow]
    exact buildSwissRound_ascending pairs bye 0
  · intro r m u hu
    obtain ⟨rfl, number, a, b, side, rfl⟩ := units hu
    rfl
  · intro r m u hu
    obtain ⟨rfl, number, a, b, side, rfl⟩ := units hu
    rfl
  · intro r m u hu
    obtain ⟨rfl, number, a, b, side, rfl⟩ := units hu
    exact Or.inl ⟨rfl, ⟨a, rfl⟩, b, rfl⟩
  · intro r m u hu d hd
    obtain ⟨rfl, number, a, b, side, rfl⟩ := units hu
    cases hd
  · intro r m u hu _ _
    exact (units hu).1

/-- **A Swiss draw is its first round.** -/
theorem generateSwiss_ok {participants : List Participant} {config : JsonObject} {d : Draw}
    (h : generateSwiss participants eventId idPrefix durationSlots config = .ok d) :
    ∃ event : Event, event.id = eventId ∧ d = plainDraw event participants
      [buildSwissRound (seedFold participants).1 (seedFold participants).2 eventId idPrefix 0
        durationSlots] := by
  unfold generateSwiss at h
  split at h
  · cases h
  cases hn : normalizeSwissConfig config participants.length with
  | error e =>
    rw [hn] at h
    cases h
  | ok rounds =>
    rw [hn] at h
    cases h
    exact ⟨_, rfl, rfl⟩

end Brackets
