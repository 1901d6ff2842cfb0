import ShuttleWorks.Brackets.Formats.Pairing
import ShuttleWorks.Brackets.Formats.Registry
import ShuttleWorks.Brackets.Rows

/-! The next round of a Swiss draw: paired from the standings, the earlier pairings and the byes
already taken, appended to the draw, and its bye walked over. A round of an even field pairs
everyone, a round of an odd field all but one. -/

namespace Brackets
open Lib

/-- The draw of a Swiss event and the state of its session. -/
structure SwissSession where
  draw : Draw
  state : TournamentState

/-- Why the next round is refused. -/
inductive RoundRefusal
  | notProgressive (format : String)
  | draft (eventId : EventId)
  | incomplete (pending : Nat)
  | config (message : String)
  | allGenerated (rounds : Nat)
  | noPartner
  | advance (e : AdvanceError)
  deriving DecidableEq, Repr

/-! ## History -/

/-- The pairing a resulted unit was, when both sides were there. -/
def pairingOf (s : TournamentState) (unit : PlayUnit) : Option (Sym2 ParticipantId) :=
  match s.result unit.id with
  | none => none
  | some r =>
    if r.winnerSide = .NONE then none
    else match unit.sideA.head?, unit.sideB.head? with
      | some a, some b => some s(a, b)
      | _, _ => none

/-- Who took a bye in a resulted unit: a walkover over an empty side. -/
def byeOf (s : TournamentState) (unit : PlayUnit) : Option ParticipantId :=
  match s.result unit.id with
  | none => none
  | some r =>
    if r.winnerSide = .NONE then none
    else match unit.sideA.head?, unit.sideB.head? with
      | some _, some _ => none
      | a, b => if r.walkover then a.or b else none

def priorPairings (x : SwissSession) : List (Sym2 ParticipantId) :=
  x.draw.playUnits.rows.filterMap (pairingOf x.state)

def byeHistory (x : SwissSession) : List ParticipantId :=
  x.draw.playUnits.rows.filterMap (byeOf x.state)

def pendingUnits (x : SwissSession) : List PlayUnit :=
  x.draw.playUnits.rows.filter fun unit => ¬ x.state.Resulted unit.id

/-! ## The route -/

section Route

variable {ρ : Type} [LinearOrder ρ] (ratio : Int → Int → ρ) {info : EventMeta}
  {draws : List EventId} {x : SwissSession}

/-- Append the units of a round to the draw and the state, and walk over its bye. -/
def appendRound (draws : List EventId) (x : SwissSession) (bye : Option ParticipantId)
    (units : List PlayUnit) : Except RoundRefusal SwissSession :=
  let draw := { x.draw with
    playUnits := units.foldl Table.put x.draw.playUnits
    rounds := x.draw.rounds ++ [units.map PlayUnit.id] }
  let state := { x.state with playUnits := units.foldl Table.put x.state.playUnits }
  match bye, units.getLast? with
  | some _, some last =>
    match recordResult state draws last.id (walkover .A) with
    | .error e => .error (.advance e)
    | .ok (state, _) => .ok { draw, state }
  | _, _ => .ok { draw, state }

/-- `generate_next_round_route`, on a session that holds the draw. -/
def generateNextRound (info : EventMeta) (draws : List EventId) (x : SwissSession) :
    Except RoundRefusal SwissSession :=
  if info.format ≠ "swiss" then .error (.notProgressive info.format)
  else if info.status = "draft" ∨ info.status = "" then .error (.draft x.draw.event.id)
  else if pendingUnits x ≠ [] then .error (.incomplete (pendingUnits x).length)
  else match normalizeSwissConfig info.config x.draw.participants.rows.length with
    | .error message => .error (.config message)
    | .ok totalRounds =>
      if totalRounds ≤ x.draw.rounds.length then .error (.allGenerated totalRounds)
      else
        -- `compute_standings` answers: a recorded score was validated, its sets are a list
        let standings := standingRows ratio x.draw.playUnits x.state.results
          (x.draw.participants.rows.map Participant.id)
        match pairSwissRound standings (priorPairings x) (byeHistory x) with
        | none => .error .noPartner
        | some (pairs, bye) =>
          appendRound draws x bye
            (buildSwissRound pairs bye x.draw.event.id x.draw.event.id x.draw.rounds.length
              info.durationSlots)

theorem generateNextRound_eq_ok {x' : SwissSession}
    (h : generateNextRound ratio info draws x = .ok x') :
    pendingUnits x = [] ∧ ∃ totalRounds pairs bye,
      normalizeSwissConfig info.config x.draw.participants.rows.length = .ok totalRounds ∧
      x.draw.rounds.length < totalRounds ∧
      pairSwissRound (standingRows ratio x.draw.playUnits x.state.results
        (x.draw.participants.rows.map Participant.id)) (priorPairings x) (byeHistory x) =
        some (pairs, bye) ∧
      appendRound draws x bye
        (buildSwissRound pairs bye x.draw.event.id x.draw.event.id x.draw.rounds.length
          info.durationSlots) = .ok x' := by
  unfold generateNextRound at h
  split at h
  · cases h
  split at h
  · cases h
  split at h
  · cases h
  next pending =>
  split at h
  · cases h
  next totalRounds config =>
  split at h
  · cases h
  next more =>
  dsimp only at h
  split at h
  · cases h
  next pairs bye paired =>
  exact ⟨not_not.mp pending, totalRounds, pairs, bye, config, Nat.lt_of_not_le more, paired, h⟩

/-- **While a unit has no result the next round is refused.** -/
theorem generateNextRound_incomplete (pending : pendingUnits x ≠ []) :
    ∀ x', generateNextRound ratio info draws x ≠ .ok x' := by
  intro x' h
  exact pending (generateNextRound_eq_ok ratio h).1

end Route

variable {n : Nat} {bye : Option ParticipantId} {u : PlayUnit}

theorem clampRounds_lt {rounds : Nat} (h : 2 ≤ n) : clampRounds rounds n < n := by
  rw [clampRounds, if_pos h]
  omega

theorem normalizeSwissConfig_lt {config : JsonObject} {rounds : Nat} (field : 2 ≤ n)
    (h : normalizeSwissConfig config n = .ok rounds) : rounds < n := by
  have default : defaultRounds n < n := by
    rw [defaultRounds, if_neg (by omega)]
    exact clampRounds_lt field
  unfold normalizeSwissConfig at h
  split at h
  · cases h
    exact default
  · cases h
    exact default
  · split at h
    · cases h
    · cases h
      exact clampRounds_lt field
  · cases h

/-! ## The shape of a round -/

variable {eventId : EventId} {idPrefix : String} {r durationSlots : Nat}

def rowMembers (row : List PlayUnit) : List ParticipantId := row.flatMap fun u => u.sideA ++ u.sideB

def rowByes (row : List PlayUnit) : List ParticipantId :=
  row.flatMap fun u => if u.sideB = [] then u.sideA else []

theorem rowMembers_append (row row' : List PlayUnit) :
    rowMembers (row ++ row') = rowMembers row ++ rowMembers row' := by
  simp [rowMembers]

theorem rowByes_append (row row' : List PlayUnit) :
    rowByes (row ++ row') = rowByes row ++ rowByes row' := by
  simp [rowByes]

theorem rowMembers_pairs (pairs : List (ParticipantId × ParticipantId)) (from' : Nat) :
    rowMembers ((pairs.zipIdx from').map fun p =>
      poolUnit eventId idPrefix durationSlots r p.2 none p.1.1 p.1.2) = pairMembers pairs := by
  induction pairs generalizing from' with
  | nil => rfl
  | cons p pairs ih =>
    have rest := ih (from' + 1)
    simp only [rowMembers, List.zipIdx_cons, List.map_cons, List.flatMap_cons] at rest ⊢
    rw [rest]
    rfl

theorem rowByes_pairs (pairs : List (ParticipantId × ParticipantId)) (from' : Nat) :
    rowByes ((pairs.zipIdx from').map fun p =>
      poolUnit eventId idPrefix durationSlots r p.2 none p.1.1 p.1.2) = [] := by
  induction pairs generalizing from' with
  | nil => rfl
  | cons p pairs ih =>
    have rest := ih (from' + 1)
    simp only [rowByes, List.zipIdx_cons, List.map_cons, List.flatMap_cons] at rest ⊢
    rw [rest]
    rfl

/-- **A round holds the two of every pair and the bye.** -/
theorem rowMembers_buildSwissRound (pairs : List (ParticipantId × ParticipantId))
    (bye : Option ParticipantId) :
    rowMembers (buildSwissRound pairs bye eventId idPrefix r durationSlots) =
      pairMembers pairs ++ bye.toList := by
  rw [buildSwissRound, rowMembers_append, rowMembers_pairs]
  cases bye <;> rfl

theorem rowByes_buildSwissRound (pairs : List (ParticipantId × ParticipantId))
    (bye : Option ParticipantId) :
    rowByes (buildSwissRound pairs bye eventId idPrefix r durationSlots) = bye.toList := by
  rw [buildSwissRound, rowByes_append, rowByes_pairs]
  cases bye <;> rfl

theorem mem_buildSwissRound_spec {pairs : List (ParticipantId × ParticipantId)}
    (h : u ∈ buildSwissRound pairs bye eventId idPrefix r durationSlots) :
    u.dependencies = [] ∧ u.eventId = eventId ∧ u.metadata.round = r ∧
      (∃ a, u.sideA = [a]) ∧ (u.sideB = [] ∨ ∃ b, u.sideB = [b]) ∧
      u.id = roundUnitId idPrefix r u.metadata.matchIndex := by
  rcases List.mem_append.mp h with h | h
  · obtain ⟨p, -, rfl⟩ := List.mem_map.mp h
    exact ⟨rfl, rfl, rfl, ⟨_, rfl⟩, Or.inr ⟨_, rfl⟩, rfl⟩
  · obtain ⟨id, -, rfl⟩ := List.mem_map.mp h
    exact ⟨rfl, rfl, rfl, ⟨_, rfl⟩, Or.inl rfl, rfl⟩

theorem buildSwissRound_ids_nodup (pairs : List (ParticipantId × ParticipantId))
    (bye : Option ParticipantId) :
    ((buildSwissRound pairs bye eventId idPrefix r durationSlots).map PlayUnit.id).Nodup := by
  refine List.pairwise_map.mpr ((buildSwissRound_ascending pairs bye r).imp_of_mem ?_)
  intro u v hu hv lt same
  rw [(mem_buildSwissRound_spec hu).2.2.2.2.2, (mem_buildSwissRound_spec hv).2.2.2.2.2] at same
  have := (roundUnitId_inj same).2
  omega

theorem getLast_buildSwissRound (pairs : List (ParticipantId × ParticipantId))
    (bye : ParticipantId) :
    ∃ last, (buildSwissRound pairs (some bye) eventId idPrefix r durationSlots).getLast? =
      some last ∧ last ∈ buildSwissRound pairs (some bye) eventId idPrefix r durationSlots ∧
      last.sideB = [] := by
  exact ⟨_, List.getLast?_concat, List.mem_append_right _ (List.mem_singleton.mpr rfl), rfl⟩

theorem bye_unit_unique {pairs : List (ParticipantId × ParticipantId)}
    (h : u ∈ buildSwissRound pairs bye eventId idPrefix r durationSlots) (empty : u.sideB = []) :
    bye.isSome = true ∧
      (buildSwissRound pairs bye eventId idPrefix r durationSlots).getLast? = some u := by
  rcases List.mem_append.mp h with h | h
  · obtain ⟨p, -, rfl⟩ := List.mem_map.mp h
    cases empty
  · cases bye with
    | none => simp at h
    | some id =>
      simp only [Option.toList_some, List.map_cons, List.map_nil, List.mem_singleton] at h
      refine ⟨rfl, ?_⟩
      rw [h, buildSwissRound]
      exact List.getLast?_concat

/-! ## The first round -/

/-- **The seed fold pairs everyone** but the last seed of an odd field. -/
theorem seedFold_perm (participants : List Participant) :
    ((seedFold participants).2.toList ++ pairMembers (seedFold participants).1).Perm
        (participants.map Participant.id) ∧
      ((seedFold participants).2.isSome = true ↔ participants.length % 2 = 1) := by
  have halves : ∀ l : List Participant, l.length % 2 = 0 →
      (pairMembers (((l.take (l.length / 2)).zip (l.drop (l.length / 2))).map
        fun p => (p.1.id, p.2.id))).Perm (l.map Participant.id) := by
    intro l even
    have pairs : ((l.take (l.length / 2)).zip (l.drop (l.length / 2))).map
        (fun p => (p.1.id, p.2.id)) =
        ((l.take (l.length / 2)).map Participant.id).zip
          ((l.drop (l.length / 2)).map Participant.id) := List.zip_map.symm
    rw [pairs]
    refine (pairMembers_zip (by simp; omega)).trans (List.Perm.of_eq ?_)
    rw [← List.map_append, List.take_append_drop]
  by_cases even : participants.length % 2 = 0
  · simp only [seedFold, even, ↓reduceIte, Option.toList_none, List.nil_append]
    exact ⟨halves participants even, by simp⟩
  · have entered : participants ≠ [] := by
      rintro rfl
      simp at even
    have last : participants.getLast? = some (participants.getLast entered) :=
      List.getLast?_eq_some_getLast entered
    have front := halves participants.dropLast (by rw [List.length_dropLast]; omega)
    simp only [seedFold, even, ↓reduceIte, last, Option.map_some, Option.toList_some,
      Option.isSome_some, true_iff]
    refine ⟨?_, by omega⟩
    refine ((front.append_left _).trans (List.perm_append_comm)).trans (List.Perm.of_eq ?_)
    conv_rhs => rw [← List.dropLast_append_getLast entered, List.map_append]
    rfl

end Brackets
