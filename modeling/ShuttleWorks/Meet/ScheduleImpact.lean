import Mathlib.Data.Prod.Lex
import ShuttleWorks.Engine.Problem
import ShuttleWorks.Lib.Tally
import ShuttleWorks.Meet.Lineup

/-! `compute_impact`: what a proposed schedule changes of the committed one, match by match, for
every player and every school. The ids of the matches are gone through in the order of a set,
which is any order. -/

namespace Meet.ScheduleImpact
open Lib
open Engine (Assignment)

/-- Floating-point numbers, as far as they are used here. -/
class PyFloat (F : Type) extends Sub F, Neg F where
  sum : List F → F
  neg_sub : ∀ a b : F, -(a - b) = b - a

instance : PyFloat Int where
  sum := List.sum
  neg_sub := by omega

/-! ## The schedules -/

structure PlayerDTO where
  id : String
  name : String
  groupId : String

structure SoftViolation (F : Type) where
  type : String
  penaltyIncurred : F

/-- A schedule has one place for a match at most. -/
structure ScheduleDTO (F : Type) where
  assignments : Table Assignment.matchId
  softViolations : List (SoftViolation F) := []
  objectiveScore : Option F := none
  unscheduledMatches : List String := []
  infeasibleReasons : List String := []

/-- What the ids of a schedule refer to. -/
structure Roster where
  games : List MatchDTO
  players : List PlayerDTO
  groups : List RosterGroupDTO := []

namespace Roster

variable (r : Roster)

def matchesById : Table MatchDTO.id := Table.ofRows r.games

def playersById : Table PlayerDTO.id := Table.ofRows r.players

def groupsById : Table RosterGroupDTO.id := Table.ofRows r.groups

end Roster

def allPlayerIds (m : MatchDTO) : List String := m.sideA ++ m.sideB ++ m.sideC.getD []

/-- `_all_group_ids_for_match`: each school once. -/
def allGroupIdsForMatch (m : MatchDTO) (playersById : Table PlayerDTO.id) : List String :=
  (allPlayerIds m).foldl (fun seen pid =>
    match playersById.get pid with
    | none => seen
    | some player =>
      if player.groupId ≠ "" ∧ player.groupId ∉ seen then seen ++ [player.groupId] else seen) []

/-! ## The impact -/

structure MatchMove where
  matchId : String
  fromSlotId : Option Int
  toSlotId : Option Int
  fromCourtId : Option Int
  toCourtId : Option Int
  matchNumber : Option Nat
  eventRank : Option String
  deriving DecidableEq

structure PlayerImpact where
  playerId : String
  playerName : Option String
  matchCount : Nat
  earliestSlotDelta : Int
  deriving DecidableEq

structure SchoolImpact where
  groupId : String
  groupName : Option String
  matchCount : Nat
  deriving DecidableEq

structure MetricDelta (F : Type) where
  objectiveDelta : Option F
  softViolationCountDelta : Int
  restViolationsDelta : Int
  proximityViolationsDelta : Int
  totalPenaltyDelta : F
  unscheduledMatchesDelta : Int

structure Impact (F : Type) where
  movedMatches : List MatchMove
  affectedPlayers : List PlayerImpact
  affectedSchools : List SchoolImpact
  metricDelta : MetricDelta F
  infeasibilityWarnings : List String

variable {pid : String} {order' : List String}

section

variable {F : Type} (committed proposed : Option (ScheduleDTO F)) (r : Roster) {ids' : List String}

def place (schedule : Option (ScheduleDTO F)) (id : String) : Option Assignment :=
  schedule.bind (fun s => s.assignments.get id)

def samePlace : Option Assignment → Option Assignment → Prop
  | none, none => True
  | some before, some after => before.slotId = after.slotId ∧ before.courtId = after.courtId
  | _, _ => False

instance (before after : Option Assignment) : Decidable (samePlace before after) := by
  unfold samePlace
  split <;> infer_instance

def Moved (id : String) : Prop := ¬ samePlace (place committed id) (place proposed id)

instance (id : String) : Decidable (Moved committed proposed id) :=
  inferInstanceAs (Decidable (¬ _))

def moveOf (id : String) : MatchMove :=
  let before := place committed id
  let after := place proposed id
  { matchId := id
    fromSlotId := before.map (·.slotId)
    toSlotId := after.map (·.slotId)
    fromCourtId := before.map (·.courtId)
    toCourtId := after.map (·.courtId)
    matchNumber := (r.matchesById.get id).bind MatchDTO.matchNumber
    eventRank := (r.matchesById.get id).bind MatchDTO.eventRank }

/-- A place that is missing counts as the first slot. -/
def slotDelta (before after : Option Assignment) : Int :=
  match before, after with
  | some before, some after => after.slotId - before.slotId
  | none, some after => after.slotId
  | some before, none => -before.slotId
  | none, none => 0

/-- What is gathered on the way. -/
structure Gathered where
  movedMatches : List MatchMove := []
  playerMatchCounts : List (String × Nat) := []
  playerEarliestDelta : List (String × Int) := []
  schoolMatchCounts : List (String × Nat) := []

/-- A delta nearer to zero replaces the one of a player. -/
def noteDelta (deltas : List (String × Int)) (touch : String × Int) : List (String × Int) :=
  match Assoc.get touch.1 deltas with
  | none => Assoc.set touch.1 touch.2 deltas
  | some existing =>
    if touch.2.natAbs < existing.natAbs then Assoc.set touch.1 touch.2 deltas else deltas

def gatherMatch (g : Gathered) (id : String) : Gathered :=
  if Moved committed proposed id then
    let g := { g with movedMatches := g.movedMatches ++ [moveOf committed proposed r id] }
    match r.matchesById.get id with
    | none => g
    | some m =>
      let delta := slotDelta (place committed id) (place proposed id)
      { g with
        playerMatchCounts := (allPlayerIds m).foldl bump g.playerMatchCounts
        playerEarliestDelta :=
          ((allPlayerIds m).map (fun pid => (pid, delta))).foldl noteDelta g.playerEarliestDelta
        schoolMatchCounts := (allGroupIdsForMatch m r.playersById).foldl bump g.schoolMatchCounts }
  else g

def moveSortKey (move : MatchMove) : Int ×ₗ Int ×ₗ String :=
  toLex ((move.toSlotId.or move.fromSlotId).getD 1000000,
    toLex (move.toCourtId.getD 0, move.matchId))

def countSortKey (x : String × Nat) : Int ×ₗ String := toLex (-(x.2 : Int), x.1)

def Lists (order : List String) : Prop :=
  order.Nodup ∧ ∀ id, id ∈ order ↔ (place committed id).isSome ∨ (place proposed id).isSome

/-! ## What is gathered -/

def playersOf (id : String) : List String := ((r.matchesById.get id).map allPlayerIds).getD []

def groupsOf (id : String) : List String :=
  ((r.matchesById.get id).map (fun m => allGroupIdsForMatch m r.playersById)).getD []

def deltaOf (id : String) : Int := slotDelta (place committed id) (place proposed id)

def touchesOf (id : String) : List (String × Int) :=
  (playersOf r id).map (fun pid => (pid, deltaOf committed proposed id))

def movedIds (order : List String) : List String :=
  order.filter (fun id => Moved committed proposed id)

theorem foldl_gatherMatch (order : List String) (g : Gathered) :
    order.foldl (gatherMatch committed proposed r) g =
      { movedMatches := g.movedMatches ++
          (movedIds committed proposed order).map (moveOf committed proposed r)
        playerMatchCounts :=
          ((movedIds committed proposed order).flatMap (playersOf r)).foldl bump g.playerMatchCounts
        playerEarliestDelta :=
          ((movedIds committed proposed order).flatMap (touchesOf committed proposed r)).foldl
            noteDelta g.playerEarliestDelta
        schoolMatchCounts :=
          ((movedIds committed proposed order).flatMap (groupsOf r)).foldl bump
            g.schoolMatchCounts } := by
  induction order generalizing g with
  | nil => simp [movedIds]
  | cons id order ih =>
    rw [List.foldl_cons, ih]
    by_cases moved : Moved committed proposed id
    · cases known : r.matchesById.get id with
      | none =>
        simp [movedIds, gatherMatch, moved, known, playersOf, groupsOf, touchesOf]
      | some m =>
        simp [movedIds, gatherMatch, moved, known, playersOf, groupsOf, touchesOf, deltaOf]
    · simp [movedIds, gatherMatch, moved]

theorem get_foldl_noteDelta (touches : List (String × Int)) (deltas : List (String × Int))
    (pid : String) : Assoc.get pid (touches.foldl noteDelta deltas) =
      match Assoc.get pid deltas with
      | none => nearest ((touches.filter (fun t => t.1 = pid)).map Prod.snd)
      | some existing =>
        some (((touches.filter (fun t => t.1 = pid)).map Prod.snd).foldl nearer existing) := by
  induction touches generalizing deltas with
  | nil => cases found : Assoc.get pid deltas <;> simp [found, nearest]
  | cons t touches ih =>
    rw [List.foldl_cons, ih]
    by_cases same : t.1 = pid
    · subst same
      cases found : Assoc.get t.1 deltas with
      | none => simp [noteDelta, found, nearest]
      | some existing =>
        by_cases closer : t.2.natAbs < existing.natAbs <;>
          simp [noteDelta, found, nearer, closer]
    · have other : Assoc.get pid (noteDelta deltas t) = Assoc.get pid deltas := by
        unfold noteDelta
        split
        · exact Assoc.get_set_of_ne same _ _
        · split
          · exact Assoc.get_set_of_ne same _ _
          · rfl
      simp [other, same]

/-- The deltas of the moved matches of a player, as often as they are met. -/
def deltasOf (ids : List String) (pid : String) : List Int :=
  ((ids.flatMap (touchesOf committed proposed r)).filter (fun t => t.1 = pid)).map Prod.snd

theorem mem_deltasOf {ids : List String} {d : Int} :
    d ∈ deltasOf committed proposed r ids pid ↔
      ∃ id ∈ ids, pid ∈ playersOf r id ∧ deltaOf committed proposed id = d := by
  simp only [deltasOf, touchesOf, List.mem_map, List.mem_filter, List.mem_flatMap,
    decide_eq_true_eq]
  constructor
  · rintro ⟨t, ⟨⟨id, hid, pid', hpid, rfl⟩, rfl⟩, rfl⟩
    exact ⟨id, hid, hpid, rfl⟩
  · rintro ⟨id, hid, hpid, rfl⟩
    exact ⟨(pid, _), ⟨⟨id, hid, pid, hpid, rfl⟩, rfl⟩, rfl⟩

/-- The match is one of the player's that moved the least. -/
def MovedLeast (pid id : String) : Prop :=
  Moved committed proposed id ∧ pid ∈ playersOf r id ∧ ∀ other, Moved committed proposed other →
    pid ∈ playersOf r other →
      (deltaOf committed proposed id).natAbs ≤ (deltaOf committed proposed other).natAbs

/-- No match that moved lists a player twice, and the least moves of a player go the same way. -/
structure Plain : Prop where
  once : ∀ id, Moved committed proposed id → (playersOf r id).Nodup
  oneWay : ∀ pid id id', MovedLeast committed proposed r pid id →
    MovedLeast committed proposed r pid id' →
      deltaOf committed proposed id = deltaOf committed proposed id'

/-! ## In whatever order -/

variable {committed proposed r}

theorem Lists.perm {order : List String} (h : Lists committed proposed order)
    (h' : Lists committed proposed order') :
    (movedIds committed proposed order).Perm (movedIds committed proposed order') := by
  refine List.Perm.filter _ ((List.perm_ext_iff_of_nodup h.1 h'.1).mpr fun id => ?_)
  rw [h.2, h'.2]

theorem samePlace_symm {before after : Option Assignment} :
    samePlace before after ↔ samePlace after before := by
  cases before <;> cases after <;> simp [samePlace, eq_comm]

theorem moved_symm {id : String} : Moved committed proposed id ↔ Moved proposed committed id :=
  not_congr samePlace_symm

theorem Lists.symm {order : List String} (h : Lists committed proposed order) :
    Lists proposed committed order :=
  ⟨h.1, fun id => (h.2 id).trans or_comm⟩

theorem movedIds_symm (order : List String) :
    movedIds proposed committed order = movedIds committed proposed order := by
  unfold movedIds
  refine List.filter_congr fun id _ => ?_
  simp only [moved_symm]

theorem mem_movedIds {order : List String} (h : Lists committed proposed order) {id : String} :
    id ∈ movedIds committed proposed order ↔ Moved committed proposed id := by
  rw [movedIds, List.mem_filter, decide_eq_true_eq, and_iff_right_iff_imp]
  intro moved
  refine (h.2 id).mpr ?_
  by_contra neither
  rw [not_or, Option.not_isSome_iff_eq_none, Option.not_isSome_iff_eq_none] at neither
  rw [Moved, neither.1, neither.2] at moved
  exact moved trivial

theorem isSome_place {s : ScheduleDTO F} {id : String} :
    (place (some s) id).isSome ↔ id ∈ s.assignments.rows.map Assignment.matchId := by
  rw [place, Option.bind_some, Option.isSome_iff_ne_none, ne_eq, Table.get_eq_none_iff, not_not]
  rfl

theorem exists_lists (committed proposed : Option (ScheduleDTO F)) :
    ∃ order, Lists committed proposed order := by
  let ids (schedule : Option (ScheduleDTO F)) : List String :=
    (schedule.map (fun s => s.assignments.rows.map Assignment.matchId)).getD []
  have mem : ∀ schedule id, id ∈ ids schedule ↔ (place schedule id).isSome := by
    intro schedule id
    cases schedule with
    | none => simp [ids, place]
    | some s => exact isSome_place.symm
  refine ⟨(ids committed ++ ids proposed).dedup, List.nodup_dedup _, fun id => ?_⟩
  rw [List.mem_dedup, List.mem_append, mem, mem]

theorem Lists.first {order : List String} (h : Lists committed proposed order) {id : String}
    (hid : id ∈ order) : Lists committed proposed (id :: order.erase id) :=
  have perm := (List.perm_cons_erase hid).symm
  ⟨perm.nodup_iff.mpr h.1, fun other => perm.mem_iff.trans (h.2 other)⟩

theorem deltaOf_symm (id : String) :
    deltaOf proposed committed id = -deltaOf committed proposed id := by
  unfold deltaOf slotDelta
  cases place committed id <;> cases place proposed id <;> simp

theorem deltasOf_symm (ids : List String) (pid : String) :
    deltasOf proposed committed r ids pid =
      (deltasOf committed proposed r ids pid).map (fun d => -d) := by
  have touches : ids.flatMap (touchesOf proposed committed r) =
      (ids.flatMap (touchesOf committed proposed r)).map (fun t => (t.1, -t.2)) := by
    rw [List.map_flatMap]
    refine List.flatMap_congr fun id _ => ?_
    simp [touchesOf, @deltaOf_symm _ committed proposed]
  unfold deltasOf
  rw [touches, List.filter_map, List.map_map, List.map_map]
  rfl

theorem deltasOf_perm {ids : List String} (perm : ids.Perm ids') (pid : String) :
    (deltasOf committed proposed r ids pid).Perm (deltasOf committed proposed r ids' pid) :=
  ((perm.flatMap_right _).filter _).map _

theorem agree_deltasOf (plain : Plain committed proposed r) {order : List String}
    (h : Lists committed proposed order) (pid : String) :
    Agree (deltasOf committed proposed r (movedIds committed proposed order) pid) := by
  have least : ∀ a ∈ deltasOf committed proposed r (movedIds committed proposed order) pid,
      (∀ c ∈ deltasOf committed proposed r (movedIds committed proposed order) pid,
        a.natAbs ≤ c.natAbs) →
      ∃ id, MovedLeast committed proposed r pid id ∧ deltaOf committed proposed id = a := by
    intro a ha nearest
    obtain ⟨id, hid, hpid, rfl⟩ := (mem_deltasOf _ _ _).mp ha
    refine ⟨id, ⟨(mem_movedIds h).mp hid, hpid, fun other moved part => ?_⟩, rfl⟩
    exact nearest _ ((mem_deltasOf _ _ _).mpr ⟨other, (mem_movedIds h).mpr moved, part, rfl⟩)
  intro a ha b hb nearest nearest'
  obtain ⟨id, hid, rfl⟩ := least a ha nearest
  obtain ⟨id', hid', rfl⟩ := least b hb nearest'
  exact plain.oneWay pid id id' hid hid'

theorem countSortKey_injective : Function.Injective countSortKey := by
  rintro ⟨k, n⟩ ⟨k', n'⟩ same
  simp only [countSortKey, EmbeddingLike.apply_eq_iff_eq, Prod.mk.injEq] at same
  obtain ⟨count, rfl⟩ := same
  simp only [Prod.mk.injEq, true_and]
  omega

theorem counts_congr (members : String → List String) {ids : List String} (perm : ids.Perm ids') :
    sortBy countSortKey (countEach (ids.flatMap members)) =
      sortBy countSortKey (countEach (ids'.flatMap members)) :=
  sortBy_congr (countEach_perm (perm.flatMap_right _))
    (fun _ _ _ _ same => countSortKey_injective same)

theorem moves_congr {ids : List String} (perm : ids.Perm ids') :
    sortBy moveSortKey (ids.map (moveOf committed proposed r)) =
      sortBy moveSortKey (ids'.map (moveOf committed proposed r)) := by
  refine sortBy_congr (perm.map _) fun a ha b hb same => ?_
  obtain ⟨id, -, rfl⟩ := List.mem_map.mp ha
  obtain ⟨id', -, rfl⟩ := List.mem_map.mp hb
  simp only [moveSortKey, EmbeddingLike.apply_eq_iff_eq, Prod.mk.injEq] at same
  obtain ⟨-, -, named⟩ := same
  have named : id = id' := named
  rw [named]

end

/-! ## The impact of a proposal -/

section

variable {F : Type} [PyFloat F] (committed proposed : Option (ScheduleDTO F)) (r : Roster)
  {β : Type}

def countViolations (violations : List (SoftViolation F)) (types : List String) : Int :=
  (violations.filter (fun v => v.type ∈ types)).length

def violations (schedule : Option (ScheduleDTO F)) : List (SoftViolation F) :=
  (schedule.map ScheduleDTO.softViolations).getD []

def unscheduled (schedule : Option (ScheduleDTO F)) : List String :=
  (schedule.map ScheduleDTO.unscheduledMatches).getD []

def sumPenalty (violations : List (SoftViolation F)) : F :=
  PyFloat.sum (violations.map SoftViolation.penaltyIncurred)

def computeMetricDelta : MetricDelta F where
  objectiveDelta :=
    match committed.bind ScheduleDTO.objectiveScore, proposed.bind ScheduleDTO.objectiveScore with
    | some before, some after => some (after - before)
    | _, _ => none
  softViolationCountDelta := (violations proposed).length - (violations committed).length
  restViolationsDelta :=
    countViolations (violations proposed) ["rest"] - countViolations (violations committed) ["rest"]
  proximityViolationsDelta :=
    countViolations (violations proposed) ["game_proximity_min", "game_proximity_max"] -
      countViolations (violations committed) ["game_proximity_min", "game_proximity_max"]
  totalPenaltyDelta := sumPenalty (violations proposed) - sumPenalty (violations committed)
  unscheduledMatchesDelta := (unscheduled proposed).length - (unscheduled committed).length

def collectInfeasibilityWarnings : List String :=
  match proposed with
  | none => []
  | some after =>
    let newUnscheduled := after.unscheduledMatches.filter (fun m => m ∉ unscheduled committed)
    let rest := (computeMetricDelta committed proposed).restViolationsDelta
    after.infeasibleReasons ++
      (if newUnscheduled = [] then []
        else [toString newUnscheduled.length ++
          " match(es) cannot be placed in the proposed schedule"]) ++
      if 0 < rest then [toString rest ++ " new player rest violation(s) introduced"] else []

def playerImpact (deltas : List (String × Int)) (x : String × Nat) : PlayerImpact where
  playerId := x.1
  playerName := (r.playersById.get x.1).map PlayerDTO.name
  matchCount := x.2
  earliestSlotDelta := (Assoc.get x.1 deltas).getD 0

def schoolImpact (x : String × Nat) : SchoolImpact where
  groupId := x.1
  groupName := (r.groupsById.get x.1).map RosterGroupDTO.name
  matchCount := x.2

/-- `compute_impact`, with the ids of the matches in some order. -/
def computeImpact (order : List String) : Impact F :=
  let g := order.foldl (gatherMatch committed proposed r) {}
  { movedMatches := sortBy moveSortKey g.movedMatches
    affectedPlayers :=
      (sortBy countSortKey g.playerMatchCounts).map (playerImpact r g.playerEarliestDelta)
    affectedSchools := (sortBy countSortKey g.schoolMatchCounts).map (schoolImpact r)
    metricDelta := computeMetricDelta committed proposed
    infeasibilityWarnings := collectInfeasibilityWarnings committed proposed }

/-- A player with the least of the deltas of some matches. -/
def impactAmong (ids : List String) (x : String × Nat) : PlayerImpact where
  playerId := x.1
  playerName := (r.playersById.get x.1).map PlayerDTO.name
  matchCount := x.2
  earliestSlotDelta := (nearest (deltasOf committed proposed r ids x.1)).getD 0

theorem computeImpact_eq (order : List String) :
    computeImpact committed proposed r order =
      let ids := movedIds committed proposed order
      { movedMatches := sortBy moveSortKey (ids.map (moveOf committed proposed r))
        affectedPlayers := (sortBy countSortKey (countEach (ids.flatMap (playersOf r)))).map
          (impactAmong committed proposed r ids)
        affectedSchools := (sortBy countSortKey (countEach (ids.flatMap (groupsOf r)))).map
          (schoolImpact r)
        metricDelta := computeMetricDelta committed proposed
        infeasibilityWarnings := collectInfeasibilityWarnings committed proposed } := by
  unfold computeImpact
  rw [foldl_gatherMatch]
  simp only [List.nil_append, countEach, Impact.mk.injEq, true_and, and_true]
  refine List.map_congr_left fun x _ => ?_
  rw [playerImpact, get_foldl_noteDelta]
  rfl

/-! ## What the impact should say -/

def takingPart (members : String → List String) (order : List String) (who : String) :
    List String :=
  (movedIds committed proposed order).filter (fun id => who ∈ members id)

def MatchMove.swap (move : MatchMove) : MatchMove :=
  { move with
    fromSlotId := move.toSlotId, toSlotId := move.fromSlotId
    fromCourtId := move.toCourtId, toCourtId := move.fromCourtId }

def PlayerImpact.negated (x : PlayerImpact) : PlayerImpact :=
  { x with earliestSlotDelta := -x.earliestSlotDelta }

def MetricDelta.negated {F : Type} [PyFloat F] (x : MetricDelta F) : MetricDelta F where
  objectiveDelta := x.objectiveDelta.map (fun d => -d)
  softViolationCountDelta := -x.softViolationCountDelta
  restViolationsDelta := -x.restViolationsDelta
  proximityViolationsDelta := -x.proximityViolationsDelta
  totalPenaltyDelta := -x.totalPenaltyDelta
  unscheduledMatchesDelta := -x.unscheduledMatchesDelta

/-- The moves the other way round, and every delta negated. -/
structure Mirror (i j : Impact F) : Prop where
  moves : j.movedMatches.Perm (i.movedMatches.map MatchMove.swap)
  players : j.affectedPlayers = i.affectedPlayers.map PlayerImpact.negated
  schools : j.affectedSchools = i.affectedSchools
  metric : j.metricDelta = i.metricDelta.negated

/-- The impact says what moved and whom it concerns, in whatever order it is computed, and the
impact of the way back is its mirror image. -/
structure Faithful : Prop where
  moves : ∀ order, Lists committed proposed order →
    (computeImpact committed proposed r order).movedMatches.Nodup ∧
      ∀ move, move ∈ (computeImpact committed proposed r order).movedMatches ↔
        ∃ id, Moved committed proposed id ∧ move = moveOf committed proposed r id
  players : ∀ order, Lists committed proposed order →
    ((computeImpact committed proposed r order).affectedPlayers.map PlayerImpact.playerId).Nodup ∧
      ∀ pid n, (∃ x ∈ (computeImpact committed proposed r order).affectedPlayers,
        x.playerId = pid ∧ x.matchCount = n) ↔
          0 < n ∧ n = (takingPart committed proposed (playersOf r) order pid).length
  schools : ∀ order, Lists committed proposed order →
    ((computeImpact committed proposed r order).affectedSchools.map SchoolImpact.groupId).Nodup ∧
      ∀ gid n, (∃ x ∈ (computeImpact committed proposed r order).affectedSchools,
        x.groupId = gid ∧ x.matchCount = n) ↔
          0 < n ∧ n = (takingPart committed proposed (groupsOf r) order gid).length
  orderFree : ∀ order order', Lists committed proposed order → Lists committed proposed order' →
    computeImpact committed proposed r order = computeImpact committed proposed r order'
  mirror : ∀ order order', Lists committed proposed order → Lists proposed committed order' →
    Mirror (computeImpact committed proposed r order) (computeImpact proposed committed r order')

variable {committed proposed r}

theorem exists_count (mk : String × Nat → β) (name : β → String) (amount : β → Nat)
    (hname : ∀ x, name (mk x) = x.1) (hamount : ∀ x, amount (mk x) = x.2) {l : List String}
    {k : String} {n : Nat} :
    (∃ x ∈ (sortBy countSortKey (countEach l)).map mk, name x = k ∧ amount x = n) ↔
      0 < n ∧ n = l.count k := by
  rw [← mem_countEach_iff]
  constructor
  · rintro ⟨x, hx, rfl, rfl⟩
    obtain ⟨y, hy, rfl⟩ := List.mem_map.mp hx
    rw [hname, hamount]
    exact (sortBy_perm _ _).mem_iff.mp hy
  · intro h
    exact ⟨mk (k, n), List.mem_map_of_mem ((sortBy_perm _ _).mem_iff.mpr h), hname _, hamount _⟩

theorem nodup_counted (mk : String × Nat → β) (name : β → String) (hname : ∀ x, name (mk x) = x.1)
    (l : List String) :
    (((sortBy countSortKey (countEach l)).map mk).map name).Nodup := by
  rw [List.map_map]
  have keys : (name ∘ mk) = Prod.fst := funext hname
  rw [keys]
  exact ((sortBy_perm _ _).map _).nodup_iff.mpr (nodup_keys_countEach l)

theorem nodup_groupsOf (id : String) : (groupsOf r id).Nodup := by
  unfold groupsOf allGroupIdsForMatch
  cases r.matchesById.get id with
  | none => exact List.nodup_nil
  | some m =>
    rw [Option.map_some, Option.getD_some]
    suffices ∀ (ids seen : List String), seen.Nodup → (ids.foldl (fun seen pid =>
        match r.playersById.get pid with
        | none => seen
        | some player =>
          if player.groupId ≠ "" ∧ player.groupId ∉ seen then seen ++ [player.groupId]
          else seen) seen).Nodup from this _ _ List.nodup_nil
    intro ids
    induction ids with
    | nil => exact fun _ h => h
    | cons pid ids ih =>
      intro seen h
      rw [List.foldl_cons]
      apply ih
      split
      · exact h
      · split
        · next new =>
          rw [List.nodup_append]
          refine ⟨h, List.nodup_singleton _, ?_⟩
          rintro a ha b hb rfl
          exact new.2 (List.mem_singleton.mp hb ▸ ha)
        · exact h

theorem moves_exact {order : List String} (h : Lists committed proposed order) :
    (computeImpact committed proposed r order).movedMatches.Nodup ∧
      ∀ move, move ∈ (computeImpact committed proposed r order).movedMatches ↔
        ∃ id, Moved committed proposed id ∧ move = moveOf committed proposed r id := by
  rw [computeImpact_eq]
  dsimp only
  constructor
  · refine (sortBy_perm _ _).nodup_iff.mpr ((h.1.filter _).map fun id id' same => ?_)
    exact congrArg MatchMove.matchId same
  · intro move
    rw [(sortBy_perm _ _).mem_iff, List.mem_map]
    constructor
    · rintro ⟨id, hid, rfl⟩
      exact ⟨id, (mem_movedIds h).mp hid, rfl⟩
    · rintro ⟨id, moved, rfl⟩
      exact ⟨id, (mem_movedIds h).mpr moved, rfl⟩

theorem affectedPlayers_congr (plain : Plain committed proposed r) {order : List String}
    (h : Lists committed proposed order) (f : Int → Int) (size : ∀ d, (f d).natAbs = d.natAbs)
    {committed' proposed' : Option (ScheduleDTO F)}
    (perm : (movedIds committed' proposed' order').Perm (movedIds committed proposed order))
    (deltas : ∀ ids pid, deltasOf committed' proposed' r ids pid =
      (deltasOf committed proposed r ids pid).map f) (zero : f 0 = 0) :
    (computeImpact committed' proposed' r order').affectedPlayers =
      (computeImpact committed proposed r order).affectedPlayers.map
        (fun x => { x with earliestSlotDelta := f x.earliestSlotDelta }) := by
  rw [computeImpact_eq, computeImpact_eq]
  dsimp only
  rw [counts_congr (playersOf r) perm, List.map_map]
  refine List.map_congr_left fun x _ => ?_
  have near : nearest (deltasOf committed' proposed' r (movedIds committed' proposed' order') x.1) =
      (nearest (deltasOf committed proposed r (movedIds committed proposed order) x.1)).map f := by
    refine nearest_eq_of size ?_ (agree_deltasOf plain h x.1)
    rw [deltas]
    exact (deltasOf_perm perm x.1).map f
  simp only [impactAmong, near, Function.comp_apply, PlayerImpact.mk.injEq, true_and]
  cases nearest (deltasOf committed proposed r (movedIds committed proposed order) x.1) with
  | none => exact zero.symm
  | some d => rfl

theorem computeMetricDelta_symm :
    computeMetricDelta proposed committed = (computeMetricDelta committed proposed).negated := by
  unfold computeMetricDelta MetricDelta.negated
  simp only [MetricDelta.mk.injEq, PyFloat.neg_sub, and_true]
  cases committed.bind ScheduleDTO.objectiveScore <;>
    cases proposed.bind ScheduleDTO.objectiveScore <;> simp [PyFloat.neg_sub]

theorem Plain.faithful (plain : Plain committed proposed r) : Faithful committed proposed r := by
  have part (members : String → List String) (once : ∀ id, Moved committed proposed id →
      (members id).Nodup) {order : List String} (h : Lists committed proposed order) (who : String) :
      ((movedIds committed proposed order).flatMap members).count who =
        (takingPart committed proposed members order who).length :=
    count_flatMap.2.mpr fun id hid =>
      List.nodup_iff_count_le_one.mp (once id ((mem_movedIds h).mp hid)) who
  constructor
  case moves => exact fun order h => moves_exact h
  case players =>
    intro order h
    rw [computeImpact_eq]
    refine ⟨nodup_counted (impactAmong committed proposed r _) PlayerImpact.playerId
      (fun _ => rfl) _, fun pid n => ?_⟩
    rw [← part (playersOf r) plain.once h]
    exact exists_count (impactAmong committed proposed r _) PlayerImpact.playerId
      PlayerImpact.matchCount (fun _ => rfl) (fun _ => rfl)
  case schools =>
    intro order h
    rw [computeImpact_eq]
    refine ⟨nodup_counted (schoolImpact r) SchoolImpact.groupId (fun _ => rfl) _, fun gid n => ?_⟩
    rw [← part (groupsOf r) (fun id _ => nodup_groupsOf id) h]
    exact exists_count (schoolImpact r) SchoolImpact.groupId SchoolImpact.matchCount
      (fun _ => rfl) (fun _ => rfl)
  case orderFree =>
    intro order order' h h'
    have perm := h.perm h'
    have players := affectedPlayers_congr plain h' id (fun _ => rfl) perm
      (fun _ _ => (List.map_id _).symm) rfl
    rw [computeImpact_eq, computeImpact_eq] at players ⊢
    dsimp only at players ⊢
    rw [moves_congr perm, counts_congr (groupsOf r) perm, players]
    simp
  case mirror =>
    intro order order' h h'
    have perm : (movedIds proposed committed order').Perm (movedIds committed proposed order) := by
      rw [@movedIds_symm _ committed proposed]
      exact h'.symm.perm h
    constructor
    case players =>
      exact affectedPlayers_congr plain h (fun d => -d) (fun d => Int.natAbs_neg d) perm
        (fun ids pid => deltasOf_symm ids pid) rfl
    case moves =>
      rw [computeImpact_eq, computeImpact_eq]
      refine (sortBy_perm _ _).trans ((perm.map _).trans ?_)
      refine List.Perm.trans (List.Perm.of_eq ?_) ((sortBy_perm _ _).symm.map _)
      rw [List.map_map]
      rfl
    case schools =>
      rw [computeImpact_eq, computeImpact_eq]
      dsimp only
      rw [counts_congr (groupsOf r) perm]
    case metric =>
      rw [computeImpact_eq, computeImpact_eq]
      exact computeMetricDelta_symm

theorem earliest_first {order : List String} (h : Lists committed proposed order) {id : String}
    (least : MovedLeast committed proposed r pid id) :
    ∃ order', Lists committed proposed order' ∧
      ∃ x ∈ (computeImpact committed proposed r order').affectedPlayers, x.playerId = pid ∧
        ∀ y ∈ (computeImpact committed proposed r order').affectedPlayers, y.playerId = pid →
          y.earliestSlotDelta = deltaOf committed proposed id := by
  obtain ⟨moved, part, below⟩ := least
  have hid : id ∈ order := (List.mem_filter.mp ((mem_movedIds h).mpr moved)).1
  have first := h.first hid
  refine ⟨id :: order.erase id, first, ?_⟩
  have ids : movedIds committed proposed (id :: order.erase id) =
      id :: movedIds committed proposed (order.erase id) := by
    simp [movedIds, moved]
  have near : nearest (deltasOf committed proposed r
      (movedIds committed proposed (id :: order.erase id)) pid) =
        some (deltaOf committed proposed id) := by
    obtain ⟨d, rest, split⟩ : ∃ d rest, deltasOf committed proposed r
        (movedIds committed proposed (id :: order.erase id)) pid = d :: rest ∧
          d = deltaOf committed proposed id := by
      have mine : ∃ d rest, deltasOf committed proposed r [id] pid = d :: rest ∧
          d = deltaOf committed proposed id := by
        have some : deltaOf committed proposed id ∈ deltasOf committed proposed r [id] pid :=
          (mem_deltasOf _ _ _).mpr ⟨id, List.mem_singleton_self id, part, rfl⟩
        obtain ⟨d, rest, found⟩ := List.exists_cons_of_ne_nil (List.ne_nil_of_mem some)
        have hd : d ∈ deltasOf committed proposed r [id] pid := found ▸ List.mem_cons_self
        obtain ⟨id', hid', -, rfl⟩ := (mem_deltasOf _ _ _).mp hd
        exact ⟨_, rest, found, by rw [List.mem_singleton.mp hid']⟩
      obtain ⟨d, rest, found, e⟩ := mine
      refine ⟨d, rest ++ deltasOf committed proposed r
        (movedIds committed proposed (order.erase id)) pid, ?_, e⟩
      rw [ids]
      simp only [deltasOf, List.flatMap_cons, List.flatMap_nil, List.append_nil, List.filter_append,
        List.map_append] at found ⊢
      rw [found, List.cons_append]
    rw [split.1, split.2]
    refine nearest_cons fun c hc => ?_
    have hc : c ∈ deltasOf committed proposed r
        (movedIds committed proposed (id :: order.erase id)) pid := by
      rw [split.1]
      exact List.mem_cons_of_mem _ hc
    obtain ⟨other, hother, part', rfl⟩ := (mem_deltasOf _ _ _).mp hc
    exact below other ((mem_movedIds first).mp hother) part'
  have met : 0 < ((movedIds committed proposed (id :: order.erase id)).flatMap
      (playersOf r)).count pid := by
    refine List.count_pos_iff.mpr (List.mem_flatMap.mpr ⟨id, ?_, part⟩)
    rw [ids]
    exact List.mem_cons_self
  rw [computeImpact_eq]
  obtain ⟨x, hx, named, -⟩ := (exists_count (impactAmong committed proposed r
    (movedIds committed proposed (id :: order.erase id))) PlayerImpact.playerId
    PlayerImpact.matchCount (fun _ => rfl) (fun _ => rfl)).mpr ⟨met, rfl⟩
  refine ⟨x, hx, named, fun y hy e => ?_⟩
  obtain ⟨z, -, rfl⟩ := List.mem_map.mp hy
  have e : z.1 = pid := e
  show (nearest (deltasOf committed proposed r _ z.1)).getD 0 = _
  rw [e, near, Option.getD_some]

theorem Faithful.plain (faithful : Faithful committed proposed r) :
    Plain committed proposed r := by
  obtain ⟨order, h⟩ := exists_lists committed proposed
  constructor
  case once =>
    intro id moved
    refine List.nodup_iff_count_le_one.mpr fun pid => ?_
    by_cases met : pid ∈ playersOf r id
    · have pos : 0 < ((movedIds committed proposed order).flatMap (playersOf r)).count pid :=
        List.count_pos_iff.mpr (List.mem_flatMap.mpr ⟨id, (mem_movedIds h).mpr moved, met⟩)
      obtain ⟨-, counted⟩ := faithful.players order h
      have listed := (counted pid _).mp (by
        rw [computeImpact_eq]
        exact (exists_count (impactAmong committed proposed r _) PlayerImpact.playerId
          PlayerImpact.matchCount (fun _ => rfl) (fun _ => rfl)).mpr ⟨pos, rfl⟩)
      exact count_flatMap.2.mp listed.2 id ((mem_movedIds h).mpr moved)
    · rw [List.count_eq_zero.mpr met]
      exact Nat.zero_le 1
  case oneWay =>
    intro pid id id' least least'
    obtain ⟨order₁, h₁, x, hx, named, delta⟩ := earliest_first h least
    obtain ⟨order₂, h₂, -, -, -, delta'⟩ := earliest_first h least'
    rw [← delta x hx named]
    rw [faithful.orderFree order₁ order₂ h₁ h₂] at hx
    exact delta' x hx named

/-- **The impact of a change is faithful exactly where no match that moved lists a player twice
and the least moves of every player go the same way.** -/
theorem computeImpact_faithful : Faithful committed proposed r ↔ Plain committed proposed r :=
  ⟨Faithful.plain, Plain.faithful⟩

end

/-! ## Two matches of one player -/

namespace Rehearsal

def schedule (first second : Int) : ScheduleDTO Int where
  assignments := Table.ofRows [⟨"m1", first, 1, 1⟩, ⟨"m2", second, 2, 1⟩]

def roster : Roster where
  games := [{ id := "m1", sideA := ["ann"], sideB := ["bob"] },
    { id := "m2", sideA := ["ann"], sideB := ["cat"] }]
  players := [⟨"ann", "Ann", "g"⟩]

end Rehearsal

open Rehearsal in
/-- One of Ann's matches goes a slot earlier and the other one a slot later. -/
theorem computeImpact_unfaithful :
    ¬ Faithful (some (schedule 2 2)) (some (schedule 1 3)) roster := by
  intro faithful
  have lists : ∀ id, id ∈ ["m1", "m2"] ↔ (place (some (schedule 2 2)) id).isSome ∨
      (place (some (schedule 1 3)) id).isSome := fun id => by
    rw [isSome_place, isSome_place]
    exact or_self_iff.symm
  have same := faithful.orderFree ["m1", "m2"] ["m2", "m1"] ⟨by decide, lists⟩
    ⟨by decide, fun id => (List.Perm.swap _ _ _).mem_iff.trans (lists id)⟩
  have players := congrArg Impact.affectedPlayers same
  revert players
  decide +kernel

end Meet.ScheduleImpact
