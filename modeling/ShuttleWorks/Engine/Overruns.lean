import ShuttleWorks.Engine.Disruptions

/-! A match that runs over. The repair frees the later matches of its players, holds everything
else where it was and solves the same problem again; the minutes the match runs over are posted
nowhere. -/

namespace Engine
open Lib

/-- The rest the schedule must leave a player; a soft rest may be used up. -/
def Scheduler.hardRest (s : Scheduler) (id : String) : Int :=
  let player := s.players.get id
  if (player.map Player.restIsHard).getD true ∨ s.config.softRestEnabled = false then
    (player.map Player.restSlots).getD s.config.defaultRestSlots
  else 0

variable {v : Values}

theorem Scheduler.Satisfies.rested {s : Scheduler} (h : s.Satisfies v) {m n : Match}
    (hm : m ∈ s.games.rows) (hn : n ∈ s.games.rows) (ne : m.id ≠ n.id) {id : String}
    (hid : id ∈ m.playerIds) (hid' : id ∈ n.playerIds) :
    Scheduler.Follows (v.span m) (v.span n) (s.hardRest id) ∨
      Scheduler.Follows (v.span n) (v.span m) (s.hardRest id) := by
  have rest := h.restBetweenMatches m hm n hn ne id hid hid'
  unfold Scheduler.hardRest
  dsimp only at rest ⊢
  split
  · next hard => rwa [if_pos hard] at rest
  · next soft =>
    rw [if_neg soft] at rest
    obtain ⟨slack, -, least, rest⟩ := rest
    unfold Scheduler.Follows at rest ⊢
    omega

theorem RepairProblem.stays_of_held {p : RepairProblem} (h : p.scheduler.Satisfies v) {m : Match}
    (hm : m ∈ p.scheduler.games.rows) (held : m.id ∉ p.repair.freeMatchIds) {ref : Assignment}
    (hr : p.repair.hintAssignments.get m.id = some ref) :
    v.start m.id = ref.slotId ∧ v.court m.id = ref.courtId ∧
      m.id ∉ p.scheduler.planPool.pooled := by
  obtain ⟨mem, e⟩ := Table.get_eq_some_iff.mp hr
  have listed := mem_previous mem (e ▸ (mem_surviving.mp (mem_games hm)).2) (e ▸ held)
  have posted := (h.locksAndPins _ listed m
    (by rw [e]; exact Table.get_eq_some_iff.mpr ⟨hm, rfl⟩)).2
  refine ⟨e ▸ posted.1, e ▸ posted.2, fun pooled => ?_⟩
  refine (((Scheduler.planPool_queue pooled).2.2.2 m.id).mp pooled).2 (List.mem_append_left _ ?_)
  apply List.mem_append_left
  exact List.mem_map.mpr ⟨_, List.mem_filter.mpr ⟨listed, rfl⟩, e⟩

namespace RepairRequest

variable (r : RepairRequest)

def matchesById : Table Match.id := Table.ofRows r.games

def extraSlots (extraMinutes : Int) : Int := -(-extraMinutes / r.intervalMinutes)

/-- The disruption is an overrun of a match that is known and has a place. -/
structure Overrun (target : Match) (place : Assignment) (extraMinutes : Int) : Prop where
  type : r.disruption.type = .overrun
  names : r.disruption.matchId = some target.id
  nonempty : target.id ≠ ""
  extra : r.disruption.extraMinutes = some extraMinutes
  known : r.matchesById.get target.id = some target
  scheduled : r.assignmentsByMatch.get target.id = some place

def overAt (target : Match) (place : Assignment) (extraMinutes : Int) : Int :=
  place.slotId + target.durationSlots + r.extraSlots extraMinutes

def SharesPlayer (m target : Match) : Prop :=
  ∃ pid ∈ m.sideA ++ m.sideB, pid ∈ target.sideA ++ target.sideB

instance (m target : Match) : Decidable (SharesPlayer m target) :=
  inferInstanceAs (Decidable (∃ pid ∈ m.sideA ++ m.sideB, pid ∈ target.sideA ++ target.sideB))

/-- An unfinished match that starts when the match does or later, of one of its players or on its
court. -/
structure Affected (target : Match) (place : Assignment) (m : Match) (a : Assignment) : Prop where
  known : r.matchesById.get m.id = some m
  other : m.id ≠ target.id
  unfinished : ¬ r.isFinished m.id
  scheduled : r.assignmentsByMatch.get m.id = some a
  later : place.slotId ≤ a.slotId
  shares : SharesPlayer m target ∨ a.courtId = place.courtId

def freedBy (target : Match) (place : Assignment) : List String :=
  r.movable fun m a => m.id ≠ target.id ∧ SharesPlayer m target ∧ place.slotId ≤ a.slotId

def overrunSlice (target : Match) (place : Assignment) : RepairSpec where
  freeMatchIds := r.freedBy target place
  hintAssignments := r.hints []

variable {r : RepairRequest} {target m : Match} {place a : Assignment} {extraMinutes : Int}
  {lockedAssignments : List LockedAssignment}

theorem Overrun.sliceFor (h : r.Overrun target place extraMinutes) :
    r.sliceFor = .ok (r.overrunSlice target place) := by
  have slice : r.slice = .ok (r.freedBy target place, [], []) := by
    unfold slice
    have known := h.known
    unfold matchesById at known
    simp only [h.type, h.names, Option.getD_some, if_neg h.nonempty, known, h.scheduled]
    rfl
  unfold RepairRequest.sliceFor
  rw [slice]
  rfl

theorem freedBy_other : target.id ∉ r.freedBy target place := by
  intro mem
  obtain ⟨m, hm, same⟩ := List.mem_map.mp mem
  obtain ⟨-, -, wanted⟩ := (List.mem_filter.mp hm).imp_right of_decide_eq_true
  obtain ⟨a, -, wanted⟩ := (Option.any_eq_true _ _).mp wanted
  exact (of_decide_eq_true wanted).1 same

theorem get_games (r : RepairRequest) (repair : RepairSpec) (none : repair.forbidMatchIds = [])
    (id : String) : (r.problem repair lockedAssignments).scheduler.games.get id =
      r.matchesById.get id := by
  have all : (r.problem repair lockedAssignments).surviving = r.games := by
    simp [RepairProblem.surviving, problem, none]
  show (Table.ofRows ((r.problem repair lockedAssignments).surviving.insertionSort _) :
    Table Match.id).get id = _
  rw [all]
  exact Table.get_ofRows_sorted r.games id

theorem Affected.listed (h : r.Affected target place m a) : m ∈ r.games :=
  Table.mem_ofRows (Table.mem_of_get h.known)

/-- What a repair of the overrun is asked to solve. -/
def overrunProblem (r : RepairRequest) (target : Match) (place : Assignment)
    (lockedAssignments : List LockedAssignment) : RepairProblem :=
  r.problem (r.overrunSlice target place) lockedAssignments

/-- A slot that the constraints posted on a match alone, and between it and the match that runs
over, leave it. -/
structure MayStart (p : RepairProblem) (target : Match) (place : Assignment) (m : Match)
    (a : Assignment) (t : Int) : Prop where
  day : 0 ≤ t ∧ t + m.durationSlots ≤ p.config.totalSlots
  allowed : ∀ starts ∈ p.scheduler.allowedStarts m, t ∈ starts
  underWay : ∀ lock ∈ p.lockedAssignments, lock.matchId = m.id → t = lock.timeSlot
  held : m.id ∉ p.repair.freeMatchIds → t = a.slotId ∧ (a.courtId = place.courtId →
    Span.Apart ⟨t, t + m.durationSlots⟩ ⟨place.slotId, place.slotId + target.durationSlots⟩)
  rested : ∀ id ∈ m.playerIds, id ∈ target.playerIds →
    Scheduler.Follows ⟨t, t + m.durationSlots⟩
        ⟨place.slotId, place.slotId + target.durationSlots⟩ (p.scheduler.hardRest id) ∨
      Scheduler.Follows ⟨place.slotId, place.slotId + target.durationSlots⟩
        ⟨t, t + m.durationSlots⟩ (p.scheduler.hardRest id)

theorem Affected.mayStart (h : r.Affected target place m a)
    (overrun : r.Overrun target place extraMinutes)
    (sat : (r.overrunProblem target place lockedAssignments).scheduler.Satisfies v) :
    MayStart (r.overrunProblem target place lockedAssignments) target place m a
      (v.start m.id) := by
  have rows : ∀ n : Match, r.matchesById.get n.id = some n →
      n ∈ (r.overrunProblem target place lockedAssignments).scheduler.games.rows := fun n known =>
    Table.mem_of_get ((get_games r (r.overrunSlice target place) rfl n.id).trans known)
  have hm := rows m h.known
  have ht := rows target overrun.known
  have hint : ∀ n : Match, n ∈ r.games →
      (r.overrunProblem target place lockedAssignments).repair.hintAssignments.get n.id =
        r.assignmentsByMatch.get n.id := fun n hn => get_hints hn List.not_mem_nil
  have targetListed : target ∈ r.games := Table.mem_ofRows (Table.mem_of_get overrun.known)
  obtain ⟨start, court, own⟩ := RepairProblem.stays_of_held sat ht freedBy_other
    ((hint target targetListed).trans overrun.scheduled)
  have targetSpan : v.span target = ⟨place.slotId, place.slotId + target.durationSlots⟩ := by
    rw [Values.span, start]
  obtain ⟨first, -, last⟩ := sat.startsInDay m hm
  refine ⟨⟨first, last⟩, sat.availability m hm, fun lock hl same => ?_, fun held => ?_, ?_⟩
  · refine (sat.lockedConstraints lock hl ?_ ?_).2 ▸ (same ▸ rfl)
    · exact Table.has_iff.mpr ⟨m, hm, same.symm⟩
    · intro pooled
      refine (((Scheduler.planPool_queue pooled).2.2.2 _).mp pooled).2 (List.mem_append_left _ ?_)
      exact List.mem_append_right _ (List.mem_map_of_mem hl)
  · obtain ⟨start', court', own'⟩ := RepairProblem.stays_of_held sat hm held
      ((hint m h.listed).trans h.scheduled)
    refine ⟨start', fun same => ?_⟩
    have apart := sat.courtCapacity.1 m hm target ht h.other own' own
      (court'.trans (same.trans court.symm))
    rwa [targetSpan] at apart
  · intro id hid hid'
    have rest := sat.rested hm ht h.other hid hid'
    rwa [targetSpan] at rest

/-- In every feasible schedule the repair returns, the affected matches wait for the match that
runs over. -/
def Waits (r : RepairRequest) (target : Match) (place : Assignment) (extraMinutes : Int)
    (lockedAssignments : List LockedAssignment) : Prop :=
  ∀ solver : RepairSolver, solver.Sound → ∀ result ids,
    r.runRepair solver lockedAssignments = .ok (result, ids) → result.Solved →
      ∀ m a, r.Affected target place m a → ∀ b ∈ result.assignments, b.matchId = m.id →
        r.overAt target place extraMinutes ≤ b.slotId

theorem Overrun.runRepair (overrun : r.Overrun target place extraMinutes)
    (solver : RepairSolver) (lockedAssignments : List LockedAssignment) :
    ∃ ids, r.runRepair solver lockedAssignments =
      .ok (solver (r.overrunProblem target place lockedAssignments), ids) := by
  unfold RepairRequest.runRepair
  rw [overrun.sliceFor]
  exact ⟨_, rfl⟩

theorem Waits.feasible (h : r.Waits target place extraMinutes lockedAssignments)
    (overrun : r.Overrun target place extraMinutes) {as : List Assignment}
    (yields : (r.overrunProblem target place lockedAssignments).Yields as)
    (verified :
      ((r.overrunProblem target place lockedAssignments).scheduler.draft as).findConflicts = [])
    (affected : r.Affected target place m a) {b : Assignment} (hb : b ∈ as)
    (same : b.matchId = m.id) : r.overAt target place extraMinutes ≤ b.slotId := by
  have answer := RepairSolver.answering_self
    (r.overrunProblem target place lockedAssignments) as
  obtain ⟨ids, ran⟩ := overrun.runRepair
    (.answering (r.overrunProblem target place lockedAssignments) as) lockedAssignments
  rw [answer] at ran
  exact h _ (RepairSolver.answering_sound yields verified) _ ids ran (.inl rfl) m a affected b hb
    same

/-! ## Two matches of one player -/

def semi : Match := { id := "semi", eventCode := "MS", sideA := ["ann"], sideB := ["cid"] }

def finalMatch : Match := { id := "final", eventCode := "MS", sideA := ["ann"], sideB := ["bob"] }

/-- A semifinal that runs over, and the final two slots after its start, when its winner has
rested. -/
def semiRunsOver (extraMinutes : Int) : RepairRequest where
  originalSchedule := [⟨"final", 2, 1, 1⟩, ⟨"semi", 0, 1, 1⟩]
  config := { totalSlots := 8, courtCount := 2 }
  intervalMinutes := 30
  players := []
  games := [finalMatch, semi]
  disruption := { type := .overrun, matchId := some "semi", extraMinutes := some extraMinutes }

theorem overrun_semi (extraMinutes : Int) :
    (semiRunsOver extraMinutes).Overrun semi ⟨"semi", 0, 1, 1⟩ extraMinutes :=
  ⟨rfl, rfl, by decide, rfl, rfl, rfl⟩

theorem yields_unmoved (extraMinutes : Int) :
    ((semiRunsOver extraMinutes).overrunProblem semi ⟨"semi", 0, 1, 1⟩ []).Yields
      [⟨"final", 2, 1, 1⟩, ⟨"semi", 0, 1, 1⟩] := by
  show ((semiRunsOver 0).overrunProblem semi ⟨"semi", 0, 1, 1⟩ []).Yields _
  refine ⟨⟨fun id => if id = "semi" then 0 else 2, fun _ => 1⟩, ?_, ?_, by decide +kernel⟩
  · apply Scheduler.satisfies_pinned <;> first | decide +kernel | skip
    · unfold Scheduler.LocksAndPins
      decide +kernel
    · unfold Scheduler.FreezeHorizon
      decide +kernel
    · unfold Scheduler.LockedConstraints
      decide +kernel
    · unfold Scheduler.Disruption
      decide +kernel
  · unfold RepairProblem.Forbids
    decide +kernel

end RepairRequest

open RepairRequest

/-- **When a repair makes the others wait.** It does where every slot that the posted constraints
on an affected match, and between it and the match that runs over, leave it comes after the extra
minutes; and where the schedule may stay as it was, it does only if nobody had to wait. -/
theorem overrun_waits (r : RepairRequest) (target : Match) (place : Assignment)
    (extraMinutes : Int) (lockedAssignments : List LockedAssignment)
    (overrun : r.Overrun target place extraMinutes) :
    ((∀ m a, r.Affected target place m a → ∀ t,
        MayStart (r.overrunProblem target place lockedAssignments) target place m a t →
          r.overAt target place extraMinutes ≤ t) →
      r.Waits target place extraMinutes lockedAssignments) ∧
    ∀ as, (r.overrunProblem target place lockedAssignments).Yields as →
      ((r.overrunProblem target place lockedAssignments).scheduler.draft as).findConflicts = [] →
      (∀ b ∈ as, ∀ a ∈ r.assignmentsByMatch.get b.matchId, b.slotId = a.slotId) →
      r.Waits target place extraMinutes lockedAssignments →
        ∀ m a, r.Affected target place m a → r.overAt target place extraMinutes ≤ a.slotId := by
  constructor
  · intro late solver sound result ids returned solved m a h b hb same
    obtain ⟨ids', ran⟩ := overrun.runRepair solver lockedAssignments
    rw [ran] at returned
    cases returned
    obtain ⟨v, sat, -, extracted⟩ := sound.yields _ solved
    obtain ⟨coloured, -, places⟩ := Option.map_eq_some_iff.mp extracted
    rw [← places] at hb
    obtain ⟨n, hn, rfl⟩ := List.mem_map.mp hb
    change r.overAt target place extraMinutes ≤ v.start n.id
    change n.id = m.id at same
    rw [same]
    exact late m a h _ (h.mayStart overrun sat)
  · intro as yields verified stays waits m a h
    have has : (r.overrunProblem target place lockedAssignments).scheduler.games.Has m.id :=
      RepairProblem.has_games.mpr ⟨m, RepairProblem.mem_surviving.mpr ⟨h.listed,
        List.not_mem_nil⟩, rfl⟩
    rw [Table.Has, ← yields.ids] at has
    obtain ⟨b, hb, same⟩ := List.mem_map.mp has
    rw [← stays b hb a (by rw [same]; exact h.scheduled)]
    exact waits.feasible overrun yields verified h hb same

/-- Half an hour is the rest the winner of the semifinal has anyway. -/
theorem overrun_waits_half_hour :
    (semiRunsOver 30).Waits semi ⟨"semi", 0, 1, 1⟩ 30 [] := by
  refine (overrun_waits (semiRunsOver 30) semi ⟨"semi", 0, 1, 1⟩ 30 [] (overrun_semi 30)).1 ?_
  intro m a h t may
  have final : m = finalMatch := by
    rcases List.mem_cons.mp h.listed with rfl | last
    · rfl
    · rw [List.mem_singleton.mp last] at h
      exact absurd rfl h.other
  subst final
  have bound : (semiRunsOver 30).overAt semi ⟨"semi", 0, 1, 1⟩ 30 = 2 := by decide
  have rest : ((semiRunsOver 30).overrunProblem semi ⟨"semi", 0, 1, 1⟩ []).scheduler.hardRest
    "ann" = 1 := by decide +kernel
  have after := may.rested "ann" (by decide +kernel) (by decide +kernel)
  have day := may.day.1
  rw [rest] at after
  unfold Scheduler.Follows at after
  rw [bound]
  simp only [finalMatch, semi] at after
  omega

/-- After an hour the final may still start where it was. -/
theorem overrun_ignored : ∃ (r : RepairRequest) (target : Match) (place : Assignment)
    (extraMinutes : Int), 0 ≤ extraMinutes ∧ r.Overrun target place extraMinutes ∧
      ¬ r.Waits target place extraMinutes [] := by
  refine ⟨semiRunsOver 60, semi, ⟨"semi", 0, 1, 1⟩, 60, by decide, overrun_semi 60, ?_⟩
  intro waits
  have affected : (semiRunsOver 60).Affected semi ⟨"semi", 0, 1, 1⟩ finalMatch
      ⟨"final", 2, 1, 1⟩ :=
    ⟨by decide +kernel, by decide, by decide +kernel, by decide +kernel, by decide,
      .inl (by decide)⟩
  have late := waits.feasible (overrun_semi 60) (yields_unmoved 60) (by decide +kernel) affected
    List.mem_cons_self rfl
  revert late
  decide

end Engine
