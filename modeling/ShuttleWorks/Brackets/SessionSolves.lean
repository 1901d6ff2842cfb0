import ShuttleWorks.Brackets.Resolving

/-! What a re-pin and a generated event leave behind, also where the solve fails. A re-pin may move
whatever is free, in every event; a generation moves nothing but drops what it is told to wipe. -/

namespace Brackets
open Lib Engine

namespace TournamentDriver

variable (d : TournamentDriver) (solver : Solver) {x : TournamentAssignment}

/-- The session after a re-pin, which raises before it writes anything. -/
def leftByRepin (id : PlayUnitId) (slotId courtId : Int) : TournamentState :=
  match d.repinAndResolve solver id slotId courtId with
  | .ok (_, s) => s
  | .error _ => d.state

/-- The session after a generation: the assignments are wiped before the problem is built. -/
def leftByGenerate (eventId : EventId) (wipe : Bool) : TournamentState :=
  match d.generateEvent solver eventId wipe with
  | .ok (_, s) => s
  | .error (.eventStarted _) => d.state
  | .error _ => d.wiped eventId wipe

def RepinSolved (id : PlayUnitId) (slotId courtId : Int) : Prop :=
  ∃ r s, d.repinAndResolve solver id slotId courtId = .ok (r, s) ∧ r.Scheduled

instance (id : PlayUnitId) (slotId courtId : Int) :
    Decidable (d.RepinSolved solver id slotId courtId) :=
  decidable_of_iff
    (∃ left ∈ (d.repinAndResolve solver id slotId courtId).toOption, left.1.Scheduled)
    (by simp [RepinSolved, Option.mem_def])

def GenerateSolved (eventId : EventId) (wipe : Bool) : Prop :=
  ∃ r s, d.generateEvent solver eventId wipe = .ok (r, s) ∧ r.Scheduled

instance (eventId : EventId) (wipe : Bool) : Decidable (d.GenerateSolved solver eventId wipe) :=
  decidable_of_iff (∃ left ∈ (d.generateEvent solver eventId wipe).toOption, left.1.Scheduled)
    (by simp [GenerateSolved, Option.mem_def])

variable {d solver}

/-! ## A re-pin -/

section Repin

variable {id : PlayUnitId} {slotId courtId : Int}

theorem leftByRepin_cases (sound : solver.Sound) :
    (d.leftByRepin solver id slotId courtId = d.state ∧ ¬ d.RepinSolved solver id slotId courtId) ∨
      ∃ as, (∀ x ∈ d.state.assignment id, ¬ d.state.Locked id x d.config.currentSlot) ∧
        Drags d id slotId courtId as ∧ d.RepinSolved solver id slotId courtId ∧
        d.leftByRepin solver id slotId courtId = d.state.dragged as := by
  unfold leftByRepin RepinSolved
  cases h : d.repinAndResolve solver id slotId courtId with
  | error e => exact .inl ⟨rfl, fun ⟨_, _, ok, _⟩ => nomatch ok⟩
  | ok left =>
    obtain ⟨r, s⟩ := left
    obtain ⟨x, hx, free, ⟨rfl, unsolved⟩ | ⟨as, solution, ⟨solved, -⟩, rfl⟩⟩ :=
      repinAndResolve_cases sound h
    · refine .inl ⟨rfl, fun ⟨r', s', ok, scheduled⟩ => unsolved ?_⟩
      cases ok
      exact scheduled
    · refine .inr ⟨as, fun y hy => ?_, solution.places (draggable_partition _ _ _ _),
        ⟨r, _, rfl, solved⟩, rfl⟩
      rwa [← Option.some.inj (Eq.trans hx.symm hy)]

theorem leftByRepin_locked (sound : solver.Sound) (keyed : (d.state.assignments.map Prod.fst).Nodup)
    {u : PlayUnitId} (hx : d.state.assignment u = some x)
    (locked : d.state.Locked u x d.config.currentSlot) :
    ∃ x', (d.leftByRepin solver id slotId courtId).assignment u = some x' ∧
      x'.slotId = x.slotId ∧ x'.courtId = x.courtId := by
  rcases leftByRepin_cases sound with ⟨same, -⟩ | ⟨as, free, places, -, left⟩
  · exact ⟨x, same ▸ hx, rfl, rfl⟩
  · obtain ⟨a, ha, e, hx'⟩ := dragged_assigned places hx
    exact ⟨_, left ▸ hx', locked_stays keyed places free hx locked ha e⟩

end Repin

/-! ## A generation -/

section Generate

variable {eventId : EventId} {wipe : Bool}

theorem leftByGenerate_cases (sound : solver.Sound) :
    (¬ d.GenerateSolved solver eventId wipe ∧
      (d.leftByGenerate solver eventId wipe = d.state ∨
        d.leftByGenerate solver eventId wipe = d.wiped eventId wipe)) ∨
      ∃ as, Generates (d.wiped eventId wipe) d.participants d.config eventId as ∧
        d.GenerateSolved solver eventId wipe ∧
        d.leftByGenerate solver eventId wipe = (d.wiped eventId wipe).generated eventId as := by
  unfold leftByGenerate GenerateSolved
  cases h : d.generateEvent solver eventId wipe with
  | error e =>
    refine .inl ⟨fun ⟨_, _, ok, _⟩ => (nomatch ok), ?_⟩
    cases e with
    | eventStarted _ => exact .inl rfl
    | build _ => exact .inr rfl
    | notScheduled _ => exact .inr rfl
    | locked _ => exact .inr rfl
  | ok left =>
    obtain ⟨r, s⟩ := left
    rcases generateEvent_cases sound h with ⟨rfl, unsolved⟩ | ⟨as, solution, ⟨solved, -⟩, rfl⟩
    · refine .inl ⟨fun ⟨r', s', ok, scheduled⟩ => unsolved ?_, .inr rfl⟩
      cases ok
      exact scheduled
    · exact .inr ⟨as, solution.places (draggable_held _ _), ⟨r, _, rfl, solved⟩, rfl⟩

theorem leftByGenerate_kept (sound : solver.Sound) {id : PlayUnitId}
    (hx : d.state.assignment id = some x) (kept : ¬ d.Dropped eventId wipe id) :
    (d.leftByGenerate solver eventId wipe).assignment id = some x := by
  have wiped : (d.wiped eventId wipe).assignment id = some x := by
    rw [wiped_assignment, if_neg kept, hx]
  rcases leftByGenerate_cases sound with ⟨-, left | left⟩ | ⟨as, -, -, left⟩
  · rw [left, hx]
  · rw [left, wiped]
  · rw [left]
    exact assignment_generated wiped

theorem clear_leftByGenerate (sound : solver.Sound)
    (keyed : (d.state.assignments.map Prod.fst).Nodup) (sized : d.state.Sized)
    (free : ∀ unit ∈ d.state.eventUnits eventId, ¬ (d.wiped eventId wipe).Assigned unit.id)
    (solved : d.GenerateSolved solver eventId wipe) :
    (d.leftByGenerate solver eventId wipe).planned.Clear
      ((d.leftByGenerate solver eventId wipe).Shares d.participants) := by
  rcases leftByGenerate_cases sound with ⟨unsolved, -⟩ | ⟨as, places, -, left⟩
  · exact absurd solved unsolved
  · rw [left]
    have units : (d.wiped eventId wipe).playUnits = d.state.playUnits := by
      unfold wiped
      split <;> rfl
    refine clear_generated ?_ (fun id x hx => ?_) places fun unit hu => free unit ?_
    · unfold wiped
      split
      · exact (List.filter_sublist.map _).nodup keyed
      · exact keyed
    · rw [units]
      rw [wiped_assignment] at hx
      split at hx
      · cases hx
      · exact sized id x hx
    · rwa [TournamentState.eventUnits, units] at hu

end Generate

/-- **What a solve leaves behind.** A re-pin moves nothing that is locked, and a generation nothing
that it does not drop; a schedule that is found leaves no two assignments overlapping on a court or
for a player, for a generation if the event holds nothing then; and where none is found, or the call
raises, nothing is changed but what a wipe dropped. -/
theorem session_solves (sound : solver.Sound) (keyed : (d.state.assignments.map Prod.fst).Nodup) :
    (∀ id slotId courtId,
      (∀ u x, d.state.assignment u = some x → d.state.Locked u x d.config.currentSlot →
        ∃ x', (d.leftByRepin solver id slotId courtId).assignment u = some x' ∧
          x'.slotId = x.slotId ∧ x'.courtId = x.courtId) ∧
      (d.RepinSolved solver id slotId courtId →
        (d.leftByRepin solver id slotId courtId).planned.Clear
          ((d.leftByRepin solver id slotId courtId).Shares d.participants)) ∧
      (¬ d.RepinSolved solver id slotId courtId →
        d.leftByRepin solver id slotId courtId = d.state)) ∧
    ∀ eventId wipe,
      (∀ u x, d.state.assignment u = some x → ¬ d.Dropped eventId wipe u →
        (d.leftByGenerate solver eventId wipe).assignment u = some x) ∧
      (d.state.Sized →
        (∀ unit ∈ d.state.eventUnits eventId, ¬ (d.wiped eventId wipe).Assigned unit.id) →
        d.GenerateSolved solver eventId wipe →
        (d.leftByGenerate solver eventId wipe).planned.Clear
          ((d.leftByGenerate solver eventId wipe).Shares d.participants)) ∧
      (¬ d.GenerateSolved solver eventId wipe →
        d.leftByGenerate solver eventId wipe = d.state ∨
          (wipe = true ∧ d.leftByGenerate solver eventId wipe = d.wiped eventId wipe)) := by
  refine ⟨fun id slotId courtId => ⟨fun u x hx locked => leftByRepin_locked sound keyed hx locked,
    fun solved => ?_, fun unsolved => ?_⟩, fun eventId wipe => ⟨fun u x hx kept =>
      leftByGenerate_kept sound hx kept, fun sized free solved =>
        clear_leftByGenerate sound keyed sized free solved, fun unsolved => ?_⟩⟩
  · rcases leftByRepin_cases sound with ⟨-, unsolved⟩ | ⟨as, -, places, -, left⟩
    · exact absurd solved unsolved
    · rw [left]
      exact clear_dragged places
  · rcases leftByRepin_cases sound with ⟨same, -⟩ | ⟨-, -, -, solved, -⟩
    · exact same
    · exact absurd solved unsolved
  · rcases leftByGenerate_cases sound with ⟨-, same | left⟩ | ⟨-, -, solved, -⟩
    · exact .inl same
    · by_cases w : wipe = true
      · exact .inr ⟨w, left⟩
      · exact .inl (left.trans (if_neg w))
    · exact absurd solved unsolved

/-! ## Two events on one court -/

/-- A unit of two players the roster does not name. -/
def between (id : PlayUnitId) (eventId : EventId) (p q : ParticipantId) : PlayUnit where
  id := id
  eventId := eventId
  sideA := [p]
  sideB := [q]
  slotA := .participant p
  slotB := .participant q

def mens : PlayUnit := between "ms" "MS" "ann" "bob"

def womens : PlayUnit := between "ws" "WS" "cid" "dee"

/-- One court for two slots, and two events. -/
def twoEvents (assignments : List (PlayUnitId × TournamentAssignment)) : TournamentDriver where
  state := { playUnits := ⟨[mens, womens], by decide⟩, assignments }
  participants := Table.empty
  config := { totalSlots := 2, courtCount := 1 }

def bothAsked (prevs : List PreviousAssignment) : ScheduleRequest where
  config := { totalSlots := 2, courtCount := 1 }
  players := buildPlayers ["ann", "bob", "cid", "dee"] Table.empty 0 2 none
  games := [mens.toMatch Table.empty, womens.toMatch Table.empty]
  previousAssignments := prevs

def womenFirst : List Assignment := [⟨"ms", 1, 1, 1⟩, ⟨"ws", 0, 1, 1⟩]

def womenFirstValues : Values where
  start id := if id = "ms" then 1 else 0
  court _ := 1

theorem womenFirst_sound {prevs : List PreviousAssignment}
    (held : (bothAsked prevs).scheduler.LocksAndPins womenFirstValues)
    (near : (bothAsked prevs).scheduler.Disruption womenFirstValues)
    (verified : ((bothAsked prevs).scheduler.draft womenFirst).findConflicts = []) :
    (Solver.answering (bothAsked prevs) womenFirst).Sound := by
  have plan : (bothAsked prevs).scheduler.planPool = {} :=
    if_pos (show CourtPolicy.pinned ≠ .queue by decide)
  have apart := Scheduler.onShared_of_apart (s := (bothAsked prevs).scheduler) (by
    show ∀ m ∈ (bothAsked []).scheduler.games.rows, ∀ n ∈ (bothAsked []).scheduler.games.rows, _
    decide +kernel)
  have spans : ∀ m ∈ (bothAsked []).scheduler.games.rows,
      ∀ n ∈ (bothAsked []).scheduler.games.rows, m.id ≠ n.id →
        (womenFirstValues.span m).Apart (womenFirstValues.span n) := by
    decide +kernel
  refine Solver.answering_sound ⟨womenFirstValues, ?_, rfl⟩ verified
  constructor
  case startsInDay =>
    show (bothAsked []).scheduler.StartsInDay womenFirstValues
    unfold Scheduler.StartsInDay
    decide +kernel
  case courtsInRange =>
    show (bothAsked []).scheduler.CourtsInRange womenFirstValues
    unfold Scheduler.CourtsInRange
    decide +kernel
  case courtClosures =>
    show (bothAsked []).scheduler.CourtClosures womenFirstValues
    unfold Scheduler.CourtClosures
    decide +kernel
  case courtCapacity =>
    constructor
    · intro m hm n hn ne _ _ _
      exact spans m hm n hn ne
    · intro t
      simp [plan]
  case playerNoOverlap => exact fun _ => apart _
  case availability =>
    show (bothAsked []).scheduler.Availability womenFirstValues
    unfold Scheduler.Availability
    decide +kernel
  case locksAndPins => exact held
  case freezeHorizon =>
    intro cut
    exact absurd cut (show ¬ (bothAsked []).scheduler.config.currentSlot <
      (bothAsked []).scheduler.cutoff by decide)
  case restBetweenMatches => exact apart _
  case gameProximity => exact fun _ _ => apart _
  case lockedConstraints =>
    intro lock hl
    exact absurd hl List.not_mem_nil
  case disruption => exact near

def dragAsked : ScheduleRequest := bothAsked
  [{ matchId := "ms", slotId := 0, courtId := 1, pinnedSlotId := some 1, pinnedCourtId := some 1 }]

theorem drag_answer : (Solver.answering dragAsked womenFirst).Sound := by
  refine womenFirst_sound ?_ ?_ (by decide +kernel)
  · unfold Scheduler.LocksAndPins
    decide +kernel
  · unfold Scheduler.Disruption
    decide +kernel

def bothPlanned : TournamentDriver := twoEvents
  [("ms", { slotId := 0, courtId := 1 }), ("ws", { slotId := 1, courtId := 1 })]

def afterDrag : TournamentState :=
  bothPlanned.leftByRepin (.answering dragAsked womenFirst) "ms" 1 1

def heldAsked : ScheduleRequest := bothAsked
  [{ matchId := "ws", slotId := 0, courtId := 1, locked := true }]

theorem held_answer : (Solver.answering heldAsked womenFirst).Sound := by
  refine womenFirst_sound ?_ ?_ (by decide +kernel)
  · unfold Scheduler.LocksAndPins
    decide +kernel
  · unfold Scheduler.Disruption
    decide +kernel

def womenHeld : TournamentDriver := twoEvents [("ws", { slotId := 0, courtId := 1 })]

def afterHeld : TournamentState :=
  womenHeld.leftByGenerate (.answering heldAsked womenFirst) "MS" false

def prolonged : TournamentDriver := twoEvents
  [("ws", { slotId := 0, courtId := 1, durationSlots := 2 })]

def afterProlonged : TournamentState :=
  prolonged.leftByGenerate (.answering heldAsked womenFirst) "MS" false

/-! ## One event on one court -/

def menLater : PlayUnit := between "ms2" "MS" "eve" "fay"

/-- An event that holds its first match, which may be under way. -/
def oneEvent (started : Option Int) : TournamentDriver where
  state :=
    { playUnits := ⟨[mens, menLater], by decide⟩
      assignments := [("ms", { slotId := 0, courtId := 1, actualStartSlot := started })] }
  participants := Table.empty
  config := { totalSlots := 1, courtCount := 1 }

def laterAsked : ScheduleRequest where
  config := { totalSlots := 1, courtCount := 1 }
  players := buildPlayers ["eve", "fay"] Table.empty 0 1 none
  games := [menLater.toMatch Table.empty]

def laterPlace : Assignment := ⟨"ms2", 0, 1, 1⟩

def afterLater : TournamentState :=
  (oneEvent none).leftByGenerate (.answering laterAsked [laterPlace]) "MS" false

def findsNothing : Solver := fun _ => { status := .infeasible }

/-- A drag in one event moves a match of another; a generation without a schedule loses a match
under way; one that keeps the event's own places puts a match on top of them; and one on top of a
place that is longer than its unit. -/
theorem solves_that_move :
    (bothPlanned.state.assignment "ws" = some { slotId := 1, courtId := 1 } ∧
      afterDrag.assignment "ws" = some { slotId := 0, courtId := 1 }) ∧
    ((oneEvent (some 0)).state.Assigned "ms" ∧
      ¬ (oneEvent (some 0)).GenerateSolved findsNothing "MS" true ∧
      ¬ ((oneEvent (some 0)).leftByGenerate findsNothing "MS" true).Assigned "ms") ∧
    ¬ afterLater.planned.Clear (afterLater.Shares (oneEvent none).participants) ∧
    ¬ afterProlonged.planned.Clear (afterProlonged.Shares prolonged.participants) := by
  have overlapping : ∀ (s : TournamentState) (r : PlayUnitId → PlayUnitId → Prop) (u v : PlayUnitId)
      (x y : TournamentAssignment), u ≠ v → s.assignment u = some x → s.assignment v = some y →
        x.courtId = y.courtId → ¬ x.span.Apart y.span → ¬ s.planned.Clear r :=
    fun s r u v x y ne hx hy court met clear => met (clear u v ne _
      (TournamentState.planned_eq_some.mpr ⟨x, hx, rfl⟩) _
      (TournamentState.planned_eq_some.mpr ⟨y, hy, rfl⟩) (.inl court))
  refine ⟨by decide +kernel, by decide +kernel, ?_, ?_⟩
  · refine overlapping _ _ "ms" "ms2" { slotId := 0, courtId := 1 } { slotId := 0, courtId := 1 }
      (by decide) ?_ ?_ rfl (by decide)
    all_goals decide +kernel
  · refine overlapping _ _ "ms" "ws" { slotId := 1, courtId := 1 }
      { slotId := 0, courtId := 1, durationSlots := 2 } (by decide) ?_ ?_ rfl (by decide)
    all_goals decide +kernel

/-- The men's match can be dragged and generated without an overlap. -/
theorem both_are_clear : afterDrag.planned.Clear (afterDrag.Shares bothPlanned.participants) ∧
    womenHeld.state.Sized ∧ afterHeld.planned.Clear (afterHeld.Shares womenHeld.participants) := by
  have sized : womenHeld.state.Sized := by
    intro id x hx
    have only := Assoc.mem_of_get hx
    obtain ⟨rfl, rfl⟩ := Prod.mk.inj (List.mem_singleton.mp only)
    exact ⟨womens, rfl, rfl⟩
  refine ⟨((session_solves drag_answer (by decide)).1 "ms" 1 1).2.1 (by decide +kernel), sized,
    ((session_solves held_answer (by decide)).2 "MS" false).2.1 sized ?_ (by decide +kernel)⟩
  decide +kernel

end TournamentDriver

end Brackets
