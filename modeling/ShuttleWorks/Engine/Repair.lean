import ShuttleWorks.Engine.Solving
import ShuttleWorks.Lib.Except

/-! Targeted repair. A disruption names the matches that may move, the ones that are taken
out and the courts that are closed; everything else is locked where it stood and the
engine solves again. The closed courts are posted match by match, on the court variable of
each match that may move. -/

namespace Engine
open Lib

/-- The slice rule of one disruption; `hintAssignments` has where each match was. -/
structure RepairSpec where
  freeMatchIds : List String
  forbidMatchIds : List String := []
  forbidCourtIds : List Int := []
  hintAssignments : Table Assignment.matchId := .empty
  deriving DecidableEq

/-- What `solve_repair` is given. -/
structure RepairProblem where
  config : ScheduleConfig
  players : List Player
  games : List Match
  repair : RepairSpec
  lockedAssignments : List LockedAssignment := []
  deriving DecidableEq

namespace RepairProblem

variable (p : RepairProblem)

def surviving : List Match := p.games.filter fun m => m.id ∉ p.repair.forbidMatchIds

def previous : List PreviousAssignment :=
  (p.repair.hintAssignments.rows.filter fun ref =>
    ref.matchId ∉ p.repair.forbidMatchIds ∧ ref.matchId ∉ p.repair.freeMatchIds).map fun ref =>
      { matchId := ref.matchId, slotId := ref.slotId, courtId := ref.courtId, locked := true }

def request : ScheduleRequest where
  config := p.config
  players := p.players
  games := p.surviving
  previousAssignments := p.previous
  lockedAssignments := p.lockedAssignments

def scheduler : Scheduler := p.request.scheduler

/-- A match that may move is not on a closed court, where it has a court variable. -/
def Forbids (v : Values) : Prop := ∀ m ∈ p.scheduler.games.rows, m.id ∈ p.repair.freeMatchIds →
  m.id ∉ p.scheduler.planPool.pooled → v.court m.id ∉ p.repair.forbidCourtIds

def Yields (as : List Assignment) : Prop :=
  ∃ v, p.scheduler.Satisfies v ∧ p.Forbids v ∧ p.scheduler.extractSolution v = some as

end RepairProblem

abbrev RepairSolver := RepairProblem → ScheduleResult

/-- What the solver is relied on for: a schedule it finds satisfies what is posted, and has passed
the validator. -/
structure RepairSolver.Sound (solver : RepairSolver) : Prop where
  yields : ∀ p, (solver p).Solved → p.Yields (solver p).assignments
  verified : ∀ p, (solver p).Solved →
    (p.scheduler.draft (solver p).assignments).findConflicts = []

/-- The solver that finds these places for one problem and gives up on every other. -/
def RepairSolver.answering (p : RepairProblem) (as : List Assignment) : RepairSolver := fun q =>
  if q = p then { status := .optimal, assignments := as } else { status := .unknown }

theorem RepairSolver.answering_self (p : RepairProblem) (as : List Assignment) :
    RepairSolver.answering p as p = { status := .optimal, assignments := as } :=
  if_pos rfl

theorem RepairSolver.answering_sound {p : RepairProblem} {as : List Assignment}
    (yields : p.Yields as) (verified : (p.scheduler.draft as).findConflicts = []) :
    (RepairSolver.answering p as).Sound := by
  have only : ∀ q, (RepairSolver.answering p as q).Solved → q = p := by
    intro q solved
    by_contra ne
    rw [RepairSolver.answering, if_neg ne] at solved
    simp [ScheduleResult.Solved] at solved
  constructor
  · intro q solved
    rw [only q solved, answering_self]
    exact yields
  · intro q solved
    rw [only q solved, answering_self]
    exact verified

/-! ## What a repair keeps -/

namespace RepairProblem

variable {p : RepairProblem} {as : List Assignment} {m : Match} {ref a : Assignment}

theorem mem_surviving :
    m ∈ p.surviving ↔ m ∈ p.games ∧ m.id ∉ p.repair.forbidMatchIds := by
  simp [surviving]

theorem has_games {id : String} :
    p.scheduler.games.Has id ↔ ∃ m ∈ p.surviving, m.id = id := by
  show (Table.ofRows (p.surviving.insertionSort _) : Table Match.id).Has id ↔ _
  rw [Table.has_ofRows, ((List.perm_insertionSort _ _).map Match.id).mem_iff, List.mem_map]

theorem mem_games (h : m ∈ p.scheduler.games.rows) : m ∈ p.surviving :=
  (List.perm_insertionSort _ _).mem_iff.mp (Table.mem_ofRows h)

theorem Yields.plain (h : p.Yields as) : p.scheduler.Yields as := by
  obtain ⟨v, sat, -, extracted⟩ := h
  exact ⟨v, sat, extracted⟩

theorem Yields.ids (h : p.Yields as) :
    as.map Assignment.matchId = p.scheduler.games.rows.map Match.id := by
  obtain ⟨v, -, -, extracted⟩ := h
  obtain ⟨coloured, -, rfl⟩ := Option.map_eq_some_iff.mp extracted
  rw [List.map_map]
  rfl

theorem mem_previous (hr : ref ∈ p.repair.hintAssignments.rows)
    (stays : ref.matchId ∉ p.repair.forbidMatchIds) (held : ref.matchId ∉ p.repair.freeMatchIds) :
    { matchId := ref.matchId, slotId := ref.slotId, courtId := ref.courtId, locked := true } ∈
      p.scheduler.previousAssignments.rows := by
  have unique : (p.previous.map PreviousAssignment.matchId).Nodup := by
    rw [previous, List.map_map]
    exact (List.filter_sublist.map Assignment.matchId).nodup p.repair.hintAssignments.unique
  show _ ∈ (Table.ofRows p.previous : Table PreviousAssignment.matchId).rows
  rw [Table.rows_ofRows unique]
  exact List.mem_map.mpr ⟨ref, List.mem_filter.mpr ⟨hr, decide_eq_true ⟨stays, held⟩⟩, rfl⟩

theorem Yields.kept (h : p.Yields as) (ha : a ∈ as) (held : a.matchId ∉ p.repair.freeMatchIds)
    (hr : p.repair.hintAssignments.get a.matchId = some ref) :
    a.slotId = ref.slotId ∧ a.courtId = ref.courtId := by
  obtain ⟨mem, e⟩ := Table.get_eq_some_iff.mp hr
  have has : p.scheduler.games.Has a.matchId := by
    rw [Table.Has, ← h.ids]
    exact List.mem_map_of_mem ha
  obtain ⟨m, hm, e'⟩ := has_games.mp has
  have stays := (mem_surviving.mp hm).2
  rw [e', ← e] at stays
  exact h.plain.locked a ha _ (mem_previous mem stays (e ▸ held)) rfl e

/-- The repair may place the match: it is free or it had no place, and it is not under way. -/
def MayPlace (p : RepairProblem) (id : String) : Prop :=
  (id ∈ p.repair.freeMatchIds ∨ ¬ p.repair.hintAssignments.Has id) ∧
    id ∉ p.lockedAssignments.map LockedAssignment.matchId

/-- No match is handed a court from a pool with a closed court in it, and only matches that may
move, or are under way, had no place, if a court of the day is closed. -/
def Barred (p : RepairProblem) : Prop := ∀ c ∈ p.repair.forbidCourtIds,
  (p.scheduler.planPool.pooled = [] ∨ c ∉ p.scheduler.poolCourts) ∧
    ((1 ≤ c ∧ c ≤ p.config.courtCount) → ∀ m ∈ p.surviving,
      m.id ∉ p.scheduler.planPool.pooled → p.MayPlace m.id → m.id ∈ p.repair.freeMatchIds)

theorem Yields.barred (h : p.Yields as) (barred : p.Barred) (ha : a ∈ as)
    (may : p.MayPlace a.matchId) : a.courtId ∉ p.repair.forbidCourtIds := by
  obtain ⟨v, sat, forbids, extracted⟩ := h
  obtain ⟨coloured, hc, rfl⟩ := Option.map_eq_some_iff.mp extracted
  obtain ⟨m, hm, rfl⟩ := List.mem_map.mp ha
  intro closed
  obtain ⟨pool, free⟩ := barred _ closed
  by_cases pooled : m.id ∈ p.scheduler.planPool.pooled
  · rcases pool with none | outside
    · rw [none] at pooled
      cases pooled
    · exact outside (Scheduler.courtId_of_pooled hc hm pooled).2
  · have inside := Scheduler.mem_courts.mp (Scheduler.extracted_courts hc sat hm)
    have mine := free inside m (mem_games hm) pooled may
    rw [Scheduler.courtId_of_not_pooled hc pooled] at closed
    exact forbids m hm mine pooled closed

end RepairProblem

end Engine
