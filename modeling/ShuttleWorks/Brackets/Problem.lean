import ShuttleWorks.Brackets.Advancement
import ShuttleWorks.Engine.Solving
import ShuttleWorks.Lib.Except

/-! The scheduling problem of a bracket: a slice of the play units as engine matches, their
entrants expanded to players, and everybody available from the current slot to the end of the
day, as far as the roster does not say otherwise. -/

namespace Brackets
open Lib Engine

/-- What the roster says about a player; no windows mean the whole session. -/
structure PlayerExtras where
  availabilitySlots : List (Int × Int) := []
  restSlots : Nat := 1
  deriving DecidableEq, Repr

abbrev Extras := List (String × PlayerExtras)

def intersectWindows (windows : List (Int × Int)) (lo hi : Int) : List (Int × Int) :=
  (windows.map fun w => (max w.1 lo, min w.2 hi)).filter fun w => w.1 < w.2

def windowLe (a b : Int × Int) : Prop := a.1 < b.1 ∨ (a.1 = b.1 ∧ a.2 ≤ b.2)

instance : DecidableRel windowLe := fun _ _ => inferInstanceAs (Decidable (_ ∨ _))

def intersectWindowLists (a b : List (Int × Int)) : List (Int × Int) :=
  (a.flatMap fun w => intersectWindows b w.1 w.2).insertionSort windowLe

/-- The windows all restricted members share; none restricted leaves the team unrestricted. -/
def teamWindows (members : List PlayerExtras) : List (Int × Int) :=
  ((members.filter fun e => e.availabilitySlots ≠ []).foldl (fun windows e =>
    match windows with
    | none => some e.availabilitySlots
    | some windows => some (intersectWindowLists windows e.availabilitySlots)) none).getD []

def Participant.IsTeam (p : Participant) : Prop := p.type = .team ∧ p.memberIds ≠ []

instance (p : Participant) : Decidable p.IsTeam := inferInstanceAs (Decidable (_ ∧ _))

/-- `_resolve_extras`: windows and rest of a player, or of a team from its members. -/
def resolveExtras (pid : String) (participant : Option Participant) (extras : Extras) :
    Option (List (Int × Int) × Nat) :=
  let own := (Assoc.get pid extras).map fun e => (e.availabilitySlots, e.restSlots)
  match participant with
  | none => own
  | some p =>
    if p.IsTeam then
      match p.memberIds.filterMap fun m => Assoc.get m extras with
      | [] => none
      | member :: members =>
        some (teamWindows (member :: members),
          (members.map PlayerExtras.restSlots).foldl max member.restSlots)
    else own

/-- One player of `build_players`: roster windows only narrow the round's, and windows that
leave nothing of it are ignored. -/
def buildPlayer (participants : Participants) (start stop : Int) (extras : Option Extras)
    (pid : String) : Player :=
  let roundWindow := if start < 0 ∨ stop ≤ start then [] else [(start, stop)]
  let name := ((participants.get pid).map Participant.name).getD pid
  match extras.bind (resolveExtras pid (participants.get pid)) with
  | none => { id := pid, name, availability := roundWindow }
  | some (windows, rest) =>
    let clipped := intersectWindows windows start stop
    let availability :=
      if windows ≠ [] ∧ roundWindow ≠ [] ∧ clipped ≠ [] then clipped else roundWindow
    { id := pid, name, availability, restSlots := rest, restIsHard := true }

def buildPlayers (ids : List String) (participants : Participants) (start stop : Int)
    (extras : Option Extras) : List Player :=
  (ids.dedup.insertionSort (· ≤ ·)).map (buildPlayer participants start stop extras)

def expandSide (side : Side) (participants : Participants) : List String :=
  side.flatMap fun pid =>
    match participants.get pid with
    | none => [pid]
    | some p => if p.IsTeam then p.memberIds else [pid]

/-- `expected_duration_slots or 1`; no unit that is scheduled has a negative one. -/
def PlayUnit.durationSlots (unit : PlayUnit) : Nat :=
  if unit.expectedDurationSlots ≤ 0 then 1 else unit.expectedDurationSlots.toNat

/-- The engine match of a unit. -/
def PlayUnit.toMatch (unit : PlayUnit) (participants : Participants) : Match where
  id := unit.id
  eventCode := unit.eventId
  durationSlots := unit.durationSlots
  sideA := expandSide unit.sideA participants
  sideB := expandSide unit.sideB participants

inductive BuildError
  | noReadyUnits
  | unknownPlayUnit (id : PlayUnitId)
  | unresolvedSides (id : PlayUnitId)
  | emptySide (id : PlayUnitId)
  deriving DecidableEq, Repr

/-- The match of one id of the slice. -/
def buildMatch (s : TournamentState) (participants : Participants) (id : PlayUnitId) :
    Except BuildError Match :=
  match s.playUnits.get id with
  | none => .error (.unknownPlayUnit id)
  | some unit =>
    if unit.sideA = [] ∨ unit.sideB = [] then .error (.unresolvedSides id)
    else
      let m := unit.toMatch participants
      if m.sideA = [] ∨ m.sideB = [] then .error (.emptySide id) else .ok m

def buildProblem (s : TournamentState) (participants : Participants) (ready : List PlayUnitId)
    (config : ScheduleConfig) (previousAssignments : List PreviousAssignment)
    (extras : Option Extras) : Except BuildError ScheduleRequest :=
  if ready = [] then .error .noReadyUnits
  else do
    let games ← ready.mapM (buildMatch s participants)
    let players := buildPlayers (games.flatMap fun m => m.sideA ++ m.sideB) participants
      config.currentSlot config.totalSlots extras
    return { config, players, games, previousAssignments }

/-! ## What is ready, what is locked, and where the next wave starts -/

namespace TournamentState

def assignment (s : TournamentState) (id : PlayUnitId) : Option TournamentAssignment :=
  Assoc.get id s.assignments

def Assigned (s : TournamentState) (id : PlayUnitId) : Prop := (s.assignment id).isSome

instance (s : TournamentState) (id : PlayUnitId) : Decidable (s.Assigned id) :=
  inferInstanceAs (Decidable (_ = true))

def Resolved (s : TournamentState) (unit : PlayUnit) : Prop :=
  unit.sideA ≠ [] ∧ unit.sideB ≠ [] ∧ ∀ d ∈ unit.dependencies, s.Resulted d

instance (s : TournamentState) (unit : PlayUnit) : Decidable (s.Resolved unit) :=
  inferInstanceAs (Decidable (_ ∧ _))

def findReadyPlayUnits (s : TournamentState) : List PlayUnitId :=
  (s.playUnits.rows.filter fun unit =>
    ¬ s.Resulted unit.id ∧ ¬ s.Assigned unit.id ∧ s.Resolved unit).map PlayUnit.id

/-- `is_assignment_locked`: played, started or past. -/
def Locked (s : TournamentState) (id : PlayUnitId) (a : TournamentAssignment)
    (currentSlot : Int) : Prop :=
  s.Resulted id ∨ a.actualStartSlot.isSome ∨ a.slotId + a.durationSlots ≤ currentSlot

instance (s : TournamentState) (id : PlayUnitId) (a : TournamentAssignment) (currentSlot : Int) :
    Decidable (s.Locked id a currentSlot) :=
  inferInstanceAs (Decidable (_ ∨ _))

end TournamentState

def TournamentAssignment.finish (a : TournamentAssignment) : Int :=
  a.actualEndSlot.getD (a.slotId + a.durationSlots)

def advanceCurrentSlot (s : TournamentState) (baseCurrentSlot restBetweenRounds : Int) : Int :=
  match s.assignments.map fun p => p.2.finish with
  | [] => baseCurrentSlot
  | finish :: finishes => finishes.foldl max finish + max 0 restBetweenRounds

variable {s : TournamentState}

theorem finish_le_advance {id : PlayUnitId} {a : TournamentAssignment} (h : (id, a) ∈ s.assignments)
    (base rest : Int) : a.finish ≤ advanceCurrentSlot s base rest := by
  have mem : a.finish ∈ s.assignments.map fun p => p.2.finish := List.mem_map.mpr ⟨_, h, rfl⟩
  have le_fold : ∀ (l : List Int) (x y : Int), x ∈ l ∨ x ≤ y → x ≤ l.foldl max y := by
    intro l
    induction l with
    | nil =>
      intro x y hx
      simpa using hx
    | cons z l ih =>
      intro x y hx
      rw [List.foldl_cons]
      apply ih
      rcases hx with hx | hx
      · rcases List.mem_cons.mp hx with rfl | hx
        · exact .inr (le_max_right _ _)
        · exact .inl hx
      · exact .inr (hx.trans (le_max_left _ _))
  unfold advanceCurrentSlot
  cases e : s.assignments.map fun p => p.2.finish with
  | nil =>
    rw [e] at mem
    simp at mem
  | cons finish finishes =>
    rw [e] at mem
    have := le_fold finishes a.finish finish (by
      rcases List.mem_cons.mp mem with h | h
      · exact .inr (le_of_eq h)
      · exact .inl h)
    dsimp only
    omega

/-! ## The players of a problem -/

theorem mem_intersectWindows {windows : List (Int × Int)} {lo hi : Int} {w : Int × Int}
    (h : w ∈ intersectWindows windows lo hi) : lo ≤ w.1 ∧ w.2 ≤ hi := by
  obtain ⟨mem, -⟩ := List.mem_filter.mp h
  obtain ⟨x, -, rfl⟩ := List.mem_map.mp mem
  exact ⟨le_max_right _ _, min_le_right _ _⟩

section Players

variable {participants : Participants} {start stop : Int} {extras : Option Extras} {pid : String}

@[simp] theorem buildPlayer_id : (buildPlayer participants start stop extras pid).id = pid := by
  unfold buildPlayer
  dsimp only
  split <;> rfl

theorem buildPlayer_rests : (buildPlayer participants start stop extras pid).restIsHard = true ∧
    0 ≤ (buildPlayer participants start stop extras pid).restSlots := by
  unfold buildPlayer
  dsimp only
  split
  · exact ⟨rfl, (by omega : (0 : Int) ≤ 1)⟩
  · exact ⟨rfl, Int.natCast_nonneg _⟩

theorem buildPlayer_window (participants : Participants) (extras : Option Extras) (pid : String)
    (day : 0 ≤ start) (room : start < stop) :
    (buildPlayer participants start stop extras pid).availability ≠ [] ∧
      ∀ w ∈ (buildPlayer participants start stop extras pid).availability, start ≤ w.1 ∧ w.2 ≤ stop := by
  have window : (if start < 0 ∨ stop ≤ start then [] else [(start, stop)]) = [(start, stop)] :=
    if_neg (by omega)
  unfold buildPlayer
  dsimp only
  rw [window]
  split
  · simp
  · next windows rest _ =>
    dsimp only
    split
    · next clipped => exact ⟨clipped.2.2, fun w hw => mem_intersectWindows hw⟩
    · simp

end Players

/-! ## What is asked of the engine -/

/-- The request asks for exactly the ready units, each a match between two known sides, with
everybody on them a player of the round. -/
structure Poses (s : TournamentState) (participants : Participants) (ready : List PlayUnitId)
    (extras : Option Extras) (request : ScheduleRequest) : Prop where
  ids : ∀ id, request.scheduler.games.Has id ↔ id ∈ ready
  unit : ∀ id, ∀ m ∈ request.scheduler.games.get id, ∃ unit, s.playUnits.get id = some unit ∧
    m = unit.toMatch participants ∧ unit.sideA ≠ [] ∧ unit.sideB ≠ [] ∧ m.playerIds ≠ []
  player : ∀ id, ∀ m ∈ request.scheduler.games.get id, ∀ pid ∈ m.playerIds,
    request.scheduler.players.get pid = some (buildPlayer participants
      request.config.currentSlot request.config.totalSlots extras pid)
  locks : request.lockedAssignments = []

theorem buildMatch_eq_ok {participants : Participants} {id : PlayUnitId} {m : Match}
    (h : buildMatch s participants id = .ok m) : ∃ unit,
      s.playUnits.get id = some unit ∧ m = unit.toMatch participants ∧ m.id = id ∧
        unit.sideA ≠ [] ∧ unit.sideB ≠ [] ∧ m.playerIds ≠ [] := by
  unfold buildMatch at h
  split at h
  · cases h
  next unit hu =>
  split at h
  · cases h
  next sides =>
  dsimp only at h
  split at h
  · cases h
  next expanded =>
  cases h
  rw [not_or] at sides expanded
  refine ⟨unit, hu, rfl, (Table.key_of_get hu : unit.id = id), sides.1, sides.2, ?_⟩
  obtain ⟨pid, hp⟩ := List.exists_mem_of_ne_nil _ expanded.1
  exact List.ne_nil_of_mem (Match.mem_playerIds.mpr (.inl hp))

theorem get_ofRows_sorted {κ ρ : Type} [DecidableEq κ] {key : ρ → κ} {r : ρ → ρ → Prop}
    [DecidableRel r] {f : κ → Option ρ} {rows : List ρ} (h : ∀ x ∈ rows, f (key x) = some x) (k : κ) :
    (Table.ofRows (rows.insertionSort r) : Table key).get k =
      if k ∈ rows.map key then f k else none := by
  have perm := List.perm_insertionSort r rows
  rw [Table.ofRows, Table.get_foldl_put (fun x hx => h x (perm.mem_iff.mp hx)), Table.get_empty]
  exact if_congr (perm.map key).mem_iff rfl rfl

theorem buildProblem_eq_ok {participants : Participants} {ready : List PlayUnitId}
    {config : ScheduleConfig} {prevs : List PreviousAssignment} {extras : Option Extras}
    {request : ScheduleRequest}
    (h : buildProblem s participants ready config prevs extras = .ok request) :
    request.config = config ∧ request.previousAssignments = prevs ∧
      Poses s participants ready extras request := by
  unfold buildProblem at h
  split at h
  · cases h
  obtain ⟨games, hg, h⟩ := bind_eq_ok.mp h
  cases h
  refine ⟨rfl, rfl, ?_⟩
  have built : ∀ m ∈ games, m.id ∈ ready ∧ buildMatch s participants m.id = .ok m := by
    intro m hm
    obtain ⟨id, hid, ok⟩ := mapM_mem hg m hm
    obtain ⟨-, -, -, e, -⟩ := buildMatch_eq_ok ok
    exact ⟨e ▸ hid, e ▸ ok⟩
  have ids : ∀ id, id ∈ games.map Match.id ↔ id ∈ ready := by
    intro id
    rw [List.mem_map]
    constructor
    · rintro ⟨m, hm, rfl⟩
      exact (built m hm).1
    · intro hid
      obtain ⟨m, hm, ok⟩ := mapM_mem_of_mem hg id hid
      obtain ⟨-, -, -, e, -⟩ := buildMatch_eq_ok ok
      exact ⟨m, hm, e⟩
  have get : ∀ id, (Table.ofRows (games.insertionSort fun m n => m.id ≤ n.id) :
      Table Match.id).get id =
        if id ∈ games.map Match.id then (buildMatch s participants id).toOption else none := by
    refine get_ofRows_sorted (fun m hm => ?_)
    rw [(built m hm).2]
    rfl
  have found : ∀ {id m}, m ∈ (Table.ofRows (games.insertionSort fun m n => m.id ≤ n.id) :
      Table Match.id).get id → m ∈ games ∧ buildMatch s participants id = .ok m := by
    intro id m hm
    rw [get] at hm
    split at hm
    · next mem =>
      obtain ⟨m', hm', e⟩ := List.mem_map.mp mem
      have ok := (built m' hm').2
      rw [e] at ok
      rw [ok] at hm
      cases hm
      exact ⟨hm', ok⟩
    · cases hm
  constructor
  · intro id
    rw [← ids]
    show (Table.ofRows _ : Table Match.id).Has id ↔ _
    by_cases mem : id ∈ games.map Match.id
    · refine iff_of_true (not_not.mp fun not => ?_) mem
      rw [← Table.get_eq_none_iff, get, if_pos mem] at not
      obtain ⟨m, hm, rfl⟩ := List.mem_map.mp mem
      rw [(built m hm).2] at not
      cases not
    · refine iff_of_false (Table.get_eq_none_iff.mp ?_) mem
      rw [get, if_neg mem]
  · intro id m hm
    obtain ⟨unit, hu, e, -, sides⟩ := buildMatch_eq_ok (found hm).2
    exact ⟨unit, hu, e, sides⟩
  · intro id m hm pid hp
    show (Table.ofRows _ : Table Player.id).get pid = _
    unfold buildPlayers
    rw [get_ofRows_sorted (f := fun pid => some (buildPlayer participants config.currentSlot
      config.totalSlots extras pid)) (fun x hx => ?_), if_pos]
    · have mem : pid ∈ (games.flatMap fun m => m.sideA ++ m.sideB).dedup.insertionSort (· ≤ ·) := by
        rw [(List.perm_insertionSort _ _).mem_iff, List.mem_dedup, List.mem_flatMap]
        exact ⟨m, (found hm).1, List.mem_append.mpr (Match.mem_playerIds.mp hp)⟩
      rw [List.mem_map]
      exact ⟨_, List.mem_map_of_mem mem, buildPlayer_id⟩
    · obtain ⟨pid', -, rfl⟩ := List.mem_map.mp hx
      rw [buildPlayer_id]
  · rfl

end Brackets
