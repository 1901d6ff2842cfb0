import ShuttleWorks.Sync.Schemas

/-! Match statuses: their canonical and wire spellings, the machine whose
transitions a live write must follow, and the rule of one playing match a court. -/

namespace Operations
open Lib Sync

inductive MatchStatus
  | scheduled
  | called
  | playing
  | finished
  | retired
  deriving DecidableEq

def MatchStatus.value : MatchStatus → String
  | .scheduled => "scheduled"
  | .called => "called"
  | .playing => "playing"
  | .finished => "finished"
  | .retired => "retired"

/-- The legacy spellings on the wire and in `match_states`. -/
inductive WireStatus
  | scheduled
  | called
  | started
  | finished
  | retired
  deriving DecidableEq

def WireStatus.text : WireStatus → String
  | .scheduled => "scheduled"
  | .called => "called"
  | .started => "started"
  | .finished => "finished"
  | .retired => "retired"

def canonicalToLegacy : MatchStatus → WireStatus
  | .scheduled => .scheduled
  | .called => .called
  | .playing => .started
  | .finished => .finished
  | .retired => .retired

/-- `LEGACY_TO_CANONICAL`, total on what a validated document can hold. -/
def WireStatus.canonical : WireStatus → MatchStatus
  | .scheduled => .scheduled
  | .called => .called
  | .started => .playing
  | .finished => .finished
  | .retired => .retired

@[simp] theorem canonical_canonicalToLegacy (s : MatchStatus) :
    (canonicalToLegacy s).canonical = s := by
  cases s <;> rfl

def canonicalStatuses : List MatchStatus := [.scheduled, .called, .playing, .finished, .retired]

def legacyToCanonical (value : String) : Option MatchStatus :=
  (canonicalStatuses.find? (fun s => (canonicalToLegacy s).text = value)).or
    (canonicalStatuses.find? (fun s => s.value = value))

@[simp] theorem legacyToCanonical_text (w : WireStatus) :
    legacyToCanonical w.text = some w.canonical := by
  cases w <;> decide

@[simp] theorem legacyToCanonical_value (s : MatchStatus) : legacyToCanonical s.value = some s := by
  cases s <;> decide

/-! ## Errors -/

structure ConflictError where
  matchId : String
  message : String
  currentStatus : Option MatchStatus := none
  attemptedStatus : Option MatchStatus := none
  currentVersion : Option Nat := none
  seenVersion : Option Nat := none
  deriving DecidableEq

/-- What a live write can raise. -/
inductive LiveError
  | conflict (e : ConflictError)
  | preconditionFailed (matchId message : String)
  | transition (code message : String)
  | value (message : String)
  | http (statusCode : Nat) (code message : String)
  | sync (e : Raised)
  deriving DecidableEq

def conflict {α : Type} (e : ConflictError) : Except LiveError α := .error (.conflict e)

/-! ## The machine -/

structure Transition where
  event : String
  fromStates : List MatchStatus
  target : MatchStatus
  actor : String := "operator"

structure Machine where
  name : String
  version : Nat
  transitions : List Transition

/-- `MATCH`. -/
def matchMachine : Machine where
  name := "match"
  version := 1
  transitions :=
    [ ⟨"call", [.scheduled], .called, "operator"⟩,
      ⟨"start", [.called], .playing, "operator"⟩,
      ⟨"record", [.playing], .finished, "operator"⟩,
      ⟨"retire", [.playing], .retired, "operator"⟩,
      ⟨"postpone", [.called, .playing], .scheduled, "operator"⟩,
      ⟨"undo_finish", [.finished], .playing, "operator"⟩ ]

def Machine.targets (m : Machine) (current : MatchStatus) : List MatchStatus :=
  (m.transitions.filter (fun t => current ∈ t.fromStates)).map Transition.target

/-- The one transition of an event from a state. -/
def Machine.edge (m : Machine) (current : MatchStatus) (event : String) :
    Except LiveError Transition :=
  match m.transitions.filter (fun t => current ∈ t.fromStates ∧ t.event = event) with
  | [t] => .ok t
  | _ => .error (.transition "INVALID_TRANSITION"
      ("Cannot " ++ event ++ " " ++ m.name ++ " from '" ++ current.value ++ "'"))

/-- Validate an event and give the state it leads to; no transition of the match
machine has a guard. -/
def Machine.apply (m : Machine) (version : Nat) (current : MatchStatus) (event actor : String) :
    Except LiveError MatchStatus := do
  if version ≠ m.version then
    .error (.transition "MACHINE_VERSION_MISMATCH"
      ("Unsupported " ++ m.name ++ " graph version " ++ toString version))
  else
    let transition ← m.edge current event
    if transition.actor ≠ actor then
      .error (.transition "ACTOR_NOT_ALLOWED"
        ("Only " ++ transition.actor ++ " may " ++ event ++ " " ++ m.name))
    else .ok transition.target

/-- A transition to the same state is not valid. -/
def assertValidTransition (matchId : String) (current next : MatchStatus) : Except LiveError Unit :=
  if next ∈ matchMachine.targets current then .ok ()
  else conflict
    { matchId := matchId
      message := "Cannot transition match " ++ matchId ++ " from '" ++ current.value ++ "' to '" ++
        next.value ++ "'"
      currentStatus := some current
      attemptedStatus := some next }

/-- The status a row has after a transition; a row already there is left alone. -/
def transitionMatch (matchId : String) (machineVersion : Nat) (current target : MatchStatus) :
    Except LiveError MatchStatus := do
  if current = target then .ok current
  else
    assertValidTransition matchId current target
    match matchMachine.transitions.find? (fun t => current ∈ t.fromStates ∧ t.target = target) with
    | some t => matchMachine.apply machineVersion current t.event "operator"
    | none => .error (.sync (.exception "StopIteration" ""))

variable {version : Nat} {current s : MatchStatus}

theorem Machine.apply_eq_ok {m : Machine} {event actor : String}
    (h : m.apply version current event actor = .ok s) :
    ∃ t ∈ m.transitions, t.event = event ∧ t.target = s := by
  unfold Machine.apply at h
  split at h
  · cases h
  · rw [bind_eq_ok] at h
    obtain ⟨t, edge, h⟩ := h
    unfold Machine.edge at edge
    split at edge
    · next only =>
      cases edge
      have mem := only ▸ List.mem_singleton_self t
      simp only [List.mem_filter, decide_eq_true_eq] at mem
      split at h <;> cases h
      exact ⟨t, mem.1, mem.2.2, rfl⟩
    · cases edge

theorem matchMachine_events : ∀ t ∈ matchMachine.transitions, ∀ u ∈ matchMachine.transitions,
    t.event = u.event → t.target = u.target := by
  decide

theorem transitionMatch_eq_ok {matchId : String} {target : MatchStatus}
    (h : transitionMatch matchId version current target = .ok s) : s = target := by
  unfold transitionMatch at h
  split at h
  · next same => cases h; exact same
  · rw [bind_eq_ok] at h
    obtain ⟨_, -, h⟩ := h
    split at h
    · next t chosen =>
      obtain ⟨u, hu, event, rfl⟩ := Machine.apply_eq_ok h
      have reaches := List.find?_some chosen
      simp only [decide_eq_true_eq] at reaches
      exact (matchMachine_events u hu t (List.mem_of_find?_eq_some chosen) event).trans reaches.2
    · cases h

/-! ## One playing match a court -/

def occupiesCourtNow (status : MatchStatus) : Bool := status = .playing

inductive CourtState
  | free
  | occupied
  | disputed
  deriving DecidableEq

/-- What the occupancy rule reads of a match. -/
structure OccupancyMatch where
  id : String
  status : MatchStatus
  courtId : Option Int
  deriving DecidableEq

/-- The state of a court; a court that no match claims is free. -/
def deriveCourtStates (ms : List OccupancyMatch) (courtId : Int) : CourtState :=
  match ms.filter (fun m => occupiesCourtNow m.status ∧ m.courtId = some courtId) with
  | [] => .free
  | [_] => .occupied
  | _ => .disputed

end Operations
