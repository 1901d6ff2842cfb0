import ShuttleWorks.Operations.MatchStateApplication

/-! The idempotent operator commands. A rejection is stored and raised, so a
command answers with the store it leaves behind either way. -/

namespace Operations
open Lib Sync

inductive MatchAction
  | callToCourt
  | startMatch
  | finishMatch
  | retireMatch
  | uncall
  | assignCourt
  | postponeMatch
  | resolveCourt
  deriving DecidableEq

def MatchAction.value : MatchAction → String
  | .callToCourt => "call_to_court"
  | .startMatch => "start_match"
  | .finishMatch => "finish_match"
  | .retireMatch => "retire_match"
  | .uncall => "uncall"
  | .assignCourt => "assign_court"
  | .postponeMatch => "postpone_match"
  | .resolveCourt => "resolve_court"

/-- `ACTION_TO_TARGET_STATUS`; the entry of `resolveCourt` is never read. -/
def MatchAction.targetStatus : MatchAction → MatchStatus
  | .callToCourt => .called
  | .startMatch => .playing
  | .finishMatch => .finished
  | .retireMatch => .retired
  | .uncall => .scheduled
  | .assignCourt => .scheduled
  | .postponeMatch => .scheduled
  | .resolveCourt => .playing

structure CommandRequest where
  id : Uuid
  matchId : Bounded 1 100
  action : MatchAction
  payload : Option JsonObject
  seenVersion : Nat
  deriving DecidableEq

structure ProcessedCommand where
  matchRow : Match
  command : Command
  isReplay : Bool
  deriving DecidableEq

/-- The reason stored with a rejected command, and the conflict raised. -/
abbrev Rejection := String × ConflictError

def reject {α : Type} (reason : String) (e : ConflictError) : Except Rejection α :=
  .error (reason, e)

section
variable (c : Settings) (x : Ambient) (tournamentId submittedBy : Uuid) (r : CommandRequest)

/-! ## Command rows -/

/-- The row of a command, before it is stamped. -/
def commandRow (existing : Option Command) : Command :=
  match existing with
  | none =>
    { id := r.id, tournamentId := tournamentId, matchId := r.matchId.val, action := r.action.value
      payload := r.payload, submittedBy := submittedBy }
  | some row =>
    { row with action := r.action.value, payload := r.payload, submittedBy := submittedBy }

/-- A command row refers to a row of `matches`. -/
def putCommand (s : LiveStore) (row : Command) : Except LiveError LiveStore :=
  if s.matchRows.Has (row.tournamentId, row.matchId) then
    .ok { s with commands := s.commands.put row }
  else .error (.sync (integrityError c.env "commands_tournament_id_match_id_fkey"))

def stampRejection (s : LiveStore) (existing : Option Command) (reason : String) :
    Except LiveError LiveStore :=
  putCommand c s
    { commandRow tournamentId submittedBy r existing with
      appliedAt := none, rejectedAt := some x.inputs.now, rejectionReason := some reason }

def appliedCommand (existing : Option Command) : Command :=
  { commandRow tournamentId submittedBy r existing with
    appliedAt := some x.inputs.now, rejectedAt := none, rejectionReason := none }

/-- The outcome of a command seen before; `none` for a fresh one. -/
def replayExistingCommand (s : LiveStore) (existing : Option Command) :
    Option (Except LiveError ProcessedCommand) :=
  match existing with
  | none => none
  | some row =>
    if row.appliedAt ≠ none then
      match s.matchRows.get (tournamentId, r.matchId.val) with
      | some m => some (.ok ⟨m, row, true⟩)
      | none => some (conflict
          { matchId := r.matchId.val
            message := "Match " ++ r.matchId.val ++
              " no longer exists; the schedule may have been regenerated." })
    else if row.rejectedAt ≠ none then
      some (conflict
        { matchId := r.matchId.val
          message := row.rejectionReason.getD "Command was previously rejected." })
    else none

/-! ## Checks -/

def validateCommandMatch (m : Option Match) : Except Rejection Match :=
  match m with
  | none => reject "match_not_found"
      { matchId := r.matchId.val
        message := "Match " ++ r.matchId.val ++ " not found in tournament " ++ tournamentId ++ "." }
  | some m =>
    if m.version ≠ r.seenVersion then
      reject "stale_version"
        { matchId := r.matchId.val
          message := "Match was updated since you last loaded it. Reload and retry."
          currentVersion := some m.version
          seenVersion := some r.seenVersion }
    else .ok m

def ofConflict (check : Except LiveError Unit) : Except Rejection Unit :=
  match check with
  | .error (.conflict e) => reject e.message e
  | _ => .ok ()

/-- The sides of a match that its tournament document leaves open. -/
def missingSides (s : LiveStore) : List String :=
  match (Assoc.get tournamentId s.documents).bind (Assoc.get "matches") with
  | some (.arr sources) =>
    let source := sources.find? (fun j =>
      match j with
      | .obj candidate => Assoc.get "id" candidate = some (.str r.matchId.val)
      | _ => false)
    match source with
    | some (.obj candidate) =>
      [("Side A", "sideA"), ("Side B", "sideB")].filterMap (fun p =>
        match Assoc.get p.2 candidate with
        | some (.arr (_ :: _)) => none
        | _ => some p.1)
    | _ => []
  | _ => []

def validateConcreteMatchSides (s : LiveStore) (m : Match) : Except Rejection Unit :=
  if r.action ∈ [.assignCourt, .callToCourt, .startMatch, .finishMatch] then
    let missing := missingSides tournamentId r s
    if missing.isEmpty then .ok ()
    else
      let reason := "Cannot " ++ r.action.value.replace "_" " " ++
        ": both participants must be known. Unresolved: " ++ ", ".intercalate missing ++ "."
      reject reason
        { matchId := r.matchId.val
          message := reason
          currentStatus := some m.status
          attemptedStatus := some m.status }
  else .ok ()

def validateAssignCourt (m : Match) : Except Rejection Unit :=
  if r.action ≠ .assignCourt then .ok ()
  else if m.status ≠ .scheduled then
    let reason := "assign_court is only valid on scheduled matches"
    reject reason
      { matchId := r.matchId.val
        message := reason
        currentStatus := some m.status
        attemptedStatus := some .scheduled }
  else
    let payload := r.payload.getD []
    if Assoc.get "court_id" payload = none ∨ Assoc.get "time_slot" payload = none then
      let reason := "assign_court requires both court_id and time_slot in payload"
      reject reason { matchId := r.matchId.val, message := reason }
    else .ok ()

def validateCommandTransition (m : Match) : Except Rejection Unit :=
  if r.action ∈ [.assignCourt, .postponeMatch] ∧ m.status = r.action.targetStatus then .ok ()
  else ofConflict (assertValidTransition r.matchId.val m.status r.action.targetStatus)

/-- Every check of a fresh command, in order. -/
def validateCommand (s : LiveStore) : Except Rejection Match := do
  let m ← validateCommandMatch tournamentId r (s.matchRows.get (tournamentId, r.matchId.val))
  ofConflict (s.assertCourtAvailable tournamentId r.matchId.val r.action.targetStatus)
  validateConcreteMatchSides tournamentId r s m
  validateAssignCourt r m
  validateCommandTransition r m
  .ok m

/-! ## Applying a command -/

def columnInt : Json → Except LiveError (Option Int)
  | .null => .ok none
  | .int n => .ok (some n)
  | j => .error (.sync (.exception "StatementError" ("'" ++ pyType j ++ "' is not an integer")))

def applyCommandMutation (m : Match) : Except LiveError Match := do
  let status ← transitionMatch m.id m.machineVersion m.status r.action.targetStatus
  let m := { m with status := status, version := m.version + 1 }
  match r.action with
  | .assignCourt =>
    let courtId ← columnInt (getD "court_id" .null (r.payload.getD []))
    let timeSlot ← columnInt (getD "time_slot" .null (r.payload.getD []))
    .ok { m with courtId := courtId, timeSlot := timeSlot }
  | .postponeMatch => .ok { m with courtId := none, timeSlot := none }
  | _ => .ok m

/-- The operation a command is logged as. -/
def commandOperation (m : Match) : LocalOperation where
  actorId := submittedBy
  commandType := "match.command.v1"
  aggregateType := "match"
  aggregateId := r.matchId.val
  payload := [("action", .str r.action.value), ("payload", .obj (r.payload.getD [])),
    ("commandId", .str r.id), ("status", .str m.status.value), ("version", .int m.version)]
  expectedVersion := some r.seenVersion
  operationId := some r.id

/-- The writes of an accepted command, in one transaction with its operation. -/
def applyCommandTo (s : LiveStore) (existing : Option Command) (m : Match) :
    Except LiveError (ProcessedCommand × LiveStore) := do
  let m ← applyCommandMutation r m
  let s := { s with matchRows := s.matchRows.put m }
  let s := s.mirrorCommandState tournamentId r.matchId.val r.action.targetStatus x.inputs.now
  let row := appliedCommand x tournamentId submittedBy r existing
  let s ← putCommand c s row
  let s ← appendIfEventNode c s x tournamentId (commandOperation submittedBy r m) "commands"
  .ok (⟨m, row, false⟩, s)

/-- Store a rejection and raise it. -/
def rejected (s : LiveStore) (existing : Option Command) (e : Rejection) :
    LiveStore × Except LiveError ProcessedCommand :=
  match stampRejection c x tournamentId submittedBy r s existing e.1 with
  | .ok s' => (s', conflict e.2)
  | .error e' => (s, .error e')

def committedCommand (s : LiveStore) : Except LiveError (ProcessedCommand × LiveStore) →
    LiveStore × Except LiveError ProcessedCommand
  | .ok (p, s') => (s', .ok p)
  | .error e => (s, .error e)

/-- Process one operator command atomically. -/
def processCommand (s : LiveStore) : LiveStore × Except LiveError ProcessedCommand :=
  let existing := s.commands.get r.id
  match replayExistingCommand tournamentId r s existing with
  | some outcome => (s, outcome)
  | none =>
    match validateCommand tournamentId r s with
    | .error e => rejected c x tournamentId submittedBy r s existing e
    | .ok m => committedCommand s (applyCommandTo c x tournamentId submittedBy r s existing m)

/-! ## Resolving a court -/

inductive ResolutionAction
  | keepAndMove
  | keepAndUnassign
  | keepAndFinish
  deriving DecidableEq

/-- `_RESOLVE_COURT_ACTIONS`. -/
def resolutionAction : String → Option ResolutionAction
  | "keep_and_move" => some .keepAndMove
  | "keep_and_unassign" => some .keepAndUnassign
  | "keep_and_finish" => some .keepAndFinish
  | _ => none

/-- Mutate one displaced match; the transition guard is bypassed deliberately. -/
def applyResolutionToDisplaced (action : ResolutionAction) (m : Match) : Match :=
  match action with
  | .keepAndUnassign =>
    { m with courtId := none, timeSlot := none, status := .scheduled, version := m.version + 1 }
  | .keepAndFinish => { m with status := .finished, version := m.version + 1 }
  | .keepAndMove =>
    { m with
      courtId := none
      status := if m.status = .playing then .called else m.status
      version := m.version + 1 }

def resolutionReason : String :=
  "resolve_court requires a non-empty displacedMatchKeys list and an action of keep_and_move, " ++
    "keep_and_unassign or keep_and_finish"

/-- The action and the displaced keys of a payload, if they are of the right shape. -/
def resolution (payload : JsonObject) : Except Rejection (ResolutionAction × List Json) :=
  let malformed : Except Rejection (ResolutionAction × List Json) :=
    reject resolutionReason { matchId := r.matchId.val, message := resolutionReason }
  match Assoc.get "action" payload, Assoc.get "displacedMatchKeys" payload with
  | some (.str action), some (.arr (key :: keys)) =>
    match resolutionAction action with
    | some a => .ok (a, key :: keys)
    | none => malformed
  | _, _ => malformed

/-- A displaced match that is gone is skipped; a key that is no text names none. -/
def displace (action : ResolutionAction) (s : LiveStore) (key : Json) :
    Except LiveError LiveStore :=
  match key with
  | .str id =>
    match s.matchRows.get (tournamentId, id) with
    | none => .ok s
    | some m =>
      let m := applyResolutionToDisplaced action m
      let s := { s with matchRows := s.matchRows.put m }
      .ok (s.mirrorCommandState tournamentId id m.status x.inputs.now)
  | .arr _ => .error (.sync (.exception "TypeError" "unhashable type: 'list'"))
  | .obj _ => .error (.sync (.exception "TypeError" "unhashable type: 'dict'"))
  | _ => .ok s

/-- The checks of a fresh resolution. -/
def validateResolution (s : LiveStore) :
    Except Rejection (Match × ResolutionAction × List Json) := do
  let chosen ← validateCommandMatch tournamentId r (s.matchRows.get (tournamentId, r.matchId.val))
  let (action, keys) ← resolution r (r.payload.getD [])
  .ok (chosen, action, keys)

/-- The matches that get their first state row, as often as they are listed. -/
def firstStates (s : LiveStore) (keys : List Json) : List String :=
  keys.filterMap fun
    | .str id =>
      if (s.matchRows.get (tournamentId, id)).isSome ∧
          (s.matchStates.get (tournamentId, id)).isNone then some id else none
    | _ => none

/-- A first row is not flushed before the next lookup, so a match listed twice gets two. -/
def displaceAll (action : ResolutionAction) (keys : List Json) (s : LiveStore) :
    Except LiveError LiveStore := do
  let displaced ← keys.foldlM (displace x tournamentId action) s
  if (firstStates tournamentId s keys).Nodup then .ok displaced
  else .error (.sync (integrityError c.env "match_states_pkey"))

/-- The writes of an accepted resolution. No operation is appended. -/
def applyResolution (s : LiveStore) (existing : Option Command) (chosen : Match)
    (action : ResolutionAction) (keys : List Json) :
    Except LiveError (ProcessedCommand × LiveStore) := do
  let s ← displaceAll c x tournamentId action keys s
  let row := appliedCommand x tournamentId submittedBy r existing
  let s ← putCommand c s row
  .ok (⟨(s.matchRows.get (tournamentId, r.matchId.val)).getD chosen, row, false⟩, s)

/-- An action that is a list or an object cannot be looked up; that is no rejection. -/
def refusedResolution (s : LiveStore) (existing : Option Command) (e : Rejection) :
    LiveStore × Except LiveError ProcessedCommand :=
  let chosen := validateCommandMatch tournamentId r (s.matchRows.get (tournamentId, r.matchId.val))
  match chosen, Assoc.get "action" (r.payload.getD []) with
  | .ok _, some (.arr _) => (s, .error (.sync (.exception "TypeError" "unhashable type: 'list'")))
  | .ok _, some (.obj _) => (s, .error (.sync (.exception "TypeError" "unhashable type: 'dict'")))
  | _, _ => rejected c x tournamentId submittedBy r s existing e

/-- Persist the resolution of a court dispute. -/
def processResolveCourtCommand (s : LiveStore) :
    LiveStore × Except LiveError ProcessedCommand :=
  let existing := s.commands.get r.id
  match replayExistingCommand tournamentId r s existing with
  | some outcome => (s, outcome)
  | none =>
    match validateResolution tournamentId r s with
    | .error e => refusedResolution c x tournamentId submittedBy r s existing e
    | .ok (chosen, action, keys) =>
      committedCommand s (applyResolution c x tournamentId submittedBy r s existing chosen action keys)

def payloadTruthy (key : String) : Bool :=
  ((Assoc.get key (r.payload.getD [])).map Json.truthy).getD false

end

/-- `POST /tournaments/{tournament_id}/commands`. -/
def submitCommand (c : Settings) (x : Ambient) (tournamentId : Uuid) (s : LiveStore)
    (user : Option Uuid) (r : CommandRequest) : LiveStore × Except LiveError ProcessedCommand :=
  match user with
  | none => (s, .error (.http 422 "INVALID_INPUT"
      "current user id is not a UUID; cannot stamp command audit row"))
  | some submittedBy =>
    if r.action = .resolveCourt then
      if payloadTruthy r "displacedMatchKeys" ∧ payloadTruthy r "action" then
        processResolveCourtCommand c x tournamentId submittedBy r s
      else (s, .error (.http 422 "INVALID_INPUT"
        "resolve_court requires payload.displacedMatchKeys (non-empty list) and payload.action"))
    else processCommand c x tournamentId submittedBy r s

/-! ## How a command ends -/

section
variable {c : Settings} {x : Ambient} {t submittedBy : Uuid} {r : CommandRequest} {s s' : LiveStore}
  {P : LiveStore × Except LiveError ProcessedCommand → Prop}

/-- It is answered from its row, fails, has its rejection stored, or is applied. -/
theorem processCommand_ends
    (answered : ∀ answer, replayExistingCommand t r s (s.commands.get r.id) = some answer →
      P (s, answer))
    (failed : ∀ e, replayExistingCommand t r s (s.commands.get r.id) = none → P (s, .error e))
    (refused : ∀ e, replayExistingCommand t r s (s.commands.get r.id) = none →
      P (rejected c x t submittedBy r s (s.commands.get r.id) e))
    (applied : ∀ m p s', replayExistingCommand t r s (s.commands.get r.id) = none →
      validateCommand t r s = .ok m →
      applyCommandTo c x t submittedBy r s (s.commands.get r.id) m = .ok (p, s') → P (s', .ok p)) :
    P (processCommand c x t submittedBy r s) := by
  unfold processCommand
  dsimp only
  split
  · next answer replay => exact answered answer replay
  · next fresh =>
    split
    · next e invalid => exact refused e fresh
    · next m valid =>
      cases done : applyCommandTo c x t submittedBy r s (s.commands.get r.id) m with
      | error e => exact failed e fresh
      | ok result => exact applied m result.1 result.2 fresh valid done

theorem displaceAll_eq_ok {action : ResolutionAction} {keys : List Json}
    (h : displaceAll c x t action keys s = .ok s') :
    keys.foldlM (displace x t action) s = .ok s' := by
  unfold displaceAll at h
  rw [bind_eq_ok] at h
  obtain ⟨displaced, folded, h⟩ := h
  split at h
  · cases h
    exact folded
  · cases h

theorem processResolveCourtCommand_ends
    (answered : ∀ answer, replayExistingCommand t r s (s.commands.get r.id) = some answer →
      P (s, answer))
    (failed : ∀ e, replayExistingCommand t r s (s.commands.get r.id) = none → P (s, .error e))
    (refused : ∀ e, replayExistingCommand t r s (s.commands.get r.id) = none →
      P (rejected c x t submittedBy r s (s.commands.get r.id) e))
    (applied : ∀ chosen action keys s₁ s₂ m,
      replayExistingCommand t r s (s.commands.get r.id) = none →
      validateResolution t r s = .ok (chosen, action, keys) →
      keys.foldlM (displace x t action) s = .ok s₁ →
      putCommand c s₁ (appliedCommand x t submittedBy r (s.commands.get r.id)) = .ok s₂ →
      P (s₂, .ok ⟨m, appliedCommand x t submittedBy r (s.commands.get r.id), false⟩)) :
    P (processResolveCourtCommand c x t submittedBy r s) := by
  unfold processResolveCourtCommand
  dsimp only
  split
  · next answer replay => exact answered answer replay
  · next fresh =>
    split
    · next e invalid =>
      unfold refusedResolution
      dsimp only
      split
      · exact failed _ fresh
      · exact failed _ fresh
      · exact refused e fresh
    · next chosen action keys valid =>
      cases done : applyResolution c x t submittedBy r s (s.commands.get r.id) chosen action keys with
      | error e => exact failed e fresh
      | ok result =>
        unfold applyResolution at done
        simp only [bind_eq_ok] at done
        obtain ⟨s₁, displaced, s₂, stored, done⟩ := done
        cases done
        exact applied chosen action keys s₁ s₂ _ fresh valid (displaceAll_eq_ok displaced) stored

end

end Operations
