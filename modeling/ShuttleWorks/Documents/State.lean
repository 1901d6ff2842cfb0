import ShuttleWorks.Documents.Write

/-! `PUT /tournaments/{tournament_id}/state`: a whole document written over the stored one, under
the locks on its schedule and its roster, together with the operation that logs its roster. -/

namespace Documents
open Lib Competition Operations
open Sync (Uuid Env LocalOperation appendLocalOperation parseUuid pyStr pyStrip)

/-- What the routes take from their surroundings. -/
structure Host where
  env : Env
  reading : Reading
  platform : Entries.Platform
  /-- The identity of the node as it is configured. -/
  nodeId : String
  databaseUrl : String
  uuid5 : String → Uuid

/-! ## A write with its operation -/

section

variable (h : Host) (db : Database) (x : Fresh) (a : Ambient)

def withOperation (node : Uuid) (op : LocalOperation) (s : Store) :
    Except DocumentError (Unit × Store) :=
  match appendLocalOperation h.env s.live.sync a.actor s.tournamentId node op a.inputs with
  | .ok (_, sync) => .ok ((), { s with live := { s.live with sync := sync } })
  | .error e => .error (.live (.sync e))

/-- An operation to append, once the write it logs has answered. -/
abbrev Logging := Tournament → Except DocumentError (Uuid × LocalOperation)

def appendOperation (logging : Logging) (row : Tournament) : DocumentWork Unit := do
  let (node, op) ← Work.ofExcept (logging row)
  Work.edit (withOperation h a node op)
  Work.flush (db .operation)

/-- A write and its operation, if it has one, in the transaction of the request. -/
def stagedWrite (payload : JsonObject) (clearBracketAssignments : Bool)
    (expectedVersion : Option Nat) (logging : Option Logging) : DocumentWork Tournament := do
  let row ← commitTournamentState h.platform db x payload clearBracketAssignments expectedVersion
    false
  match logging with
  | none => pure ()
  | some logging => appendOperation h db a logging row
  Work.commit (db .requestCommit)
  pure row

end

/-! ## The request -/

structure StateRequest where
  state : TournamentStateDTO
  clearSchedule : Bool := false
  ifMatch : IfMatch
  /-- The id of the user, if it is a UUID. -/
  user : Option Uuid

def serverManagedStateFields : JsonObject := [("scheduleVersion", .int 0), ("scheduleHistory", .arr [])]

/-- The document a request asks for; the fields that the server manages come from the stored one. -/
def incomingState (prior : JsonObject) (q : StateRequest) : JsonObject :=
  serverManagedStateFields.foldl
    (fun incoming field => Assoc.set field.1 ((Assoc.get field.1 prior).getD field.2) incoming)
    (Assoc.erase "standings" q.state.members)

def assignmentsMember (key : String) (document : JsonObject) : Json :=
  ((objectMember key document).bind (Assoc.get "assignments")).getD .null

/-- A stored config is compared as the wire reads it, or as it is where it cannot be read. -/
def comparedConfig (r : Reading) (prior : JsonObject) : Option JsonObject :=
  (objectMember "config" prior).map (fun config => (r.readConfig config).getD config)

def changedFields (r : Reading) (prior : JsonObject) (incoming : JsonObject) : List String :=
  changedSchedulingFields (comparedConfig r prior) (objectMember "config" incoming)

/-- The committed schedules that a changed field would leave behind. -/
def lockedSchedules (prior incoming : JsonObject) : List String :=
  (if (assignmentsMember "schedule" prior).truthy ∧ (assignmentsMember "schedule" incoming).truthy
    then ["meet"] else []) ++
  if (assignmentsMember "bracket_session" prior).truthy then ["bracket"] else []

def startedDraws (s : Store) : List String :=
  (s.workspace.bracketEvents.rows.filter (fun e => e.status = "started")).map (·.id)

def rosterIds (document : JsonObject) : List Json :=
  (arrayMember "bracketPlayers" document).filterMap (fun row =>
    match row with
    | .obj player => (Assoc.get "id" player).filter Json.truthy
    | _ => none)

/-- The players that the drawn events refer to. -/
def referencedByGenerated (s : Store) : List String :=
  (s.workspace.participants.rows.filter (fun x =>
    ∃ e ∈ s.workspace.bracketEvents.rows, e.id = x.bracketEventId ∧ e.status ≠ "draft")).flatMap
    (fun x => x.id :: x.memberIds)

/-- The players who are drawn and would go. -/
def blockedPlayers (s : Store) (incoming : JsonObject) : List String :=
  ((referencedByGenerated s).filter (fun id =>
    Json.str id ∈ rosterIds s.data ∧ Json.str id ∉ rosterIds incoming)).dedup.insertionSort (· ≤ ·)

def http {α : Type} (statusCode : Nat) (code message : String) : Except DocumentError α :=
  .error (.http statusCode code message)

/-- The version that the caller was shown must be the current one. -/
def checkVersion (s : Store) (ifMatch : IfMatch) : Except DocumentError Unit :=
  match ifMatch with
  | .missing => http 412 "STATE_VERSION_REQUIRED"
      "If-Match is required on this write. Send the ETag from the last GET or write response."
  | .unreadable raw => http 412 "STATE_VERSION_REQUIRED" ("malformed If-Match value: " ++ raw)
  | .version seen =>
    if seen = s.stateVersion then .ok ()
    else http 409 "STATE_VERSION_CONFLICT"
      ("This workspace changed since you loaded it. Your copy is out of date; reload to see " ++
        "the current state before saving again.")

/-- The document to write, and whether the bracket's assignments are cleared. -/
def preparedState (r : Reading) (s : Store) (q : StateRequest) :
    Except DocumentError (JsonObject × Bool) := do
  checkVersion s q.ifMatch
  let incoming := incomingState s.data q
  let fields := changedFields r s.data incoming
  let locked := lockedSchedules s.data incoming
  if fields ≠ [] ∧ locked ≠ [] ∧ q.clearSchedule = false then
    http 409 "CONFIG_LOCKED" ("Schedule locked: " ++ ", ".intercalate fields ++
      " cannot change while a committed schedule exists. Retry with ?clearSchedule=true to " ++
      "clear it and apply the edit.")
  let clearing := q.clearSchedule = true ∧ fields ≠ []
  let drawn := (assignmentsMember "bracket_session" s.data).truthy
  if clearing ∧ drawn ∧ startedDraws s ≠ [] then
    http 409 "DRAW_STARTED" ("Draws in play cannot have their schedule cleared: " ++
      ", ".intercalate (startedDraws s) ++ ". Finish or reset those draws first.")
  let incoming :=
    if clearing then Assoc.merge incoming [("schedule", .null), ("scheduleIsStale", .bool false)]
    else incoming
  match (arrayMember "bracketPlayers" s.data).findSome? (memberKeyError false "id") with
  | some e => .error e
  | none => .ok ()
  let blocked := blockedPlayers s incoming
  if blocked ≠ [] then
    http 409 "ROSTER_LOCKED" ("These players are placed in a generated draw and cannot be " ++
      "removed: " ++ ", ".intercalate (blocked.take 5) ++
      (if blocked.length > 5 then " …" else "") ++ ". Re-generate or reset the draw first.")
  .ok (incoming, clearing ∧ drawn)

/-! ## The operation of a changed roster -/

def rosterKeys : List String := ["players", "bracketPlayers"]

def rosterChanged (prior incoming : JsonObject) : Prop :=
  ∃ key ∈ rosterKeys, ¬ Json.same ((Assoc.get key prior).getD (.arr []))
    ((Assoc.get key incoming).getD (.arr [])) = true

instance (prior incoming : JsonObject) : Decidable (rosterChanged prior incoming) :=
  inferInstanceAs (Decidable (∃ key ∈ rosterKeys, _))

section

variable (h : Host)

/-- The rows of a roster by the texts of their ids. -/
def identities (rows : List Json) : List (String × Json) :=
  rows.foldl (fun acc row =>
    match row with
    | .obj player =>
      match Assoc.get "id" player with
      | none | some .null => acc
      | some id => Assoc.set (pyStr h.env id) row acc
    | _ => acc) []

def rosterChange (action key : String) (id : String) : Json :=
  .obj [("action", .str action), ("roster", .str key), ("playerId", .str id)]

/-- The players that come, go and change, one list after the other. -/
def rosterChanges (prior incoming : JsonObject) (key : String) : List Json :=
  let before := identities h (arrayMember key prior)
  let after := identities h (arrayMember key incoming)
  let sorted (ids : List String) := ids.insertionSort (· ≤ ·)
  (sorted ((Assoc.keys after).filter (fun id => id ∉ Assoc.keys before))).map
      (rosterChange "add" key) ++
    (sorted ((Assoc.keys before).filter (fun id => id ∉ Assoc.keys after))).map
      (rosterChange "withdraw" key) ++
    (sorted ((Assoc.keys before).filter (fun id => id ∈ Assoc.keys after ∧
      ¬ sameMember id before after))).map (rosterChange "correct" key)

/-- `value or []`. -/
def orEmpty (value : Option Json) : Json := (value.filter Json.truthy).getD (.arr [])

def rosterOperation (prior incoming : JsonObject) (seen : Nat) (tournamentId actor : Uuid)
    (row : Tournament) : LocalOperation where
  actorId := actor
  commandType := "roster.replace.v1"
  aggregateType := "tournament_roster"
  aggregateId := tournamentId
  payload := [("players", orEmpty (Assoc.get "players" incoming)),
    ("bracketPlayers", orEmpty (Assoc.get "bracketPlayers" incoming)),
    ("changes", .arr (rosterKeys.flatMap (rosterChanges h prior incoming))),
    ("resultingStateVersion", .int row.stateVersion)]
  expectedVersion := some seen

def rosterNode : Uuid :=
  (parseUuid h.nodeId).getD (h.uuid5 ("shuttleworks:event-node:" ++ h.databaseUrl))

/-- A changed roster is logged everywhere but in the cloud. -/
def rosterLogging (s : Store) (incoming : JsonObject) (q : StateRequest) : Option Logging :=
  if h.env.deploymentProfile ≠ "cloud" ∧ rosterChanged s.data incoming then
    some (fun row =>
      match q.user with
      | none => .error (.live (.value "authenticated user id is not a UUID"))
      | some actor => .ok (rosterNode h,
          rosterOperation h s.data incoming s.stateVersion s.tournamentId actor row))
  else none

def putTournamentState (db : Database) (x : Fresh) (a : Ambient) (q : StateRequest) :
    DocumentWork Tournament := do
  let s ← Work.read
  let (incoming, clearBracket) ← Work.ofExcept (preparedState h.reading s q)
  stagedWrite h db x a incoming clearBracket (some s.stateVersion) (rosterLogging h s incoming q)

end

end Documents
