import ShuttleWorks.Documents.State

/-! Schedule proposals: how a reviewed schedule is written over the committed one, and how an
event node logs it. -/

namespace Documents
open Lib Competition Operations
open Sync (Uuid LocalOperation parseUuid pyStrip)

def scheduleCommitCommand : String := "meet.schedule.commit.v1"

def historyCap : Nat := 5

/-- What `ScheduleCommitApplication.apply` is given. -/
structure ScheduleCommit where
  state : TournamentStateDTO
  newSchedule : JsonObject
  historyEntry : JsonObject
  newConfig : Option JsonObject := none
  proposalId : Option String := none
  actorId : Option Uuid := none
  freshId : Uuid

def TournamentStateDTO.scheduleVersion (state : TournamentStateDTO) : Int :=
  match state.get "scheduleVersion" with
  | .int n => n
  | _ => 0

def TournamentStateDTO.scheduleHistory (state : TournamentStateDTO) : List Json :=
  arrayMember "scheduleHistory" state.members

namespace ScheduleCommit

variable (h : Host) (q : ScheduleCommit)

def operationId : Uuid :=
  match q.proposalId with
  | none => q.freshId
  | some id =>
    if id = "" then q.freshId
    else (parseUuid id).getD (h.uuid5 ("shuttleworks:schedule:" ++ id))

def newHistory : List Json :=
  let entries := q.state.scheduleHistory ++ [.obj q.historyEntry]
  entries.drop (entries.length - historyCap)

def updated : TournamentStateDTO :=
  q.state.update
    ([("schedule", .obj q.newSchedule), ("scheduleVersion", .int (q.state.scheduleVersion + 1)),
      ("scheduleHistory", .arr q.newHistory), ("scheduleIsStale", .bool false)] ++
    (q.newConfig.map (fun config => ("config", Json.obj config))).toList)

def commitPayload : JsonObject :=
  [("proposalId", jsonText q.proposalId), ("scheduleVersion", q.updated.get "scheduleVersion"),
    ("schedule", .obj q.newSchedule), ("config", q.updated.get "config"),
    ("historyEntry", .obj q.historyEntry)]

def nodeId : Except DocumentError Uuid :=
  let raw := pyStrip h.nodeId
  if raw = "" then .ok "00000000-0000-0000-0000-000000000000"
  else
    match parseUuid raw with
    | some id => .ok id
    | none => .error (.live (.value "configured NODE_ID must be a UUID"))

def operation (tournamentId : Uuid) : LocalOperation where
  actorId := q.actorId.getD "00000000-0000-0000-0000-000000000000"
  commandType := scheduleCommitCommand
  aggregateType := "tournament_schedule"
  aggregateId := tournamentId
  payload := q.commitPayload
  expectedVersion := some q.state.scheduleVersion.toNat
  operationId := some (q.operationId h)

def logging (tournamentId : Uuid) : Option Logging :=
  if h.env.deploymentProfile = "event_node" then
    some (fun _ => (nodeId h).map (fun node => (node, q.operation h tournamentId)))
  else none

/-- `ScheduleCommitApplication.apply`. A retry finds its operation and writes nothing. -/
def apply (db : Database) (x : Fresh) (a : Ambient) : DocumentWork Tournament := do
  let s ← Work.read
  match s.live.sync.operations.get (q.operationId h) with
  | some existing =>
    if existing.tournamentId ≠ s.tournamentId ∨ existing.commandType ≠ scheduleCommitCommand then
      Work.raise (.live (.value "operation id is already used by another command"))
    else pure s.workspace.tournament
  | none =>
    stagedWrite h db x a q.updated.members false (some s.stateVersion) (q.logging h s.tournamentId)

end ScheduleCommit

/-! ## `PATCH /tournaments/{tournament_id}/setup/{section}` -/

inductive SetupKey
  | general | dates | venue | events | rules | entries | people | publicInfo
  deriving DecidableEq

def SetupKey.value : SetupKey → String
  | .general => "general"
  | .dates => "dates"
  | .venue => "venue"
  | .events => "events"
  | .rules => "rules"
  | .entries => "entries"
  | .people => "people"
  | .publicInfo => "public-info"

structure SetupPatch where
  key : SetupKey
  /-- The section as it was sent, without the regulations. -/
  data : JsonObject
  /-- The section as it was read, if it could be. -/
  validated : Option JsonObject
  /-- Unset, cleared or written. -/
  regulationsText : Option (Option String) := none
  /-- The entry of the activity stream. -/
  activityEntry : JsonObject
  ifMatch : IfMatch

/-! ## Regulations -/

def reservedPublicSlugs : List String :=
  ["api", "account", "login", "signup", "verify", "reset", "partner", "me", "assets"]

def isPublicSlug (slug : String) : Bool :=
  3 ≤ slug.length ∧ slug.length ≤ 60 ∧
    slug.toList.all (fun c => c.isLower || c.isDigit || c = '-') ∧ slug ∉ reservedPublicSlugs

/-- A version counts the texts: it moves only when the text does. -/
def regulationsRow (text : Option String) (slug : String) (row : Option Regulations) :
    Regulations :=
  let written (row : Regulations) : Regulations :=
    if row.text.getD "" = text.getD "" then row
    else { row with text := text.filter (fun t => t ≠ ""), version := row.version + 1 }
  match row with
  | none => written { slug := slug, text := none }
  | some row => written row

/-- The row to publish, if there is anything to publish. -/
def regulationsToPublish (h : Host) (s : Store) (regulationsText : Option (Option String))
    (slug : Option String) : Except DocumentError (Option Regulations) :=
  match regulationsText, s.regulations with
  | none, _ => .ok none
  | some text, some row => .ok (some (regulationsRow text row.slug (some row)))
  | some text, none =>
    if text.getD "" = "" then .ok none
    else
      let candidate := h.platform.lower (pyStrip (slug.getD ""))
      if isPublicSlug candidate = false then
        http 409 "INVALID_INPUT" ("Set the tournament page address before publishing " ++
          "regulations: 3-60 characters of lowercase letters, digits and hyphens.")
      else if candidate ∈ s.otherSlugs then
        http 409 "ENTRY_PAGE_SLUG_TAKEN" ("the page address '" ++ candidate ++ "' is already in use")
      else .ok (some (regulationsRow text candidate none))

def withRegulations (published : Option Regulations) (s : Store) : Store :=
  match published with
  | none => s
  | some row => { s with regulations := some row }

/-- The regulations are published in a transaction of their own. -/
def writeRegulations (db : Database) (published : Option Regulations) : DocumentWork Unit :=
  match published with
  | none => pure ()
  | some row => do
    Work.edit (fun s => .ok ((), withRegulations (some row) s))
    Work.flush (db .regulations)
    Work.commit (db .regulationsCommit)

/-! ## The document -/

def activityMaxEntries : Nat := 200

def ruleTargets : List (String × String) := ruleFields ++ [("pointCap", "pointCap")]

/-- The config fields that follow a section. -/
def sectionConfig (key : SetupKey) (dumped : JsonObject) : JsonObject :=
  match key with
  | .general => (truthyOf "name" dumped).toList.map (fun name => ("tournamentName", name))
  | .dates => (truthyOf "tournamentStart" dumped).toList.map (fun d => ("tournamentDate", firstTen d))
  | .venue =>
    match Assoc.get "courts" dumped with
    | some (.arr (c :: cs)) => [("courtCount", .int (c :: cs).length)]
    | _ => []
  | .rules => ruleTargets.filterMap (fun f =>
      ((Assoc.get f.1 dumped).filter (fun v => decide (v ≠ .null))).map (fun v => (f.2, v)))
  | _ => []

/-- The document with a section replaced. -/
def patchedDocument (nowIso : String) (prior : JsonObject) (q : SetupPatch) (newData : JsonObject) :
    JsonObject :=
  let setup := Assoc.set q.key.value (.obj [("data", .obj newData), ("updatedAt", .str nowIso)])
    ((objectMember "setup" prior).getD [])
  let activity := arrayMember "activity" prior ++ [.obj q.activityEntry]
  let document := Assoc.merge prior [("setup", .obj setup),
    ("activity", .arr (activity.drop (activity.length - activityMaxEntries)))]
  let config := Assoc.merge ((objectMember "config" prior).getD []) (sectionConfig q.key newData)
  if config = [] then document else Assoc.set "config" (.obj config) document

/-- The events of a workspace that has some are not edited here. -/
def hasDomainEvents (s : Store) : Bool :=
  if s.workspace.tournament.kind = "bracket" then !s.workspace.bracketEvents.rows.isEmpty
  else
    match (objectMember "config" s.data).bind (Assoc.get "rankCounts") with
    | some (.obj (_ :: _)) => true
    | _ => false

/-- The section as it is read, once every check of the request has passed. -/
def checkedSection (s : Store) (q : SetupPatch) : Except DocumentError JsonObject := do
  if s.workspace.registry.checkedOut then
    http 409 "CONFIG_LOCKED" ("Tournament preparation is frozen after checkout. " ++
      "Return authority before changing setup or replacing imports.")
  if q.key = .publicInfo ∧ Assoc.get "visibility" q.data ≠ none then
    http 409 "SETUP_SECTION_DOMAIN_OWNED"
      "Public audience is managed from Publish · Site; this Setup value is read-only."
  if q.key = .events ∧ hasDomainEvents s then
    http 409 "SETUP_SECTION_DOMAIN_OWNED" ("This draw has been generated. Regenerate it to " ++
      "change format or size. Manage events from " ++
      (if s.workspace.tournament.kind = "bracket" then "Bracket · Draws" else "the Roster") ++ ".")
  match q.ifMatch with
  | .missing => http 412 "STATE_VERSION_REQUIRED" "If-Match is required"
  | .unreadable _ => http 412 "STATE_VERSION_REQUIRED" "If-Match is malformed"
  | .version seen =>
    if seen = s.stateVersion then .ok ()
    else http 409 "STATE_VERSION_CONFLICT" "Setup changed since it was loaded. Reload before saving."
  match q.validated with
  | none => http 422 "INVALID_INPUT" "Setup section payload is invalid."
  | some newData => .ok newData

def patchSetupSection (h : Host) (db : Database) (x : Fresh) (q : SetupPatch) :
    DocumentWork Tournament := do
  let s ← Work.read
  let newData ← Work.ofExcept (checkedSection s q)
  let published ← Work.ofExcept
    (regulationsToPublish h s q.regulationsText (textMember "publicSlug" newData))
  writeRegulations db published
  commitTournamentState h.platform db x (patchedDocument x.nowIso s.data q newData) false
    (some s.stateVersion) true

end Documents
