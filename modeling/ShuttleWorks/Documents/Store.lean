import Mathlib.Data.List.Dedup
import ShuttleWorks.Competition.Roster
import ShuttleWorks.Lib.Session
import ShuttleWorks.Operations.Commands

/-! The rows that a write of a tournament's whole document touches: the document and its
version, the backups taken of it, the rows of its matches, the regulations on its entry page
and the operation log; with the places where the database is asked to store them. -/

namespace Documents
open Lib Competition Operations
open Sync (Uuid Raised)

/-! ## Rows -/

inductive BackupOrigin
  | auto
  | manual
  deriving DecidableEq

structure TournamentBackup where
  id : Uuid
  filename : String
  snapshot : JsonObject
  origin : BackupOrigin := .auto
  /-- In microseconds. -/
  createdAt : Int
  deriving DecidableEq

/-- The regulations as the entry page publishes them. -/
structure Regulations where
  slug : String
  text : Option String
  version : Nat := 1
  deriving DecidableEq

/-- One tournament as the database holds it. Its document is `workspace.tournament.data`. -/
structure Store where
  workspace : Workspace
  live : LiveStore
  backups : List TournamentBackup := []
  regulations : Option Regulations := none
  /-- The addresses of the other tournaments' entry pages. -/
  otherSlugs : List String := []

namespace Store

variable (s : Store)

def tournamentId : Uuid := s.workspace.tournament.id

def data : JsonObject := s.workspace.tournament.data

def stateVersion : Nat := s.workspace.tournament.stateVersion

def facing : LiveStore := { s.live with documents := [(s.tournamentId, s.data)] }

end Store

/-! ## Exceptions -/

inductive DocumentError
  | live (e : LiveError)
  | competition (e : Entries.Refused)
  | http (statusCode : Nat) (code message : String)
  | fileNotFound (filename : String)
  | typeError (message : String)
  | database (message : String)

abbrev DocumentWork (α : Type) := Work Store DocumentError α

/-- Where a request waits for the database: at a flush, or at a commit. -/
inductive Site
  | regulations
  | regulationsCommit
  | backup
  | backupCommit
  | rotationCommit
  | reservation
  | state
  | stateCommit
  | projectionCommit
  | projected
  | operation
  | requestCommit
  deriving DecidableEq

/-- The exceptions that the database raises while a request runs. -/
abbrev Database := Site → Option DocumentError

def sound : Database := fun _ => none

/-- Values drawn while a document is written. -/
structure Fresh where
  /-- The instant in microseconds, as an ISO text, and as the stamp of a file's name. -/
  instant : Int
  nowIso : String
  stamp : String
  backupId : Uuid

/-! ## Members of a document -/

/-- `document.get(key)`, where it is an object. -/
def objectMember (key : String) (document : JsonObject) : Option JsonObject :=
  match Assoc.get key document with
  | some (.obj kvs) => some kvs
  | _ => none

/-- `document.get(key) or []`, where it is a list. -/
def arrayMember (key : String) (document : JsonObject) : List Json :=
  match Assoc.get key document with
  | some (.arr xs) => xs
  | _ => []

/-! ## A small tournament -/

namespace Rehearsal

def platform : Entries.Platform where
  uuid4 n := String.ofList (List.replicate (n + 1) 'u')
  uuid5 space name := space ++ name
  tokenUrlsafe n := String.ofList (List.replicate (n + 1) 't')
  hashToken := id
  lower := id
  casefold := id
  upper := id
  sqlLower := id
  intOfText _ := none
  intOfFloat _ := .error .unreadable
  inviteTtl := 0
  representations := []
  quote _ _ _ _ _ := ""

def eventId : Uuid := "11111111-1111-4111-8111-111111111111"

def holding (data : JsonObject) : Store where
  workspace := {
    tournament := ⟨eventId, "meet", data, 1⟩
    registry := {
      page := none
      events := .empty, submissions := .empty, payments := .empty, players := .empty
      entries := .empty, invitations := .empty }
    formats := .empty, events := .empty, units := .empty, memberships := .empty
    draws := .empty, bracketEvents := .empty, participants := .empty }
  live := {}

def fresh : Fresh := ⟨0, "2026-03-01T09:00:00Z", "20260301T090000", "backup-1"⟩

def assignment (mid : String) (slot court : Int) : Json :=
  .obj [("matchId", .str mid), ("slotId", .int slot), ("courtId", .int court),
    ("durationSlots", .int 1)]

end Rehearsal

/-! ## The state as it travels -/

open Lib

def required (name : String) : Field := ⟨name, none⟩

def optional (name : String) (value : Json := .null) : Field := ⟨name, some value⟩

/-- `TournamentConfig`. -/
def configFields : List Field :=
  [ optional "tournamentName", optional "meetMode", required "intervalMinutes",
    required "dayStart", required "dayEnd", optional "tournamentDate", optional "breaks" (.arr []),
    required "courtCount", required "defaultRestMinutes", required "freezeHorizonSlots",
    optional "rankCounts" (.obj []), optional "enableCourtUtilization" (.bool true),
    optional "courtUtilizationPenalty" (.float ⟨"50.0", by decide⟩),
    optional "enableGameProximity" (.bool false), optional "minGameSpacingSlots",
    optional "maxGameSpacingSlots", optional "gameProximityPenalty" (.float ⟨"5.0", by decide⟩),
    optional "enableCompactSchedule" (.bool false),
    optional "compactScheduleMode" (.str "minimize_makespan"),
    optional "compactSchedulePenalty" (.float ⟨"100.0", by decide⟩), optional "targetFinishSlot",
    optional "allowPlayerOverlap" (.bool false),
    optional "playerOverlapPenalty" (.float ⟨"50.0", by decide⟩), optional "scoringFormat",
    optional "setsToWin", optional "pointsPerSet", optional "deuceEnabled", optional "pointCap",
    optional "tvDisplayMode", optional "tvAccent", optional "tvPreset", optional "tvGridColumns",
    optional "tvCardSize", optional "tvShowScores", optional "courtOrder",
    optional "hiddenCourts", optional "standingsMode", optional "tvRotationSlides",
    optional "tvRotationDwellSeconds", optional "eventOrder", optional "eventVisible",
    optional "deterministic", optional "randomSeed", optional "solverTimeLimitSeconds",
    optional "candidatePoolSize", optional "courtPolicy", optional "courtOverrides",
    optional "onDeckCount", optional "closedCourts" (.arr []), optional "courtClosures" (.arr []),
    optional "clockShiftMinutes" (.int 0), optional "restBetweenRounds" (.int 1) ]

/-- `TournamentStateDTO`. -/
def stateFields : List Field :=
  [ optional "version" (.int 1), optional "updatedAt", optional "config",
    optional "groups" (.arr []), optional "players" (.arr []), optional "matches" (.arr []),
    optional "schedule", optional "scheduleStats", optional "scheduleIsStale" (.bool false),
    optional "scheduleVersion" (.int 0), optional "scheduleHistory" (.arr []),
    optional "bracketPlayers" (.arr []), optional "bracketRosterMigrated",
    optional "planFinalized" (.bool false), optional "standings" (.arr []) ]

abbrev TournamentStateDTO := Dto stateFields

/-- How the values of fields are read: refused, or converted to the type of the field. -/
structure Reading where
  config : String → Json → Option Json
  state : String → Json → Option Json

namespace Reading

variable (r : Reading)

/-- `TournamentConfig.model_validate(config).model_dump()`. -/
def readConfig (config : JsonObject) : Option JsonObject := readModel configFields r.config config

/-- A member of a state; a config is read by its own fields. -/
def member (name : String) (value : Json) : Option Json :=
  if name = "config" then
    match value with
    | .null => some .null
    | .obj config => (r.readConfig config).map .obj
    | _ => none
  else r.state name value

def readState (document : JsonObject) : Option JsonObject :=
  readModel stateFields r.member document

end Reading

theorem stateFields_keys : Assoc.keys (stateFields.map (fun f => (f.name, f.default.getD .null))) =
    stateFields.map Field.name := by
  rw [Assoc.keys, List.map_map]
  rfl

def blankState : TournamentStateDTO :=
  ⟨stateFields.map (fun f => (f.name, f.default.getD .null)), stateFields_keys⟩

/-! ## The lock on scheduling fields -/

def nonSchedulingKeys : List String :=
  [ "scoringFormat", "setsToWin", "pointsPerSet", "deuceEnabled", "standingsMode",
    "tvDisplayMode", "tvAccent", "tvPreset", "tvGridColumns", "tvCardSize", "tvShowScores",
    "courtOrder", "hiddenCourts", "tournamentName", "clockShiftMinutes" ]

/-- `prior.get(key) == incoming.get(key)`. -/
def sameMember (key : String) (prior incoming : JsonObject) : Bool :=
  Json.same ((Assoc.get key prior).getD .null) ((Assoc.get key incoming).getD .null)

/-- The scheduling fields that differ; none where a side has no config. -/
def changedSchedulingFields (prior incoming : Option JsonObject) : List String :=
  match prior, incoming with
  | some prior, some incoming =>
    ((Assoc.keys prior ++ Assoc.keys incoming).dedup.filter (fun key =>
      key ∉ nonSchedulingKeys ∧ ¬ sameMember key prior incoming)).insertionSort (· ≤ ·)
  | _, _ => []

end Documents
