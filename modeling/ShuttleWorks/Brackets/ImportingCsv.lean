import ShuttleWorks.Brackets.Importing
import ShuttleWorks.Lib.Clusters
import ShuttleWorks.Sync.Schemas

/-! Importing a flat table, one unit a row. Rows are grouped by event and by round; a unit is
named by its event, its round and its place in the round. -/

namespace Brackets
open Lib

/-- A row as the reader gives it; a cell that the line does not have is `none`. -/
abbrev CsvRow := List (String × Option String)

/-- How texts are read: a number, a representation code (`none` where the code is not listed,
`some none` where there is none) and a time. -/
structure CsvReading where
  int : String → Option Int
  normalizeRepresentation : String → Option (Option String)
  fromisoformat : String → Option String

structure CsvConfig where
  courts : Nat
  totalSlots : Nat
  intervalMinutes : Nat
  restBetweenRounds : Nat
  startTime : Option String := none

/-- `row.get(column, "")` where an absent cell reads as the empty one. -/
def CsvRow.cell (row : CsvRow) (column : String) : String :=
  ((Assoc.get column row).getD (some "")).getD ""

def CsvRow.text (row : CsvRow) (column : String) : Except ImportError String :=
  match Assoc.get column row with
  | some (some raw) => .ok raw
  | _ => .error (.malformedCell column)

def splitBar (raw : String) : List String := (raw.toList.splitOn '|').map String.ofList

def splitSide (raw : String) : Side := ((splitBar raw).map Sync.pyStrip).filter (· ≠ "")

def CsvRow.ident (row : CsvRow) (column : String) : Option String :=
  let raw := Sync.pyStrip (row.cell column)
  if raw = "" then none else some raw

section

variable (rd : CsvReading)

def roundOf (eventId : EventId) (row : CsvRow) : Except ImportError Int :=
  match Assoc.get "round" row with
  | some none => .error (.malformedCell "round")
  | none => .error (.malformedRound eventId)
  | some (some raw) =>
    match rd.int raw with
    | none => .error (.malformedRound eventId)
    | some round => .ok round

/-- A row without the column sorts as 0. -/
def matchIndexOf (row : CsvRow) : Except ImportError Int :=
  match Assoc.get "match_index" row with
  | none => .ok 0
  | some none => .error (.malformedCell "match_index")
  | some (some raw) =>
    match rd.int raw with
    | none => .error (.malformedCell "match_index")
    | some index => .ok index

def durationOf (row : CsvRow) : Except ImportError Int :=
  if row.cell "duration_slots" = "" then .ok 1
  else
    match rd.int (row.cell "duration_slots") with
    | none => .error (.malformedCell "duration_slots")
    | some duration => .ok duration

/-! ## Representation columns -/

def addCode (known : List (ParticipantId × String)) (p : ParticipantId × String) :
    Except ImportError (List (ParticipantId × String)) :=
  match rd.normalizeRepresentation p.2 with
  | none => .error (.representationUnknown p.2)
  | some none => .ok known
  | some (some value) =>
    match Assoc.get p.1 known with
    | none => .ok (Assoc.set p.1 value known)
    | some existing =>
      if existing = value then .ok known else .error .representationConflict

def addSideCodes (known : List (ParticipantId × String)) (ids : Side) (raw : String) :
    Except ImportError (List (ParticipantId × String)) := do
  if raw = "" then .ok known
  else
    reject ((splitBar raw).length ≠ ids.length) .representationColumns
    (ids.zip (splitBar raw)).foldlM (addCode rd) known

def addRowCodes (known : List (ParticipantId × String)) (row : CsvRow) :
    Except ImportError (List (ParticipantId × String)) := do
  let known ← addSideCodes rd known (splitSide (row.cell "side_a"))
    (row.cell "side_a_representation")
  addSideCodes rd known (splitSide (row.cell "side_b")) (row.cell "side_b_representation")

/-! ## One event -/

def csvUnit (eventId : EventId) (participants : Participants) (round : Nat) (b : Building)
    (p : CsvRow × Nat) : Except ImportError Building := do
  let (row, matchIndex) := p
  let id := roundUnitId eventId round matchIndex
  let duration ← durationOf rd row
  let sideA := splitSide (row.cell "side_a")
  let sideB := splitSide (row.cell "side_b")
  if round = 0 then
    let slotA ← slotFromSide eventId participants sideA
    let slotB ← slotFromSide eventId participants sideB
    .ok (b.add
      { id, eventId, sideA, sideB, slotA, slotB, expectedDurationSlots := duration
        metadata := { round := 0, matchIndex } })
  else
    match row.ident "feeder_a", row.ident "feeder_b" with
    | some feederA, some feederB =>
      reject (feederA ∉ b.seenIds ∨ feederB ∉ b.seenIds) (.feedersUnknown eventId id)
      .ok (b.add
        { id, eventId, slotA := .feeder feederA .winner, slotB := .feeder feederB .winner
          expectedDurationSlots := duration, dependencies := [feederA, feederB]
          metadata := { round, matchIndex } })
    | _, _ => .error (.feedersMissing eventId id round)

/-- The rows of a round in the order of their match numbers. -/
def roundRows (rows : List CsvRow) : Except ImportError (List CsvRow) := do
  let numbered ← rows.mapM fun row => (matchIndexOf rd row).map (·, row)
  .ok ((numbered.insertionSort fun p q => p.1 ≤ q.1).map Prod.snd)

def csvRound (eventId : EventId) (participants : Participants)
    (byRound : List (Int × List CsvRow)) (b : Building) (round : Nat) :
    Except ImportError Building := do
  let rows ← roundRows rd ((Assoc.get (round : Int) byRound).getD [])
  let b ← rows.zipIdx.foldlM (csvUnit rd eventId participants round) b
  .ok b.close

def csvParticipants (rows : List CsvRow) : List Participant :=
  let ids := rows.flatMap fun row => splitSide (row.cell "side_a") ++ splitSide (row.cell "side_b")
  (ids.dedup.insertionSort (· ≤ ·)).map fun id => { id, name := id }

def buildDrawFromCsvRows (eventId : EventId) (format : String) (rows : List CsvRow) :
    Except ImportError Draw := do
  let placed ← rows.mapM fun row => (roundOf rd eventId row).map (·, row)
  let byRound := placed.foldl (fun groups p => Assoc.push p.1 p.2 groups) []
  let rounds := (Assoc.keys byRound).insertionSort (· ≤ ·)
  reject (rounds ≠ (List.range rounds.length).map fun (r : Nat) => (r : Int))
    (.roundsNotContiguous eventId rounds)
  let participants := csvParticipants rows
  let _ ← rows.foldlM (addRowCodes rd) []
  let b ← (List.range rounds.length).foldlM
    (csvRound rd eventId (Table.ofRows participants) byRound) {}
  .ok (plainDraw
    { id := eventId, typeTags := [format], formatPluginName := format
      parameters :=
        [("imported", .bool true), ("participant_count", .int participants.length)] }
    participants b.rounds)

/-! ## The table -/

def expectedColumns : List String :=
  ["event_id", "feeder_a", "feeder_b", "format", "match_index", "round", "side_a", "side_b"]

/-- The rows of every event and its format, which the first of its rows gives. -/
structure CsvEvents where
  rows : List (EventId × List CsvRow) := []
  format : List (EventId × String) := []

def groupRow (groups : CsvEvents) (row : CsvRow) : Except ImportError CsvEvents := do
  let raw ← row.text "event_id"
  let format ← row.text "format"
  let eventId := Sync.pyStrip raw
  let format := if Sync.pyStrip format = "" then "se" else Sync.pyStrip format
  .ok
    { rows := Assoc.push eventId row groups.rows
      format :=
        if (Assoc.get eventId groups.format).isSome then groups.format
        else Assoc.set eventId format groups.format }

def importCsvEvent (format : List (EventId × String)) (st : Parsing)
    (p : EventId × List CsvRow) : Except ImportError Parsing := do
  let format := (Assoc.get p.1 format).getD "se"
  let draw ← buildDrawFromCsvRows rd p.1 format p.2
  let state ← (registerDraw st.state draw).mapError .advance
  .ok
    { st with
      state
      draws := st.draws ++ [draw]
      events := Assoc.set p.1 { discipline := p.1, format } st.events }

def parsedStart (startTime : Option String) : Except ImportError (Option String) :=
  match startTime with
  | none => .ok none
  | some raw =>
    if raw = "" then .ok none
    else
      match rd.fromisoformat raw with
      | none => .error (.malformedCell "start_time")
      | some time => .ok (some time)

/-- `parse_csv_payload`, from the column names and the rows the reader gives. -/
def parseCsvPayload (config : CsvConfig) (fieldnames : List String) (rows : List CsvRow) :
    Except ImportError BracketSession := do
  let missing := expectedColumns.filter (· ∉ fieldnames)
  reject (missing ≠ []) (.columnsMissing missing)
  reject (rows = []) .noRows
  let groups ← rows.foldlM groupRow {}
  let st ← groups.rows.foldlM (importCsvEvent rd groups.format) {}
  let startTime ← parsedStart rd config.startTime
  .ok
    { state := st.state, draws := st.draws, events := st.events
      totalSlots := config.totalSlots, courtCount := config.courts
      intervalMinutes := config.intervalMinutes
      restBetweenRounds := config.restBetweenRounds, startTime }

end

end Brackets
