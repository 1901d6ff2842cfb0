import Mathlib.Data.List.ReduceOption
import Mathlib.Data.Prod.Lex
import ShuttleWorks.Brackets.CourtConfig
import ShuttleWorks.Engine.Disruptions
import ShuttleWorks.Meet.Lineup

/-! The advisories of a running day: what the desk is told about overruns, players who do not
show up, delays and breaks that come near, and what it is offered to do about them. Times are
microseconds from the first day of the calendar; minutes are compared as such, where the source
divides. -/

namespace Meet.Advisories
open Lib Brackets
open Engine (Assignment Disruption DisruptionType MatchStateStatus RepairError RepairRequest
  RepairSpec)

/-! ## Times -/

def minute : Int := 60 * 1000000

def day : Int := 1440 * minute

def calendarEnd : Int := 3652059 * day

def OnCalendar (t : Int) : Prop := 0 ≤ t ∧ t < calendarEnd

instance (t : Int) : Decidable (OnCalendar t) := inferInstanceAs (Decidable (_ ∧ _))

inductive PyError
  | valueError | overflowError
  deriving DecidableEq, Repr

/-- A wall clock, with its offset from UTC where one was written. -/
structure Datetime where
  clock : Int
  utcoffset : Option Int := none
  onCalendar : OnCalendar clock
  deriving DecidableEq

/-- The moment the clock stands for; one without an offset is in UTC. -/
def Datetime.moment (d : Datetime) : Int := d.clock - d.utcoffset.getD 0

def Datetime.midnight (d : Datetime) : Int := d.clock - d.clock % day

/-- `astimezone(timezone.utc)`. -/
def Datetime.astimezone (d : Datetime) : Except PyError Int :=
  if OnCalendar d.moment then .ok d.moment else .error .overflowError

/-- `datetime + timedelta`. -/
def later (t span : Int) : Except PyError Int :=
  if OnCalendar (t + span) then .ok (t + span) else .error .overflowError

/-- `base.replace(hour, minute)` of a midnight. -/
def replaceTime (base hour mins : Int) : Except PyError Int :=
  if 0 ≤ hour ∧ hour < 24 ∧ 0 ≤ mins ∧ mins < 60 then .ok (base + (hour * 60 + mins) * minute)
  else .error .valueError

/-- What is asked of the platform: to read a date, and the time an advisory is stamped with. -/
structure Clock where
  fromisoformat : String → Option Datetime
  nowIso : String → String

/-- A final `Z` spelt out, and with it every other one. -/
def normalized (ts : String) : String :=
  if ts.toList.getLast? = some 'Z' then
    String.ofList (ts.toList.flatMap fun c => if c = 'Z' then "+00:00".toList else [c])
  else ts

def given (ts : Option String) : Option String := ts.filter fun s => s ≠ ""

namespace Clock

variable (c : Clock)

def reading (ts : Option String) : Option Datetime :=
  (given ts).bind fun s => c.fromisoformat (normalized s)

def parseIso (ts : Option String) : Except PyError (Option Int) :=
  match c.reading ts with
  | none => .ok none
  | some d => d.astimezone.map some

end Clock

/-- `strftime('%H:%M')`. -/
def hourMinute (t : Int) : String :=
  let two (n : Int) : String := if n < 10 then "0" ++ toString n else toString n
  two (t % day / minute / 60) ++ ":" ++ two (t % day / minute % 60)

/-- `round(a / b)`, a half to the even side. -/
def roundDiv (a b : Int) : Int :=
  let q := a / b
  if 2 * (a % b) < b ∨ 2 * (a % b) = b ∧ q % 2 = 0 then q else q + 1

def humanizeMinutes (minutes : Int) : String :=
  if minutes < 120 then toString minutes ++ " min"
  else if minutes < 2880 then toString (roundDiv minutes 60) ++ " h"
  else toString (roundDiv minutes 1440) ++ " days"

/-! ## The state of the day -/

def Identifier (s : String) : Prop := 1 ≤ s.length ∧ s.length ≤ 100

instance (s : String) : Decidable (Identifier s) := inferInstanceAs (Decidable (_ ∧ _))

structure MatchState where
  status : MatchStateStatus := .scheduled
  calledAt : Option String := none
  actualStartTime : Option String := none
  actualEndTime : Option String := none
  deriving DecidableEq, Repr

structure Config extends Brackets.TournamentConfig where
  tournamentDate : Option String := none

structure TournamentState where
  config : Option Config
  players : List Engine.Player := []
  matchList : List MatchDTO := []
  schedule : Option (List Assignment)
  identified : ∀ m ∈ matchList, Identifier m.id

/-- What the heuristics look at. -/
structure Snapshot where
  config : Config
  players : List Engine.Player := []
  matchList : List MatchDTO
  schedule : List Assignment
  matchStates : List (String × MatchState)
  now : Int
  identified : ∀ m ∈ matchList, Identifier m.id

/-- A state that is configured and planned can be looked at. -/
def TournamentState.snapshot (state : TournamentState) (matchStates : List (String × MatchState))
    (now : Int) : Option Snapshot :=
  match state.config, state.schedule with
  | some config, some schedule => some {
      config, schedule, matchStates, now
      players := state.players
      matchList := state.matchList
      identified := state.identified }
  | _, _ => none

/-! ## Advisories -/

inductive AdvisoryKind
  | overrun | noShow | runningBehind | infeasibilityRisk | startDelayDetected
  | approachingBlackout
  deriving DecidableEq, Repr

def AdvisoryKind.text : AdvisoryKind → String
  | .overrun => "overrun"
  | .noShow => "no_show"
  | .runningBehind => "running_behind"
  | .infeasibilityRisk => "infeasibility_risk"
  | .startDelayDetected => "start_delay_detected"
  | .approachingBlackout => "approaching_blackout"

inductive Severity
  | info | warn | critical
  deriving DecidableEq, Repr

/-- `severity_rank`. -/
def Severity.rank : Severity → Nat
  | .critical => 0
  | .warn => 1
  | .info => 2

inductive ActionKind
  | warmRestart | repair | delayStart | insertBlackout | compressRemaining | removeBlackout
  deriving DecidableEq, Repr

/-- The payloads the heuristics fill in. -/
inductive Payload
  | disruption (type : DisruptionType) (matchId : String) (extraMinutes : Option Int)
  | stayCloseWeight (weight : Int)
  | minutes (delay : Int)
  deriving DecidableEq, Repr

structure SuggestedAction where
  kind : ActionKind
  payload : Payload
  deriving DecidableEq, Repr

structure Advisory where
  id : String
  kind : AdvisoryKind
  severity : Severity
  summary : String
  detail : Option String := none
  matchId : Option String := none
  suggestedAction : Option SuggestedAction
  detectedAt : String
  deriving DecidableEq, Repr

def Advisory.sortKey (a : Advisory) : Lex (Nat × Lex (String × String)) :=
  toLex (a.severity.rank, toLex (a.kind.text, a.id))

def matchLabel (m : Option MatchDTO) (matchId : String) : String :=
  match m with
  | none => String.ofList (matchId.toList.take 6)
  | some m =>
    match given m.eventRank, m.matchNumber with
    | some rank, _ => rank
    | none, some n => "#" ++ toString n
    | none, none => String.ofList (matchId.toList.take 6)

def overrunGrace : Int := 5 * minute

def noShowThreshold : Int := 3 * minute

def runningBehindThreshold : Int := 10 * minute

/-- `actualStartTime or calledAt`. -/
def MatchState.startTs (ms : MatchState) : Option String :=
  (given ms.actualStartTime).or ms.calledAt

def gather {ε α β : Type} (f : α → Except ε (Option β)) (l : List α) : Except ε (List β) := do
  let found ← l.mapM f
  return found.reduceOption

namespace Snapshot

variable (s : Snapshot) (c : Clock)

def matchesById : Table MatchDTO.id := Table.ofRows s.matchList

/-- `_expected_duration_minutes`, with both factors at least one. -/
def expectedDuration (m : MatchDTO) : Int :=
  (max 1 m.durationSlots * (s.config.intervalMinutes : Nat) : Nat) * minute

def midnight : Option Int :=
  ((given s.config.tournamentDate).bind c.fromisoformat).map Datetime.midnight

def slotMinutes (m : MatchDTO) : Option Int :=
  (s.schedule.find? fun a => a.matchId = m.id).map fun a =>
    timeToMinutes s.config.dayStart + a.slotId * (s.config.intervalMinutes : Nat)

def scheduledMatchStartDt (m : MatchDTO) : Except PyError (Option Int) :=
  match s.slotMinutes m, s.midnight c with
  | some minutes, some base => (replaceTime base (minutes / 60) (minutes % 60)).map some
  | _, _ => .ok none

/-! ### The heuristics -/

def overrunAdvisory (matchId : String) (m : MatchDTO) (actualStart : Int) : Option Advisory :=
  let delay := s.now - actualStart - s.expectedDuration m
  if delay ≤ overrunGrace then none
  else some {
    id := "overrun:" ++ matchId
    kind := .overrun
    severity := if 10 * minute < delay then .critical else .warn
    summary := "Match " ++ matchLabel (some m) m.id ++ " has run " ++
      toString (delay.tdiv minute) ++ " min over its expected " ++
      toString (s.expectedDuration m / minute) ++ "-min duration"
    matchId := some matchId
    suggestedAction := some ⟨.repair, .disruption .overrun matchId (some (delay.tdiv minute))⟩
    detectedAt := c.nowIso ("overrun:" ++ matchId) }

/-- One round of the loop of `detect_overruns`. -/
def overrunOf (row : String × MatchState) : Except PyError (Option Advisory) :=
  if row.2.status = .started then do
    let actualStart ← c.parseIso row.2.actualStartTime
    return actualStart.bind fun t =>
      (s.matchesById.get row.1).bind fun m => s.overrunAdvisory c row.1 m t
  else return none

def detectOverruns : Except PyError (List Advisory) := gather (s.overrunOf c) s.matchStates

def noShowAdvisory (matchId : String) (calledAt : Int) : Option Advisory :=
  let idle := s.now - calledAt
  if idle < noShowThreshold then none
  else some {
    id := "no_show:" ++ matchId
    kind := .noShow
    severity := if 5 * minute < idle then .critical else .warn
    summary := "Match " ++ matchLabel (s.matchesById.get matchId) matchId ++ " was called " ++
      toString (idle.tdiv minute) ++ " min ago and has not started"
    matchId := some matchId
    suggestedAction := some ⟨.repair, .disruption .withdrawal matchId none⟩
    detectedAt := c.nowIso ("no_show:" ++ matchId) }

/-- One round of the loop of `detect_no_shows`. -/
def noShowOf (row : String × MatchState) : Except PyError (Option Advisory) :=
  if row.2.status = .called then do
    let calledAt ← c.parseIso row.2.calledAt
    return calledAt.bind (s.noShowAdvisory c row.1)
  else return none

def detectNoShows : Except PyError (List Advisory) := gather (s.noShowOf c) s.matchStates

/-- How late a match ended after its planned end. -/
def finishDelta (m : MatchDTO) (actualEnd : Int) : Except PyError (Option Int) := do
  match ← s.scheduledMatchStartDt c m with
  | none => return none
  | some scheduledStart =>
    let scheduledEnd ← later scheduledStart (s.expectedDuration m)
    return some (actualEnd - scheduledEnd)

/-- One round of the loop of `detect_running_behind`. -/
def deltaOf (row : String × MatchState) : Except PyError (Option Int) :=
  if row.2.status = .finished then do
    match ← c.parseIso row.2.actualEndTime, s.matchesById.get row.1 with
    | some actualEnd, some m => s.finishDelta c m actualEnd
    | _, _ => return none
  else return none

def Dated : Prop := s.schedule ≠ [] ∧ (given s.config.tournamentDate).isSome

instance : Decidable s.Dated := inferInstanceAs (Decidable (_ ∧ _))

/-- The mean of the last ten is exact here, where the source divides floats. -/
def runningBehindAdvisory (deltas : List Int) : List Advisory :=
  let recent := deltas.drop (deltas.length - 10)
  if deltas = [] ∨ recent.sum < runningBehindThreshold * recent.length then []
  else [{
    id := "running_behind"
    kind := .runningBehind
    severity := if 20 * minute * recent.length < recent.sum then .critical else .warn
    summary := "Tournament is running " ++
      humanizeMinutes (recent.sum.tdiv (minute * recent.length)) ++
      " behind schedule (over the last " ++ toString recent.length ++ " matches)"
    detail := some ("Consider compressing remaining transitions or warm-restarting " ++
      "with a stay-close bias.")
    suggestedAction := some ⟨.warmRestart, .stayCloseWeight 5⟩
    detectedAt := c.nowIso "running_behind" }]

def detectRunningBehind : Except PyError (List Advisory) :=
  if s.Dated then do
    let deltas ← gather (s.deltaOf c) s.matchStates
    return runningBehindAdvisory c deltas
  else return []

def startDelayAdvisory (actualStart scheduledStart : Int) : List Advisory :=
  let delay := actualStart - scheduledStart
  if delay < 5 * minute then []
  else [{
    id := "start_delay_detected"
    kind := .startDelayDetected
    severity := if 20 * minute < delay then .critical else .warn
    summary := "Tournament started " ++ humanizeMinutes (delay.tdiv minute) ++ " late (" ++
      hourMinute actualStart ++ " vs scheduled " ++ hourMinute scheduledStart ++ ")"
    detail := some ("Apply a clock-shift to keep displayed match times in sync " ++
      "with reality without re-solving the schedule.")
    suggestedAction := some ⟨.delayStart, .minutes (delay.tdiv minute)⟩
    detectedAt := c.nowIso "start_delay_detected" }]

def opening : Option (MatchDTO × MatchState) :=
  (s.schedule.minOn? Assignment.slotId).bind fun a =>
    (s.matchesById.get a.matchId).bind fun m =>
      (Assoc.get a.matchId s.matchStates).map fun ms => (m, ms)

def detectStartDelay : Except PyError (List Advisory) :=
  match if s.Dated then s.opening else none with
  | none => return []
  | some (m, ms) => do
    match ← c.parseIso ms.startTs with
    | none => return []
    | some actualStart =>
      match ← s.scheduledMatchStartDt c m with
      | none => return []
      | some scheduledStart => return startDelayAdvisory c actualStart scheduledStart

/-- `_at`. -/
def atTime (base : Int) (time : HHMMTime) : Int := base + timeToMinutes time * minute

/-- A match of this time runs at least a minute into a break. -/
def Overlaps (base actualStart expectedEnd : Int) (blackout : BreakWindow) : Prop :=
  atTime base blackout.start < expectedEnd ∧ actualStart < atTime base blackout.end ∧
    minute ≤ expectedEnd - atTime base blackout.start

instance (base actualStart expectedEnd : Int) (blackout : BreakWindow) :
    Decidable (Overlaps base actualStart expectedEnd blackout) :=
  inferInstanceAs (Decidable (_ ∧ _ ∧ _))

def HHMMTime.text (time : HHMMTime) : String := hourMinute (timeToMinutes time * minute)

def blackoutAdvisory (matchId : String) (m : MatchDTO) (base expectedEnd : Int)
    (blackout : BreakWindow) : Advisory :=
  let overlap := (expectedEnd - atTime base blackout.start).tdiv minute
  let start := HHMMTime.text blackout.start
  let id := "approaching_blackout:" ++ matchId ++ ":" ++ start
  { id
    kind := .approachingBlackout
    severity := .warn
    summary := "Match " ++ matchLabel (some m) matchId ++ " expected to finish " ++
      toString overlap ++ " min into the " ++ start ++ "–" ++ HHMMTime.text blackout.end ++
      " break"
    matchId := some matchId
    suggestedAction := some ⟨.repair, .disruption .overrun matchId (some overlap)⟩
    detectedAt := c.nowIso id }

/-- One round of the loop of `detect_approaching_blackout`: the first break that is reached. -/
def blackoutOf (base : Int) (row : String × MatchState) : Except PyError (Option Advisory) :=
  if row.2.status = .started then do
    match ← c.parseIso row.2.actualStartTime, s.matchesById.get row.1 with
    | some actualStart, some m =>
      let expectedEnd ← later actualStart (s.expectedDuration m)
      return (s.config.breaks.find? fun b => Overlaps base actualStart expectedEnd b).map
        (blackoutAdvisory c row.1 m base expectedEnd)
    | _, _ => return none
  else return none

def detectApproachingBlackout : Except PyError (List Advisory) :=
  match if s.schedule ≠ [] ∧ s.config.breaks ≠ [] then s.midnight c else none with
  | none => return []
  | some base => gather (s.blackoutOf c base) s.matchStates

/-- `collect_advisories` on a state that is configured and planned. -/
def advisories : Except PyError (List Advisory) := do
  let overruns ← s.detectOverruns c
  let noShows ← s.detectNoShows c
  let runningBehind ← s.detectRunningBehind c
  let startDelay ← s.detectStartDelay c
  let blackouts ← s.detectApproachingBlackout c
  return (overruns ++ noShows ++ runningBehind ++ startDelay ++ blackouts).mergeSort
    fun a b => decide (a.sortKey ≤ b.sortKey)

end Snapshot

def collectAdvisories (c : Clock) (state : Option TournamentState)
    (matchStates : List (String × MatchState)) (now : Int) : Except PyError (List Advisory) :=
  match state.bind fun state => state.snapshot matchStates now with
  | none => return []
  | some s => s.advisories c

/-! ## What becomes of a suggested repair -/

/-- `Disruption(**payload)`; the other payloads have fields it does not know. -/
def Payload.toDisruption : Payload → Option Disruption
  | .disruption type matchId extraMinutes =>
    if Identifier matchId then some { type, matchId := some matchId, extraMinutes } else none
  | .stayCloseWeight _ | .minutes _ => none

/-- `matches_from_dto`. -/
def matchFromDto (m : MatchDTO) : Engine.Match where
  id := m.id
  eventCode := (given m.eventRank).getD ("MATCH-" ++ String.ofList (m.id.toList.take 8))
  sideA := m.sideA
  sideB := m.sideB

namespace Snapshot

variable (s : Snapshot) (c : Clock)

/-- The request `_handle_repair` makes. -/
def repairRequest (d : Disruption) : RepairRequest where
  originalSchedule := s.schedule
  config := s.config.scheduleConfig
  intervalMinutes := (s.config.intervalMinutes : Nat)
  players := s.players
  games := s.matchList.map matchFromDto
  matchStates := s.matchStates.map fun row => (row.1, row.2.status)
  disruption := d

def Repairable (payload : Payload) : Prop :=
  ∃ d ∈ payload.toDisruption, ∃ repair, (s.repairRequest d).sliceFor = .ok repair

/-- When a match is due: the tournament's date, at the start of the day and so many slots on. -/
def due (m : MatchDTO) : Option Int :=
  (s.midnight c).bind fun base => (s.slotMinutes m).map fun minutes => base + minutes * minute

/-- The advisories come back, measure from when matches are due, and what they suggest to repair
can be repaired. -/
def Serve (advisories : List Advisory) : Prop :=
  (∀ m t, s.scheduledMatchStartDt c m = .ok (some t) → s.due c m = some t) ∧
    ∀ a ∈ advisories, ∀ action ∈ a.suggestedAction, action.kind = .repair →
      s.Repairable action.payload

end Snapshot

/-! ## When a computation goes through -/

section Loops

variable {ε α β : Type} {f : α → Except ε (Option β)} {l : List α}

theorem gather_goes : (∃ bs, gather f l = .ok bs) ↔ ∀ a ∈ l, ∃ b, f a = .ok b := by
  constructor
  · rintro ⟨bs, h⟩ a ha
    obtain ⟨found, h, -⟩ := bind_eq_ok.mp h
    obtain ⟨b, -, hb⟩ := mapM_mem_of_mem h a ha
    exact ⟨b, hb⟩
  · intro h
    have all : ∃ found, l.mapM f = .ok found := by
      induction l with
      | nil => exact ⟨[], rfl⟩
      | cons a l ih =>
        obtain ⟨b, hb⟩ := h a List.mem_cons_self
        obtain ⟨bs, hbs⟩ := ih fun a' ha' => h a' (List.mem_cons_of_mem a ha')
        refine ⟨b :: bs, ?_⟩
        rw [List.mapM_cons, hb, hbs]
        rfl
    obtain ⟨found, h⟩ := all
    exact ⟨_, bind_eq_ok.mpr ⟨found, h, rfl⟩⟩

theorem mem_gather {bs : List β} (h : gather f l = .ok bs) {b : β} :
    b ∈ bs ↔ ∃ a ∈ l, f a = .ok (some b) := by
  obtain ⟨found, rounds, e⟩ := bind_eq_ok.mp h
  cases e
  rw [List.reduceOption_mem_iff]
  constructor
  · exact mapM_mem rounds (some b)
  · rintro ⟨a, ha, hb⟩
    obtain ⟨b', mem, hb'⟩ := mapM_mem_of_mem rounds a ha
    rw [hb] at hb'
    cases hb'
    exact mem

end Loops

def Clock.stamp (c : Clock) (ts : Option String) : Option Int := (c.reading ts).map Datetime.moment

theorem Clock.parseIso_eq_ok {c : Clock} {ts : Option String} {r : Option Int} :
    c.parseIso ts = .ok r ↔ (∀ t ∈ c.stamp ts, OnCalendar t) ∧ c.stamp ts = r := by
  unfold Clock.parseIso Clock.stamp
  cases c.reading ts with
  | none => simp
  | some d =>
    unfold Datetime.astimezone
    by_cases on : OnCalendar d.moment
    · simp [on, Except.map]
    · simp [on, Except.map]

theorem return_goes {ε α β : Type} {x : Except ε α} {f : α → β} :
    (∃ b, (do let a ← x; return f a) = Except.ok b) ↔ ∃ a, x = .ok a := by
  cases x <;> simp [bind, Except.bind, pure, Except.pure]

theorem map_eq_ok {ε α β : Type} {x : Except ε α} {f : α → β} {b : β} :
    x.map f = .ok b ↔ ∃ a, x = .ok a ∧ f a = b := by
  cases x <;> simp [Except.map]

variable {t base : Int}

theorem later_eq_ok {span u : Int} :
    later t span = .ok u ↔ OnCalendar (t + span) ∧ t + span = u := by
  unfold later
  split
  · next on => simp [on]
  · next off => simp [off]

theorem replaceTime_eq_ok {n : Int} :
    replaceTime base (n / 60) (n % 60) = .ok t ↔ (0 ≤ n ∧ n < 1440) ∧ base + n * minute = t := by
  have whole : n / 60 * 60 + n % 60 = n := Int.ediv_mul_add_emod n 60
  unfold replaceTime
  rw [whole]
  split
  · next fits =>
    have within : 0 ≤ n ∧ n < 1440 := by omega
    simp [within]
  · next late =>
    have beyond : ¬ (0 ≤ n ∧ n < 1440) := by omega
    simp [beyond]

namespace Snapshot

variable {s : Snapshot} {c : Clock} {row : String × MatchState} {m : MatchDTO} {r : Option Advisory}
  {as : List Advisory} {a : Advisory} {extra : Option Int}

def SameDay (s : Snapshot) (c : Clock) (m : MatchDTO) : Prop :=
  (s.midnight c).isSome → ∀ minutes ∈ s.slotMinutes m, 0 ≤ minutes ∧ minutes < 1440

theorem scheduledMatchStartDt_eq_ok {r : Option Int} :
    s.scheduledMatchStartDt c m = .ok r ↔ s.SameDay c m ∧ s.due c m = r := by
  unfold scheduledMatchStartDt SameDay due
  cases s.slotMinutes m with
  | none => cases s.midnight c <;> simp
  | some n =>
    cases s.midnight c with
    | none => simp
    | some base =>
      simp only [map_eq_ok, replaceTime_eq_ok]
      simp

/-! ### One row -/

theorem overrunOf_started (started : row.2.status = .started) :
    s.overrunOf c row = .ok r ↔ (∀ t ∈ c.stamp row.2.actualStartTime, OnCalendar t) ∧
      ((c.stamp row.2.actualStartTime).bind fun t =>
        (s.matchesById.get row.1).bind fun m => s.overrunAdvisory c row.1 m t) = r := by
  unfold overrunOf
  rw [if_pos started]
  simp only [bind_eq_ok, Clock.parseIso_eq_ok]
  simp [pure, Except.pure]

theorem noShowOf_called (called : row.2.status = .called) :
    s.noShowOf c row = .ok r ↔ (∀ t ∈ c.stamp row.2.calledAt, OnCalendar t) ∧
      (c.stamp row.2.calledAt).bind (s.noShowAdvisory c row.1) = r := by
  unfold noShowOf
  rw [if_pos called]
  simp only [bind_eq_ok, Clock.parseIso_eq_ok]
  simp [pure, Except.pure]

def Measurable (s : Snapshot) (c : Clock) (m : MatchDTO) : Prop :=
  s.SameDay c m ∧ ∀ start ∈ s.due c m, OnCalendar (start + s.expectedDuration m)

theorem finishDelta_goes {actualEnd : Int} :
    (∃ r, s.finishDelta c m actualEnd = .ok r) ↔ s.Measurable c m := by
  unfold finishDelta Measurable
  simp only [bind_eq_ok, scheduledMatchStartDt_eq_ok]
  cases s.due c m with
  | none => simp [pure, Except.pure]
  | some start => simp [pure, Except.pure, bind_eq_ok, later_eq_ok]

theorem deltaOf_goes (finished : row.2.status = .finished) :
    (∃ r, s.deltaOf c row = .ok r) ↔ ∀ t ∈ c.stamp row.2.actualEndTime,
      OnCalendar t ∧ ∀ m ∈ s.matchesById.get row.1, s.Measurable c m := by
  unfold deltaOf
  rw [if_pos finished]
  simp only [bind_eq_ok, Clock.parseIso_eq_ok]
  cases c.stamp row.2.actualEndTime with
  | none => simp [pure, Except.pure]
  | some t =>
    cases s.matchesById.get row.1 with
    | none => simp [pure, Except.pure]
    | some m => simp [finishDelta_goes]

theorem blackoutOf_started (started : row.2.status = .started) :
    s.blackoutOf c base row = .ok r ↔
      (∀ t ∈ c.stamp row.2.actualStartTime, OnCalendar t ∧
        ∀ m ∈ s.matchesById.get row.1, OnCalendar (t + s.expectedDuration m)) ∧
      ((c.stamp row.2.actualStartTime).bind fun t => (s.matchesById.get row.1).bind fun m =>
        (s.config.breaks.find? fun b => Overlaps base t (t + s.expectedDuration m) b).map
          (blackoutAdvisory c row.1 m base (t + s.expectedDuration m))) = r := by
  unfold blackoutOf
  rw [if_pos started]
  simp only [bind_eq_ok, Clock.parseIso_eq_ok]
  cases c.stamp row.2.actualStartTime with
  | none => simp [pure, Except.pure]
  | some t =>
    cases s.matchesById.get row.1 with
    | none => simp [pure, Except.pure]
    | some m => simp [pure, Except.pure, bind_eq_ok, later_eq_ok, and_assoc]

/-! ### All rows -/

theorem detectOverruns_goes : (∃ as, s.detectOverruns c = .ok as) ↔
    ∀ row ∈ s.matchStates, row.2.status = .started →
      ∀ t ∈ c.stamp row.2.actualStartTime, OnCalendar t := by
  unfold detectOverruns
  rw [gather_goes]
  refine forall₂_congr fun row _ => ?_
  by_cases started : row.2.status = .started
  · simp [overrunOf_started started, started]
  · simp [overrunOf, started, pure, Except.pure]

theorem mem_detectOverruns (h : s.detectOverruns c = .ok as) :
    a ∈ as ↔ ∃ row ∈ s.matchStates, row.2.status = .started ∧
      ∃ t ∈ c.stamp row.2.actualStartTime, OnCalendar t ∧ ∃ m ∈ s.matchesById.get row.1,
        s.overrunAdvisory c row.1 m t = some a := by
  rw [mem_gather h]
  refine exists_congr fun row => and_congr_right fun _ => ?_
  by_cases started : row.2.status = .started
  · rw [overrunOf_started started]
    cases c.stamp row.2.actualStartTime <;> simp [started, Option.bind_eq_some_iff]
  · simp [overrunOf, started, pure, Except.pure]

theorem detectNoShows_goes : (∃ as, s.detectNoShows c = .ok as) ↔
    ∀ row ∈ s.matchStates, row.2.status = .called →
      ∀ t ∈ c.stamp row.2.calledAt, OnCalendar t := by
  unfold detectNoShows
  rw [gather_goes]
  refine forall₂_congr fun row _ => ?_
  by_cases called : row.2.status = .called
  · simp [noShowOf_called called, called]
  · simp [noShowOf, called, pure, Except.pure]

theorem mem_detectNoShows (h : s.detectNoShows c = .ok as) :
    a ∈ as ↔ ∃ row ∈ s.matchStates, row.2.status = .called ∧
      ∃ t ∈ c.stamp row.2.calledAt, OnCalendar t ∧ s.noShowAdvisory c row.1 t = some a := by
  rw [mem_gather h]
  refine exists_congr fun row => and_congr_right fun _ => ?_
  by_cases called : row.2.status = .called
  · rw [noShowOf_called called]
    cases c.stamp row.2.calledAt <;> simp [called]
  · simp [noShowOf, called, pure, Except.pure]

theorem detectRunningBehind_goes : (∃ as, s.detectRunningBehind c = .ok as) ↔
    (s.Dated → ∀ row ∈ s.matchStates, row.2.status = .finished →
      ∀ t ∈ c.stamp row.2.actualEndTime,
        OnCalendar t ∧ ∀ m ∈ s.matchesById.get row.1, s.Measurable c m) := by
  unfold detectRunningBehind
  by_cases dated : s.Dated
  · rw [if_pos dated, imp_iff_right dated, return_goes, gather_goes]
    refine forall₂_congr fun row _ => ?_
    by_cases finished : row.2.status = .finished
    · rw [deltaOf_goes finished]
      simp only [finished, true_imp_iff]
    · simp [deltaOf, finished, pure, Except.pure]
  · simp [dated, pure, Except.pure]

theorem detectStartDelay_goes : (∃ as, s.detectStartDelay c = .ok as) ↔
    (s.Dated → ∀ p ∈ s.opening, ∀ t ∈ c.stamp p.2.startTs, OnCalendar t ∧ s.SameDay c p.1) := by
  unfold detectStartDelay
  by_cases dated : s.Dated
  · rw [if_pos dated, imp_iff_right dated]
    cases s.opening with
    | none => simp [pure, Except.pure]
    | some p =>
      obtain ⟨m, ms⟩ := p
      simp only [bind_eq_ok, Clock.parseIso_eq_ok, Option.mem_some_iff, forall_eq']
      cases c.stamp ms.startTs with
      | none => simp [pure, Except.pure]
      | some t =>
        cases due : s.due c m <;>
          simp [bind_eq_ok, scheduledMatchStartDt_eq_ok, due, pure, Except.pure]
  · simp [dated, pure, Except.pure]

theorem detectApproachingBlackout_goes : (∃ as, s.detectApproachingBlackout c = .ok as) ↔
    (s.schedule ≠ [] ∧ s.config.breaks ≠ [] → ∀ base ∈ s.midnight c, ∀ row ∈ s.matchStates,
      row.2.status = .started → ∀ t ∈ c.stamp row.2.actualStartTime, OnCalendar t ∧
        ∀ m ∈ s.matchesById.get row.1, OnCalendar (t + s.expectedDuration m)) := by
  unfold detectApproachingBlackout
  by_cases near : s.schedule ≠ [] ∧ s.config.breaks ≠ []
  · rw [if_pos near, imp_iff_right near]
    cases s.midnight c with
    | none => simp [pure, Except.pure]
    | some base =>
      simp only [Option.mem_some_iff, forall_eq']
      rw [gather_goes]
      refine forall₂_congr fun row _ => ?_
      by_cases started : row.2.status = .started
      · simp [blackoutOf_started started, started]
      · simp [blackoutOf, started, pure, Except.pure]
  · simp [near, pure, Except.pure]

theorem mem_detectApproachingBlackout (h : s.detectApproachingBlackout c = .ok as) (ha : a ∈ as) :
    ∃ row ∈ s.matchStates, row.2.status = .started ∧ ∃ t ∈ c.stamp row.2.actualStartTime,
      ∃ m ∈ s.matchesById.get row.1, ∃ base ∈ s.midnight c, ∃ b ∈ s.config.breaks,
        Overlaps base t (t + s.expectedDuration m) b ∧
          a = blackoutAdvisory c row.1 m base (t + s.expectedDuration m) b := by
  unfold detectApproachingBlackout at h
  split at h
  · cases h
    cases ha
  · next base hb =>
    have found : s.midnight c = some base := by
      split at hb
      · exact hb
      · cases hb
    obtain ⟨row, hrow, ok⟩ := (mem_gather h).mp ha
    refine ⟨row, hrow, ?_⟩
    by_cases started : row.2.status = .started
    · rw [blackoutOf_started started] at ok
      obtain ⟨t, ht, ok⟩ := Option.bind_eq_some_iff.mp ok.2
      obtain ⟨m, hm, ok⟩ := Option.bind_eq_some_iff.mp ok
      obtain ⟨b, hb, rfl⟩ := Option.map_eq_some_iff.mp ok
      exact ⟨started, t, ht, m, hm, base, found, b, List.mem_of_find?_eq_some hb,
        by simpa using List.find?_some hb, rfl⟩
    · simp [blackoutOf, started, pure, Except.pure] at ok

theorem exists_blackout (h : s.detectApproachingBlackout c = .ok as) (hrow : row ∈ s.matchStates)
    (started : row.2.status = .started) (ht : c.stamp row.2.actualStartTime = some t)
    (hm : s.matchesById.get row.1 = some m) (hbase : s.midnight c = some base)
    (some_place : s.schedule ≠ []) {b : BreakWindow} (hb : b ∈ s.config.breaks)
    (overlaps : Overlaps base t (t + s.expectedDuration m) b) :
    ∃ b', blackoutAdvisory c row.1 m base (t + s.expectedDuration m) b' ∈ as := by
  unfold detectApproachingBlackout at h
  rw [if_pos ⟨some_place, List.ne_nil_of_mem hb⟩, hbase] at h
  obtain ⟨r, hr⟩ := gather_goes.mp ⟨as, h⟩ row hrow
  have first := ((blackoutOf_started started).mp hr).2
  rw [ht, hm] at first
  have found : (s.config.breaks.find? fun b =>
      decide (Overlaps base t (t + s.expectedDuration m) b)).isSome :=
    List.find?_isSome.mpr ⟨b, hb, by simpa using overlaps⟩
  obtain ⟨b', hb'⟩ := Option.isSome_iff_exists.mp found
  refine ⟨b', (mem_gather h).mpr ⟨row, hrow, ?_⟩⟩
  rw [hr, ← first]
  simp [hb']

/-! ### What can be repaired -/

def HasPlace (s : Snapshot) (id : String) : Prop := ∃ a ∈ s.schedule, a.matchId = id

theorem not_repairable_withdrawal {id : String} :
    ¬ s.Repairable (.disruption .withdrawal id extra) := by
  rintro ⟨d, hd, repair, h⟩
  simp only [Payload.toDisruption] at hd
  split at hd
  · cases hd
    have cut := (RepairRequest.sliceFor_eq_ok h).1
    unfold RepairRequest.slice at cut
    simp [repairRequest] at cut
  · cases hd

theorem repairable_overrun {id : String} (known : s.matchesById.get id = some m) :
    s.Repairable (.disruption .overrun id extra) ↔ s.HasPlace id := by
  have named : Identifier id := by
    rw [← Table.key_of_get known]
    exact s.identified m (Table.mem_ofRows (Table.mem_of_get known))
  have written : id ≠ "" := by
    rintro rfl
    exact absurd named.1 (by decide)
  have listed : (Table.ofRows (s.matchList.map matchFromDto) : Table Engine.Match.id).Has id := by
    rw [Table.has_ofRows, List.map_map]
    exact List.mem_map.mpr ⟨m, Table.mem_ofRows (Table.mem_of_get known), Table.key_of_get known⟩
  obtain ⟨target, hg⟩ := Option.ne_none_iff_exists'.mp
    (mt Table.get_eq_none_iff.mp (not_not.mpr listed))
  have placed : (Table.ofRows s.schedule : Table Assignment.matchId).Has id ↔ s.HasPlace id := by
    rw [Table.has_ofRows]
    exact List.mem_map
  unfold Repairable RepairRequest.sliceFor RepairRequest.slice RepairRequest.assignmentsByMatch
  simp only [Payload.toDisruption, if_pos named, Option.mem_some_iff, exists_eq_left',
    repairRequest, Option.getD_some, if_neg written, hg, ← placed]
  cases hp : (Table.ofRows s.schedule : Table Assignment.matchId).get id with
  | none => simp [Table.get_eq_none_iff.mp hp]
  | some place =>
    have has : (Table.ofRows s.schedule : Table Assignment.matchId).Has id := by
      by_contra absent
      rw [Table.get_eq_none_iff.mpr absent] at hp
      cases hp
    simp [has, pure, Except.pure]

/-! ### When the advisories serve -/

theorem overrunAdvisory_eq_some {id : String} (h : s.overrunAdvisory c id m t = some a) :
    overrunGrace < s.now - t - s.expectedDuration m ∧
      ∃ extra, a.suggestedAction = some ⟨.repair, .disruption .overrun id extra⟩ := by
  unfold overrunAdvisory at h
  dsimp only at h
  split at h
  · cases h
  · next late =>
    cases h
    exact ⟨not_le.mp late, _, rfl⟩

theorem exists_overrunAdvisory (c : Clock) (id : String)
    (late : overrunGrace < s.now - t - s.expectedDuration m) :
    ∃ a, s.overrunAdvisory c id m t = some a := by
  unfold overrunAdvisory
  rw [if_neg (not_le.mpr late)]
  exact ⟨_, rfl⟩

theorem noShowAdvisory_eq_some {id : String} (h : s.noShowAdvisory c id t = some a) :
    noShowThreshold ≤ s.now - t ∧
      a.suggestedAction = some ⟨.repair, .disruption .withdrawal id none⟩ := by
  unfold noShowAdvisory at h
  dsimp only at h
  split at h
  · cases h
  · next idle =>
    cases h
    exact ⟨not_lt.mp idle, rfl⟩

theorem exists_noShowAdvisory (c : Clock) (id : String) (idle : noShowThreshold ≤ s.now - t) :
    ∃ a, s.noShowAdvisory c id t = some a := by
  unfold noShowAdvisory
  rw [if_neg (not_lt.mpr idle)]
  exact ⟨_, rfl⟩

theorem mem_detectRunningBehind (h : s.detectRunningBehind c = .ok as) (ha : a ∈ as) :
    a.suggestedAction = some ⟨.warmRestart, .stayCloseWeight 5⟩ := by
  unfold detectRunningBehind at h
  split at h
  · obtain ⟨deltas, -, e⟩ := bind_eq_ok.mp h
    cases e
    unfold runningBehindAdvisory at ha
    dsimp only at ha
    split at ha
    · cases ha
    · rw [List.mem_singleton.mp ha]
  · cases h
    cases ha

theorem mem_detectStartDelay (h : s.detectStartDelay c = .ok as) (ha : a ∈ as) :
    ∃ delay, a.suggestedAction = some ⟨.delayStart, .minutes delay⟩ := by
  unfold detectStartDelay at h
  split at h
  · cases h
    cases ha
  · obtain ⟨actualStart, -, h⟩ := bind_eq_ok.mp h
    cases actualStart with
    | none =>
      cases h
      cases ha
    | some t =>
      obtain ⟨scheduledStart, -, h⟩ := bind_eq_ok.mp h
      cases scheduledStart with
      | none =>
        cases h
        cases ha
      | some start =>
        cases h
        unfold startDelayAdvisory at ha
        dsimp only at ha
        split at ha
        · cases ha
        · rw [List.mem_singleton.mp ha]
          exact ⟨_, rfl⟩

/-- No time that is read leaves the calendar and no match that is measured starts after midnight;
no called match waits for three minutes; and a started match that runs over or into a break has
a place in the plan. -/
structure Clear (s : Snapshot) (c : Clock) : Prop where
  started : ∀ row ∈ s.matchStates, row.2.status = .started →
    ∀ t ∈ c.stamp row.2.actualStartTime, OnCalendar t
  overrun : ∀ row ∈ s.matchStates, row.2.status = .started →
    ∀ t ∈ c.stamp row.2.actualStartTime, ∀ m ∈ s.matchesById.get row.1,
      overrunGrace < s.now - t - s.expectedDuration m → s.HasPlace row.1
  called : ∀ row ∈ s.matchStates, row.2.status = .called →
    ∀ t ∈ c.stamp row.2.calledAt, OnCalendar t ∧ s.now - t < noShowThreshold
  finished : s.Dated → ∀ row ∈ s.matchStates, row.2.status = .finished →
    ∀ t ∈ c.stamp row.2.actualEndTime,
      OnCalendar t ∧ ∀ m ∈ s.matchesById.get row.1, s.Measurable c m
  opening : s.Dated → ∀ p ∈ s.opening, ∀ t ∈ c.stamp p.2.startTs, OnCalendar t ∧ s.SameDay c p.1
  breaks : s.schedule ≠ [] ∧ s.config.breaks ≠ [] → ∀ base ∈ s.midnight c,
    ∀ row ∈ s.matchStates, row.2.status = .started → ∀ t ∈ c.stamp row.2.actualStartTime,
      ∀ m ∈ s.matchesById.get row.1, OnCalendar (t + s.expectedDuration m) ∧
        ∀ b ∈ s.config.breaks, Overlaps base t (t + s.expectedDuration m) b → s.HasPlace row.1

theorem advisories_eq_ok (h : s.advisories c = .ok as) :
    ∃ overruns noShows runningBehind startDelay blackouts, s.detectOverruns c = .ok overruns ∧
      s.detectNoShows c = .ok noShows ∧ s.detectRunningBehind c = .ok runningBehind ∧
      s.detectStartDelay c = .ok startDelay ∧ s.detectApproachingBlackout c = .ok blackouts ∧
      ∀ a, a ∈ as ↔ a ∈ overruns ∨ a ∈ noShows ∨ a ∈ runningBehind ∨ a ∈ startDelay ∨
        a ∈ blackouts := by
  unfold advisories at h
  simp only [bind_eq_ok] at h
  obtain ⟨o, ho, n, hn, r, hr, d, hd, b, hb, e⟩ := h
  cases e
  exact ⟨o, n, r, d, b, ho, hn, hr, hd, hb, by simp [List.mem_mergeSort]⟩

theorem clear_of_serve (h : s.advisories c = .ok as) (serve : s.Serve c as) : s.Clear c := by
  obtain ⟨o, n, r, d, b, ho, hn, hr, hd, hb, mem⟩ := advisories_eq_ok h
  have read := detectOverruns_goes.mp ⟨o, ho⟩
  have repaired {a : Advisory} {payload : Payload} (ha : a ∈ as)
      (suggests : a.suggestedAction = some ⟨.repair, payload⟩) : s.Repairable payload :=
    serve.2 a ha _ suggests rfl
  constructor
  · exact read
  · intro row hrow started t ht m hm late
    obtain ⟨a, ha⟩ := exists_overrunAdvisory c row.1 late
    obtain ⟨extra, suggests⟩ := (overrunAdvisory_eq_some ha).2
    have told : a ∈ o := (mem_detectOverruns ho).mpr
      ⟨row, hrow, started, t, ht, read row hrow started t ht, m, hm, ha⟩
    exact (repairable_overrun hm).mp (repaired ((mem a).mpr (.inl told)) suggests)
  · intro row hrow called t ht
    have on := detectNoShows_goes.mp ⟨n, hn⟩ row hrow called t ht
    refine ⟨on, ?_⟩
    by_contra waits
    obtain ⟨a, ha⟩ := exists_noShowAdvisory c row.1 (not_lt.mp waits)
    have told : a ∈ n := (mem_detectNoShows hn).mpr ⟨row, hrow, called, t, ht, on, ha⟩
    exact not_repairable_withdrawal
      (repaired ((mem a).mpr (.inr (.inl told))) (noShowAdvisory_eq_some ha).2)
  · exact detectRunningBehind_goes.mp ⟨r, hr⟩
  · exact detectStartDelay_goes.mp ⟨d, hd⟩
  · intro near base hbase row hrow started t ht m hm
    have on := detectApproachingBlackout_goes.mp ⟨b, hb⟩ near base hbase row hrow started t ht
    refine ⟨on.2 m hm, fun blackout hblackout overlaps => ?_⟩
    obtain ⟨b', told⟩ :=
      exists_blackout hb hrow started ht hm hbase near.1 hblackout overlaps
    exact (repairable_overrun hm).mp
      (repaired ((mem _).mpr (.inr (.inr (.inr (.inr told))))) rfl)

theorem serve_of_clear (clear : s.Clear c) : ∃ as, s.advisories c = .ok as ∧ s.Serve c as := by
  obtain ⟨o, ho⟩ := detectOverruns_goes.mpr clear.started
  obtain ⟨n, hn⟩ := detectNoShows_goes.mpr fun row hrow called t ht =>
    (clear.called row hrow called t ht).1
  obtain ⟨r, hr⟩ := detectRunningBehind_goes.mpr clear.finished
  obtain ⟨d, hd⟩ := detectStartDelay_goes.mpr clear.opening
  obtain ⟨b, hb⟩ := detectApproachingBlackout_goes.mpr fun near base hbase row hrow started t ht =>
    ⟨clear.started row hrow started t ht, fun m hm =>
      (clear.breaks near base hbase row hrow started t ht m hm).1⟩
  obtain ⟨as, h⟩ : ∃ as, s.advisories c = .ok as := by
    unfold advisories
    rw [ho, hn, hr, hd, hb]
    exact ⟨_, rfl⟩
  obtain ⟨o, n, r, d, b, ho, hn, hr, hd, hb, mem⟩ := advisories_eq_ok h
  refine ⟨as, h, fun m t start => (scheduledMatchStartDt_eq_ok.mp start).2, ?_⟩
  intro a ha action suggests repair
  rcases (mem a).mp ha with ha | ha | ha | ha | ha
  · obtain ⟨row, hrow, started, t, ht, -, m, hm, told⟩ := (mem_detectOverruns ho).mp ha
    obtain ⟨late, extra, e⟩ := overrunAdvisory_eq_some told
    rw [e] at suggests
    cases suggests
    exact (repairable_overrun hm).mpr (clear.overrun row hrow started t ht m hm late)
  · -- nobody waits long enough to be told of
    obtain ⟨row, hrow, called, t, ht, -, told⟩ := (mem_detectNoShows hn).mp ha
    have waits := (noShowAdvisory_eq_some told).1
    exact absurd (clear.called row hrow called t ht).2 (not_lt.mpr waits)
  · rw [mem_detectRunningBehind hr ha] at suggests
    cases suggests
    cases repair
  · obtain ⟨delay, e⟩ := mem_detectStartDelay hd ha
    rw [e] at suggests
    cases suggests
    cases repair
  · obtain ⟨row, hrow, started, t, ht, m, hm, base, hbase, blackout, hblackout, overlaps, rfl⟩ :=
      mem_detectApproachingBlackout hb ha
    cases suggests
    have near : s.schedule ≠ [] ∧ s.config.breaks ≠ [] := by
      by_contra far
      unfold detectApproachingBlackout at hb
      rw [if_neg far] at hb
      cases hb
      cases ha
    exact (repairable_overrun hm).mpr
      ((clear.breaks near base hbase row hrow started t ht m hm).2 blackout hblackout overlaps)

end Snapshot

/-- **What the advisories can be relied on for.** They come back, measure from when matches are
due and suggest repairs that can be made, exactly when the state is clear. -/
theorem advisories_serve (c : Clock) (state : Option TournamentState)
    (matchStates : List (String × MatchState)) (now : Int) :
    (∃ as, collectAdvisories c state matchStates now = .ok as ∧
      ∀ s ∈ state.bind fun state => state.snapshot matchStates now, s.Serve c as) ↔
    ∀ s ∈ state.bind fun state => state.snapshot matchStates now, s.Clear c := by
  unfold collectAdvisories
  cases state.bind fun state => state.snapshot matchStates now with
  | none => simp [pure, Except.pure]
  | some s =>
    simp only [Option.mem_some_iff, forall_eq']
    constructor
    · rintro ⟨as, h, serve⟩
      exact Snapshot.clear_of_serve h serve
    · exact Snapshot.serve_of_clear

/-! ## An evening that runs past midnight -/

/-- The 15th of February 2026, and so many minutes. -/
def february (minutes : Nat) (h : minutes < 10000) : Datetime where
  clock := 739661 * day + minutes * minute
  onCalendar := by
    have unit : minute = 60000000 := rfl
    have length : day = 86400000000 := rfl
    rw [OnCalendar, calendarEnd, length, unit]
    omega

def wallClock : Clock where
  fromisoformat text :=
    if text = "2026-02-15" then some (february 0 (by decide))
    else if text = "2026-02-15T18:02:00" then some (february 1082 (by decide))
    else if text = "2026-02-16T00:25:00" then some (february 1465 (by decide))
    else none
  nowIso _ := "2026-02-16T00:30:00Z"

/-- A final planned at a slot of a day that starts at six in the evening. -/
def evening (slotId : Int) : TournamentState where
  config := some {
    intervalMinutes := Nat.succPNat 29
    dayStart := ⟨⟨18, by decide⟩, ⟨0, by decide⟩⟩
    dayEnd := ⟨⟨2, by decide⟩, ⟨0, by decide⟩⟩
    courtCount := 1
    defaultRestMinutes := 0
    freezeHorizonSlots := 0
    tournamentDate := some "2026-02-15" }
  matchList := [{ id := "final" }]
  schedule := some [⟨"final", slotId, 1, 1⟩]
  identified := by decide +kernel

def ended : List (String × MatchState) :=
  [("final", { status := .finished, actualEndTime := some "2026-02-16T00:25:00" })]

def calledAtSix : List (String × MatchState) :=
  [("final", { status := .called, calledAt := some "2026-02-15T18:02:00" })]

/-- A final planned for midnight cannot be measured, and a call nobody answers for five minutes
suggests a withdrawal of nobody. -/
theorem advisories_fail :
    collectAdvisories wallClock (some (evening 12)) ended (february 1470 (by decide)).clock =
      .error .valueError ∧
    ¬ ∃ as, collectAdvisories wallClock (some (evening 0)) calledAtSix
        (february 1087 (by decide)).clock = .ok as ∧
      ∀ s ∈ (some (evening 0)).bind fun state =>
        state.snapshot calledAtSix (february 1087 (by decide)).clock, s.Serve wallClock as := by
  constructor
  · decide +kernel
  · rintro ⟨as, h, serve⟩
    have clear := Snapshot.clear_of_serve h (serve _ rfl)
    have waits := (clear.called _ (List.mem_singleton_self _) rfl _ rfl).2
    revert waits
    decide +kernel

end Meet.Advisories
