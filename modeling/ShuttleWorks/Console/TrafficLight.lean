import Mathlib.Data.Rat.Floor
import Mathlib.Data.String.Basic
import ShuttleWorks.Lib.Assoc

/-! The traffic light of a match that is to be called: red while one of its players is committed to
another match, yellow while one rests, green otherwise. Times are texts, the slots of which are
numbers that may be NaN. -/

namespace Console.TrafficLight
open Lib

/-! ## Numbers and times -/

/-- `Number` on texts, NaN where it cannot read one, and `String` on numbers. No numeral has a `T`
in it. -/
structure Js where
  number : String → Option ℚ
  text : ℚ → String
  number_of_T : ∀ text : String, 'T' ∈ text.toList → number text = none

structure TournamentConfig where
  dayStart : String
  dayEnd : String
  intervalMinutes : Nat
  intervalPos : 0 < intervalMinutes
  defaultRestMinutes : Nat

def jsLess (a b : Option ℚ) : Bool :=
  match a, b with
  | some a, some b => a < b
  | _, _ => false

def jsAtMost (a b : Option ℚ) : Bool :=
  match a, b with
  | some a, some b => a ≤ b
  | _, _ => false

section

variable (js : Js)

def timeToMinutes (time : String) : Option ℚ :=
  match (time.toList.splitOn ':').map (fun piece => js.number (String.ofList piece)) with
  | h :: m :: _ => h.bind (fun h => m.map (fun m => h * 60 + m))
  | _ => none

def timeToSlot (time : String) (config : TournamentConfig) : Option Int :=
  let start := timeToMinutes js config.dayStart
  let stop := timeToMinutes js config.dayEnd
  let t := timeToMinutes js time
  let t := if jsAtMost stop start && jsLess t start then t.map (fun t => t + 1440) else t
  t.bind (fun t => start.map (fun start => ⌊(t - start) / config.intervalMinutes⌋))

end

/-- A date without a colon, a `T` and the time of day. -/
def IsIso (time : String) : Prop :=
  ∃ date clock : List Char, time.toList = date ++ 'T' :: clock ∧ ':' ∉ date

/-! ## Matches -/

inductive MatchStateStatus
  | scheduled | called | started | finished | retired
  deriving DecidableEq, Repr

structure MatchStateDTO where
  status : MatchStateStatus
  actualEndTime : Option String := none
  deriving DecidableEq

structure MatchDTO where
  id : String
  matchNumber : Option Nat := none
  eventRank : Option String := none
  sideA : List String := []
  sideB : List String := []
  sideC : List String := []

structure PlayerDTO where
  id : String
  name : String
  minRestMinutes : Option Nat := none

structure ScheduleAssignment where
  matchId : String
  slotId : Nat
  durationSlots : Nat

def getMatchPlayerIds (m : MatchDTO) : List String := m.sideA ++ m.sideB ++ m.sideC

/-! ## Labels -/

structure MeetMatchIdentity where
  eventCode : String
  position : Option ℚ
  sequence : Option Nat

/-- The characters that `trim` takes off. -/
def isSpace (c : Char) : Bool :=
  c.toNat ∈ [9, 10, 11, 12, 13, 32, 160, 5760, 8232, 8233, 8239, 8287, 12288, 65279] ||
    (8192 ≤ c.toNat && c.toNat ≤ 8202)

def trim (text : String) : List Char :=
  ((text.toList.dropWhile isSpace).reverse.dropWhile isSpace).reverse

section

variable (js : Js)

/-- The code and the position of a rank such as `MS1`; no event codes are configured. -/
def decomposeMeetEventRank (eventRank : Option String) : String × Option ℚ :=
  let rank := trim (eventRank.getD "")
  match rank.span Char.isUpper with
  | (_ :: _, first :: digits) =>
    if first ≠ '0' ∧ (first :: digits).all Char.isDigit then
      (String.ofList (rank.takeWhile Char.isUpper), js.number (String.ofList (first :: digits)))
    else (String.ofList rank, none)
  | _ => (String.ofList rank, none)

def meetMatchIdentityFromStored (eventRank : Option String) (sequence : Option Nat) :
    MeetMatchIdentity :=
  let (eventCode, position) := decomposeMeetEventRank js eventRank
  ⟨eventCode, position, sequence⟩

/-- The branch of a meet; the other one labels brackets. -/
def formatMatchIdentity (identity : MeetMatchIdentity) (machineId : String) : String :=
  if identity.eventCode ≠ "" then
    identity.eventCode ++ (identity.position.map js.text).getD ""
  else
    match identity.sequence with
    | some sequence => "M" ++ toString sequence
    | none => String.ofList (machineId.toList.take 6)

def orUnknown (label : String) : String := if label = "" then "?" else label

def getMatchLabel (m : MatchDTO) : String :=
  orUnknown (formatMatchIdentity js (meetMatchIdentityFromStored js m.eventRank m.matchNumber) m.id)

end

/-- What the lights are computed from. -/
structure Board where
  js : Js
  assignments : List ScheduleAssignment
  games : List MatchDTO
  matchStates : List (String × MatchStateDTO)
  players : List PlayerDTO
  config : TournamentConfig
  currentSlot : Int

namespace Board

variable (b : Board) (excludeMatchId : String) (playerId : String)

def stateOf (id : String) : Option MatchStateDTO := Assoc.get id b.matchStates

def assignmentOf (id : String) : Option ScheduleAssignment :=
  b.assignments.find? (fun a => a.matchId = id)

/-- `excludeMatchId && match.id === excludeMatchId`. -/
def excluded (m : MatchDTO) : Prop := excludeMatchId ≠ "" ∧ m.id = excludeMatchId

instance (m : MatchDTO) : Decidable (excluded excludeMatchId m) :=
  inferInstanceAs (Decidable (_ ∧ _))

def committed (m : MatchDTO) : Bool :=
  match b.stateOf m.id with
  | some state => state.status = .called || state.status = .started
  | none => false

/-- `isPlayerActive`: the first match that the player is committed to. -/
def isPlayerActive : Option MatchDTO :=
  b.games.find? (fun m => !decide (excluded excludeMatchId m) && b.committed m &&
    (getMatchPlayerIds m).contains playerId)

/-- The slot a match ended at, or was to end at where no end was noted. -/
def endSlot (state : MatchStateDTO) (assignment : ScheduleAssignment) : Option Int :=
  match state.actualEndTime.filter (fun t => t ≠ "") with
  | some time => timeToSlot b.js time b.config
  | none => some (assignment.slotId + assignment.durationSlots : Nat)

structure LastFinished where
  assignment : ScheduleAssignment
  state : MatchStateDTO
  game : MatchDTO

/-- One match of the scan; the latest end is a number, so NaN never exceeds it. -/
def scanFinished (found : Int × Option LastFinished) (m : MatchDTO) : Int × Option LastFinished :=
  if excluded excludeMatchId m then found
  else
    match b.stateOf m.id with
    | none => found
    | some state =>
      if state.status ≠ .finished then found
      else if (getMatchPlayerIds m).contains playerId = false then found
      else
        match b.assignmentOf m.id with
        | none => found
        | some assignment =>
          match b.endSlot state assignment with
          | none => found
          | some stop => if found.1 < stop then (stop, some ⟨assignment, state, m⟩) else found

def findLastFinishedMatch : Option LastFinished :=
  (b.games.foldl (b.scanFinished excludeMatchId playerId) (-1, none)).2

/-- `Math.ceil(minutes / interval)`. -/
def restSlots : Nat :=
  let minutes := ((b.players.find? (fun p => p.id = playerId)).bind
    PlayerDTO.minRestMinutes).getD b.config.defaultRestMinutes
  (minutes + b.config.intervalMinutes - 1) / b.config.intervalMinutes

def isPlayerResting : Option (Int × MatchDTO) :=
  match b.findLastFinishedMatch excludeMatchId playerId with
  | none => none
  | some last =>
    match b.endSlot last.state last.assignment with
    | none => none
    | some stop =>
      let availableAtSlot := stop + b.restSlots playerId
      if b.currentSlot < availableAtSlot then some (availableAtSlot, last.game) else none

end Board

/-! ## The light -/

inductive Availability
  | available
  | active (reason : String) (matchId : String)
  | resting (reason : String) (matchId : String) (availableAtSlot : Int)
  deriving DecidableEq

structure PlayerStatus where
  playerId : String
  playerName : String
  status : Availability

inductive Light
  | green | yellow | red
  deriving DecidableEq, Repr

structure TrafficLightResult where
  status : Light
  reason : Option String := none
  blockedBy : List String := []
  playersBlocked : List String := []
  playersResting : List String := []
  availableInSlots : Option Int := none

def slotsText (slots : Int) : String := toString slots ++ " slot" ++ (if slots = 1 then "" else "s")

namespace Board

variable (b : Board) (matchId : String)

def playerName (playerId : String) : String :=
  ((b.players.find? (fun p => p.id = playerId)).map PlayerDTO.name |>.filter (fun n => n ≠ "")).getD
    playerId

def availability (playerId : String) : Availability :=
  match b.isPlayerActive matchId playerId with
  | some m =>
    let called := (b.stateOf m.id).any (fun state => decide (state.status = .called))
    .active ((if called then "Called to" else "Playing") ++ " " ++ getMatchLabel b.js m) m.id
  | none =>
    match b.isPlayerResting matchId playerId with
    | some (availableAtSlot, m) =>
      .resting ("Resting after " ++ getMatchLabel b.js m ++ " (" ++
        slotsText (availableAtSlot - b.currentSlot) ++ " remaining)") m.id availableAtSlot
    | none => .available

def playersIn : List String :=
  match b.games.find? (fun m => m.id = matchId) with
  | none => []
  | some m => getMatchPlayerIds m

def getPlayerStatuses : List PlayerStatus :=
  (b.playersIn matchId).map (fun playerId =>
    { playerId := playerId
      playerName := b.playerName playerId
      status := b.availability matchId playerId })

end Board

/-- The players who are committed elsewhere, with the reasons and the matches. -/
def activePlayers (statuses : List PlayerStatus) : List (String × String × String) :=
  statuses.filterMap (fun s =>
    match s.status with
    | .active reason matchId => some (s.playerName, reason, matchId)
    | _ => none)

/-- The players who rest, with the reasons and the slots they have rested by. -/
def restingPlayers (statuses : List PlayerStatus) : List (String × String × Int) :=
  statuses.filterMap (fun s =>
    match s.status with
    | .resting reason _ availableAtSlot => some (s.playerName, reason, availableAtSlot)
    | _ => none)

/-- `Math.max(...slots)`. -/
def latest : List Int → Int
  | [] => 0
  | slot :: rest => rest.foldl max slot

namespace Board

variable (b : Board) (matchId : String)

def ToCall : Prop := ∀ state ∈ b.stateOf matchId,
  state.status ≠ .called ∧ state.status ≠ .started ∧ state.status ≠ .finished

instance : Decidable (b.ToCall matchId) := by
  unfold ToCall
  cases b.stateOf matchId with
  | none => exact .isTrue (fun _ h => nomatch h)
  | some state =>
    exact decidable_of_iff (state.status ≠ .called ∧ state.status ≠ .started ∧
      state.status ≠ .finished) (by simp)

def computeTrafficLight : TrafficLightResult :=
  match (b.stateOf matchId).map MatchStateDTO.status with
  | some .started | some .finished => { status := .green }
  | some .called => { status := .green, reason := some "Already called" }
  | _ =>
    let statuses := b.getPlayerStatuses matchId
    let active := activePlayers statuses
    let resting := restingPlayers statuses
    if active ≠ [] then
      { status := .red
        reason := some (match active with
          | [(name, reason, _)] => name ++ " is " ++ reason
          | _ => "; ".intercalate (active.map (fun x => x.1 ++ ": " ++ x.2.1)))
        blockedBy := (active.map (fun x => x.2.2)).filter (fun id => id ≠ "")
        playersBlocked := active.map Prod.fst }
    else if resting ≠ [] then
      let remaining := latest (resting.map (fun x => x.2.2)) - b.currentSlot
      { status := .yellow
        reason := some (match resting with
          | [(name, reason, _)] => name ++ " is " ++ reason
          | _ => " & ".intercalate (resting.map Prod.fst) ++ " are resting (" ++
              slotsText remaining ++ ")")
        playersResting := resting.map Prod.fst
        availableInSlots := some remaining }
    else { status := .green, reason := some "Ready to call" }

end Board

/-! ## What the light may say -/

namespace Board

variable (b : Board) (matchId : String) (playerId : String)

def Busy : Prop := ∃ m ∈ b.games, m.id ≠ matchId ∧ playerId ∈ getMatchPlayerIds m ∧
  ∃ state, b.stateOf m.id = some state ∧ (state.status = .called ∨ state.status = .started)

/-- The player finished another match that has its place in the schedule. -/
def FinishedElsewhere (state : MatchStateDTO) (a : ScheduleAssignment) : Prop :=
  ∃ m ∈ b.games, m.id ≠ matchId ∧ playerId ∈ getMatchPlayerIds m ∧
    b.stateOf m.id = some state ∧ state.status = .finished ∧ b.assignmentOf m.id = some a

/-- The slot a match ended at: that of the time noted, or the planned one. -/
def endedAt (slotOf : String → Int) (state : MatchStateDTO) (a : ScheduleAssignment) : Int :=
  match state.actualEndTime with
  | some time => slotOf time
  | none => (a.slotId + a.durationSlots : Nat)

def Tired (slotOf : String → Int) : Prop :=
  ∃ state a, b.FinishedElsewhere matchId playerId state a ∧
    b.currentSlot < endedAt slotOf state a + b.restSlots playerId

/-- A match that is to be called is green only if nobody in it is busy or tired. -/
def GreenIsReady (slotOf : String → Int) : Prop :=
  b.ToCall matchId → (b.computeTrafficLight matchId).status = .green →
    ∀ playerId ∈ b.playersIn matchId,
      ¬ b.Busy matchId playerId ∧ ¬ b.Tired matchId playerId slotOf

def EndsInIso : Prop := ∀ x ∈ b.matchStates, ∀ time ∈ x.2.actualEndTime, IsIso time

/-- Somebody in the match is busy, or rests after a match without a noted end, or else nobody
rests after one with a noted end. -/
def OtherwiseBlocked (slotOf : String → Int) : Prop :=
  b.ToCall matchId →
    (∃ playerId ∈ b.playersIn matchId, b.Busy matchId playerId ∨
      ∃ state a, b.FinishedElsewhere matchId playerId state a ∧ state.actualEndTime = none ∧
        b.currentSlot < endedAt slotOf state a + b.restSlots playerId) ∨
    ∀ playerId ∈ b.playersIn matchId, ∀ state a, b.FinishedElsewhere matchId playerId state a →
      state.actualEndTime.isSome → endedAt slotOf state a + b.restSlots playerId ≤ b.currentSlot

end Board

/-- The first piece of an ISO text has the `T` in it. -/
theorem splitOn_iso (date clock : List Char) (plain : ':' ∉ date) :
    ∃ piece rest, (date ++ 'T' :: clock).splitOn ':' = piece :: rest ∧ 'T' ∈ piece := by
  induction date with
  | nil =>
    obtain ⟨piece, rest, split⟩ := List.exists_cons_of_ne_nil
      (List.splitOnP_ne_nil (· == ':') clock)
    refine ⟨'T' :: piece, rest, ?_, List.mem_cons_self⟩
    rw [List.nil_append, List.splitOn, List.splitOnP_cons_eq_if_modifyHead, split]
    rfl
  | cons c date ih =>
    rw [List.mem_cons, not_or] at plain
    obtain ⟨piece, rest, split, mem⟩ := ih plain.2
    refine ⟨c :: piece, rest, ?_, List.mem_cons_of_mem c mem⟩
    have other : (c == ':') = false := beq_eq_false_iff_ne.mpr (Ne.symm plain.1)
    rw [List.splitOn] at split ⊢
    rw [List.cons_append, List.splitOnP_cons_eq_if_modifyHead, split, other]
    rfl

variable {time : String}

/-- **An ISO text has no slot.** -/
theorem timeToSlot_iso (js : Js) (iso : IsIso time) (config : TournamentConfig) :
    timeToSlot js time config = none := by
  obtain ⟨date, clock, text, plain⟩ := iso
  obtain ⟨piece, rest, split, mem⟩ := splitOn_iso date clock plain
  have minutes : timeToMinutes js time = none := by
    unfold timeToMinutes
    rw [text, split, List.map_cons, js.number_of_T _ (by simpa using mem)]
    cases rest <;> rfl
  unfold timeToSlot
  simp [minutes]

section

variable {b : Board} {matchId playerId : String} {slotOf : String → Int} {m : MatchDTO}

theorem ToCall.ne (toCall : b.ToCall matchId) {id : String} {state : MatchStateDTO}
    (found : b.stateOf id = some state)
    (busy : state.status = .called ∨ state.status = .started ∨ state.status = .finished) :
    id ≠ matchId := by
  rintro rfl
  obtain ⟨called, started, finished⟩ := toCall state found
  rcases busy with h | h | h
  · exact called h
  · exact started h
  · exact finished h

theorem committed_iff : b.committed m = true ↔ ∃ state, b.stateOf m.id = some state ∧
    (state.status = .called ∨ state.status = .started) := by
  unfold Board.committed
  cases b.stateOf m.id <;> simp

theorem isPlayerActive_isSome (toCall : b.ToCall matchId) :
    (b.isPlayerActive matchId playerId).isSome ↔ b.Busy matchId playerId := by
  rw [Board.isPlayerActive, List.find?_isSome]
  constructor
  · rintro ⟨m, hm, passes⟩
    simp only [Bool.and_eq_true, committed_iff, List.contains_iff_mem] at passes
    obtain ⟨⟨-, state, found, busy⟩, mem⟩ := passes
    exact ⟨m, hm, ToCall.ne toCall found (by tauto), mem, state, found, busy⟩
  · rintro ⟨m, hm, other, mem, state, found, busy⟩
    have apart : decide (Board.excluded matchId m) = false := decide_eq_false fun h => other h.2
    refine ⟨m, hm, ?_⟩
    simp only [apart, Bool.not_false, Bool.true_and, Bool.and_eq_true, committed_iff,
      List.contains_iff_mem]
    exact ⟨⟨state, found, busy⟩, mem⟩

/-! ## The last finished match -/

/-- A match that the scan looks at. -/
def Scanned (b : Board) (matchId playerId : String) (m : MatchDTO) (state : MatchStateDTO)
    (a : ScheduleAssignment) : Prop :=
  ¬ Board.excluded matchId m ∧ b.stateOf m.id = some state ∧ state.status = .finished ∧
    playerId ∈ getMatchPlayerIds m ∧ b.assignmentOf m.id = some a

theorem scanFinished_scanned {found : Int × Option Board.LastFinished} {state : MatchStateDTO}
    {a : ScheduleAssignment} (h : Scanned b matchId playerId m state a) :
    b.scanFinished matchId playerId found m =
      match b.endSlot state a with
      | none => found
      | some stop => if found.1 < stop then (stop, some ⟨a, state, m⟩) else found := by
  obtain ⟨own, known, finished, mem, placed⟩ := h
  have listed : (getMatchPlayerIds m).contains playerId = true := List.contains_iff_mem.mpr mem
  simp only [Board.scanFinished, if_neg own, known, finished, listed, placed, ne_eq,
    not_true_eq_false, ↓reduceIte, Bool.true_eq_false]

theorem scanFinished_other {found : Int × Option Board.LastFinished}
    (h : ∀ state a, ¬ Scanned b matchId playerId m state a) :
    b.scanFinished matchId playerId found m = found := by
  unfold Board.scanFinished
  split
  · rfl
  next own =>
  split
  · rfl
  next state known =>
  split
  · rfl
  next finished =>
  split
  · rfl
  next listed =>
  split
  · rfl
  next a placed =>
  rw [Bool.not_eq_false, List.contains_iff_mem] at listed
  exact absurd ⟨own, known, not_not.mp finished, listed, placed⟩ (h state a)

/-- What the scan has found in some matches: an end that none of them exceeds. -/
structure Latest (b : Board) (matchId playerId : String) (seen : List MatchDTO)
    (found : Int × Option Board.LastFinished) : Prop where
  start : -1 ≤ found.1
  bound : ∀ m ∈ seen, ∀ state a stop, Scanned b matchId playerId m state a →
    b.endSlot state a = some stop → stop ≤ found.1
  none : found.2 = none → found.1 = -1
  some : ∀ last ∈ found.2, last.game ∈ seen ∧
    Scanned b matchId playerId last.game last.state last.assignment ∧
      b.endSlot last.state last.assignment = some found.1 ∧ -1 < found.1

theorem Latest.step {seen : List MatchDTO} {found : Int × Option Board.LastFinished}
    (h : Latest b matchId playerId seen found) (m : MatchDTO) :
    Latest b matchId playerId (seen ++ [m]) (b.scanFinished matchId playerId found m) := by
  -- where the scan finds nothing, what was found is still the latest
  have same : (∀ state a stop, Scanned b matchId playerId m state a →
      b.endSlot state a = Option.some stop → stop ≤ found.1) →
        Latest b matchId playerId (seen ++ [m]) found := by
    intro bounded
    refine ⟨h.start, fun m' hm' => ?_, h.none, fun last hl => ?_⟩
    · rcases List.mem_append.mp hm' with old | new
      · exact h.bound m' old
      · obtain rfl := List.mem_singleton.mp new
        exact bounded
    · obtain ⟨mem, rest⟩ := h.some last hl
      exact ⟨List.mem_append_left _ mem, rest⟩
  by_cases scanned : ∃ state a, Scanned b matchId playerId m state a
  · obtain ⟨state, a, scanned⟩ := scanned
    have only : ∀ state' a', Scanned b matchId playerId m state' a' → state' = state ∧ a' = a := by
      intro state' a' other
      exact ⟨Option.some.inj (other.2.1.symm.trans scanned.2.1),
        Option.some.inj (other.2.2.2.2.symm.trans scanned.2.2.2.2)⟩
    rw [scanFinished_scanned scanned]
    cases ended : b.endSlot state a with
    | none =>
      apply same
      intro state' a' stop other e
      obtain ⟨rfl, rfl⟩ := only state' a' other
      rw [ended] at e
      cases e
    | some stop =>
      dsimp only
      split
      · next later =>
        refine ⟨le_trans h.start (le_of_lt later), ?_, (fun h => nomatch h), ?_⟩
        · intro m' hm' state' a' stop' other e
          rcases List.mem_append.mp hm' with old | new
          · exact le_trans (h.bound m' old state' a' stop' other e) (le_of_lt later)
          · obtain rfl := List.mem_singleton.mp new
            obtain ⟨rfl, rfl⟩ := only state' a' other
            rw [ended] at e
            exact le_of_eq (Option.some.inj e).symm
        · intro last hl
          cases hl
          exact ⟨List.mem_append_right _ (List.mem_singleton_self m), scanned, ended,
            lt_of_le_of_lt h.start later⟩
      · next earlier =>
        apply same
        intro state' a' stop' other e
        obtain ⟨rfl, rfl⟩ := only state' a' other
        rw [ended] at e
        exact Option.some.inj e ▸ not_lt.mp earlier
  · rw [scanFinished_other fun state a h => scanned ⟨state, a, h⟩]
    exact same fun state a _ h => absurd ⟨state, a, h⟩ scanned

theorem findLast_latest (b : Board) (matchId playerId : String) :
    Latest b matchId playerId b.games
      (b.games.foldl (b.scanFinished matchId playerId) (-1, none)) := by
  suffices ∀ (rest seen : List MatchDTO) (found : Int × Option Board.LastFinished),
      Latest b matchId playerId seen found → Latest b matchId playerId (seen ++ rest)
        (rest.foldl (b.scanFinished matchId playerId) found) from
    this b.games [] _ ⟨le_rfl, (fun _ h => nomatch h), fun _ => rfl, (fun _ h => nomatch h)⟩
  intro rest
  induction rest with
  | nil =>
    intro seen found h
    rwa [List.append_nil]
  | cons m rest ih =>
    intro seen found h
    rw [List.append_cons]
    exact ih _ _ (h.step m)

/-- **A player rests exactly where some match that was scanned has ended too late.** -/
theorem isPlayerResting_isSome : (b.isPlayerResting matchId playerId).isSome ↔
    ∃ m ∈ b.games, ∃ state a stop, Scanned b matchId playerId m state a ∧
      b.endSlot state a = some stop ∧ -1 < stop ∧
        b.currentSlot < stop + b.restSlots playerId := by
  have latest := findLast_latest b matchId playerId
  unfold Board.isPlayerResting Board.findLastFinishedMatch
  cases found : (b.games.foldl (b.scanFinished matchId playerId) (-1, none)).2 with
  | none =>
    refine iff_of_false (by simp) ?_
    rintro ⟨m, hm, state, a, stop, scanned, ended, late, -⟩
    have bound := latest.bound m hm state a stop scanned ended
    rw [latest.none found] at bound
    omega
  | some last =>
    obtain ⟨mem, scanned, ended, first⟩ := latest.some last found
    simp only [ended]
    constructor
    · intro h
      split at h
      · next tired =>
        exact ⟨last.game, mem, last.state, last.assignment, _, scanned, ended, first, tired⟩
      · cases h
    · rintro ⟨m, hm, state, a, stop, seen, stopped, -, tired⟩
      have bound := latest.bound m hm state a stop seen stopped
      rw [if_pos (by omega)]
      rfl

/-! ## When green is ready -/

/-- The player rests after another match without a noted end. -/
def RestsUntimed (b : Board) (matchId playerId : String) : Prop :=
  ∃ state a, b.FinishedElsewhere matchId playerId state a ∧ state.actualEndTime = none ∧
    b.currentSlot < (a.slotId + a.durationSlots : Nat) + b.restSlots playerId

theorem endsInIso_of (iso : b.EndsInIso) {id : String} {state : MatchStateDTO}
    (found : b.stateOf id = some state) (ht : state.actualEndTime = some time) :
    IsIso time :=
  iso (id, state) (Assoc.mem_of_get found) time ht

theorem endSlot_iso (iso : b.EndsInIso) {id : String} {state : MatchStateDTO}
    (found : b.stateOf id = some state) (a : ScheduleAssignment) {stop : Int} :
    b.endSlot state a = some stop ↔
      state.actualEndTime = none ∧ ((a.slotId + a.durationSlots : Nat) : Int) = stop := by
  unfold Board.endSlot
  cases ended : state.actualEndTime with
  | none => simp
  | some time =>
    have text := endsInIso_of iso found ended
    have filled : time ≠ "" := by
      rintro rfl
      obtain ⟨date, clock, empty, -⟩ := text
      simp at empty
    simp [Option.filter, filled, timeToSlot_iso b.js text]

theorem isPlayerResting_iff (toCall : b.ToCall matchId) (iso : b.EndsInIso) :
    (b.isPlayerResting matchId playerId).isSome ↔ RestsUntimed b matchId playerId := by
  rw [isPlayerResting_isSome]
  constructor
  · rintro ⟨m, hm, state, a, stop, ⟨-, known, finished, mem, placed⟩, ended, -, tired⟩
    obtain ⟨untimed, rfl⟩ := (endSlot_iso iso known a).mp ended
    have other := ToCall.ne toCall known (.inr (.inr finished))
    exact ⟨state, a, ⟨m, hm, other, mem, known, finished, placed⟩, untimed, tired⟩
  · rintro ⟨state, a, ⟨m, hm, other, mem, known, finished, placed⟩, untimed, tired⟩
    refine ⟨m, hm, state, a, _, ⟨fun h => other h.2, known, finished, mem, placed⟩,
      (endSlot_iso iso known a).mpr ⟨untimed, rfl⟩, by omega, tired⟩

theorem availability_eq (playerId : String) : b.availability matchId playerId = .available ↔
    ¬ (b.isPlayerActive matchId playerId).isSome ∧
      ¬ (b.isPlayerResting matchId playerId).isSome := by
  unfold Board.availability
  cases b.isPlayerActive matchId playerId with
  | some m => simp
  | none =>
    cases b.isPlayerResting matchId playerId with
    | some x => simp
    | none => simp

theorem green_iff (toCall : b.ToCall matchId) :
    (b.computeTrafficLight matchId).status = .green ↔
      ∀ playerId ∈ b.playersIn matchId, b.availability matchId playerId = .available := by
  have nobody : activePlayers (b.getPlayerStatuses matchId) = [] ∧
      restingPlayers (b.getPlayerStatuses matchId) = [] ↔
        ∀ playerId ∈ b.playersIn matchId, b.availability matchId playerId = .available := by
    unfold activePlayers restingPlayers Board.getPlayerStatuses
    rw [List.filterMap_eq_nil_iff, List.filterMap_eq_nil_iff]
    simp only [List.forall_mem_map]
    constructor
    · rintro ⟨active, resting⟩ playerId mem
      have active := active playerId mem
      have resting := resting playerId mem
      cases status : b.availability matchId playerId with
      | available => rfl
      | active reason id => simp [status] at active
      | resting reason id slot => simp [status] at resting
    · intro free
      refine ⟨fun playerId mem => ?_, fun playerId mem => ?_⟩
      · simp [free playerId mem]
      · simp [free playerId mem]
  rw [← nobody]
  unfold Board.computeTrafficLight
  split
  · next started =>
    obtain ⟨state, known, status⟩ := Option.map_eq_some_iff.mp started
    exact absurd status (toCall state known).2.1
  · next finished =>
    obtain ⟨state, known, status⟩ := Option.map_eq_some_iff.mp finished
    exact absurd status (toCall state known).2.2
  · next called =>
    obtain ⟨state, known, status⟩ := Option.map_eq_some_iff.mp called
    exact absurd status (toCall state known).1
  · dsimp only
    split
    · next active => simp [active]
    · next active =>
      rw [not_not] at active
      split
      · next resting => simp [resting]
      · next resting =>
        rw [not_not] at resting
        simp [active, resting]

/-- **With the ends noted as ISO texts, a match that is to be called is green only when it is
ready, exactly where somebody in it is seen to be blocked otherwise or nobody rests after a noted
end.** -/
theorem computeTrafficLight_green (iso : b.EndsInIso) (slotOf : String → Int) :
    b.GreenIsReady matchId slotOf ↔ b.OtherwiseBlocked matchId slotOf := by
  unfold Board.GreenIsReady Board.OtherwiseBlocked
  refine forall_congr' fun toCall => ?_
  have blocked : (∃ playerId ∈ b.playersIn matchId, b.Busy matchId playerId ∨
      ∃ state a, b.FinishedElsewhere matchId playerId state a ∧ state.actualEndTime = none ∧
        b.currentSlot < Board.endedAt slotOf state a + b.restSlots playerId) ↔
      ¬ (b.computeTrafficLight matchId).status = .green := by
    have untimed : ∀ playerId, (∃ state a, b.FinishedElsewhere matchId playerId state a ∧
        state.actualEndTime = none ∧
          b.currentSlot < Board.endedAt slotOf state a + b.restSlots playerId) ↔
        RestsUntimed b matchId playerId := by
      intro playerId
      refine exists_congr fun state => exists_congr fun a => and_congr_right fun _ =>
        and_congr_right fun none => ?_
      rw [Board.endedAt, none]
    simp only [green_iff toCall, availability_eq, isPlayerActive_isSome toCall,
      isPlayerResting_iff toCall iso, untimed]
    push Not
    refine exists_congr fun playerId => and_congr_right fun _ => ?_
    tauto
  rw [blocked]
  constructor
  · intro ready
    by_cases green : (b.computeTrafficLight matchId).status = .green
    · refine .inr fun playerId mem state a elsewhere _ => ?_
      by_contra late
      exact (ready green playerId mem).2 ⟨state, a, elsewhere, not_le.mp late⟩
    · exact .inl green
  · rintro (red | rested) green playerId mem
    · exact absurd green red
    · have free : ¬ b.Busy matchId playerId ∧ ¬ RestsUntimed b matchId playerId := by
        have available := (green_iff toCall).mp green playerId mem
        rwa [availability_eq, isPlayerActive_isSome toCall, isPlayerResting_iff toCall iso]
          at available
      refine ⟨free.1, ?_⟩
      rintro ⟨state, a, elsewhere, late⟩
      cases ended : state.actualEndTime with
      | some time =>
        have ready := rested playerId mem state a elsewhere (by simp [ended])
        omega
      | none =>
        rw [Board.endedAt, ended] at late
        exact free.2 ⟨state, a, elsewhere, ended, late⟩

end

/-! ## A tired player -/

namespace Rehearsal

def decimal : Js where
  number text :=
    if text.toList.all Char.isDigit then
      some (text.toList.foldl (fun n c => 10 * n + (c.toNat - '0'.toNat)) 0 : Nat)
    else none
  text := toString
  number_of_T text h := by
    rw [if_neg]
    intro digits
    exact absurd (List.all_eq_true.mp digits 'T' h) (by decide)

def day : TournamentConfig := ⟨"09:00", "18:00", 30, by decide, 60⟩

def endedText : String := "2026-05-02T09:30:00.000Z"

def board (third : MatchStateStatus) : Board where
  js := decimal
  assignments := [⟨"first", 0, 1⟩, ⟨"next", 1, 1⟩, ⟨"third", 1, 1⟩]
  games := [{ id := "first", sideA := ["ann"], sideB := ["bob"] },
    { id := "next", sideA := ["ann"], sideB := ["cat"] },
    { id := "third", sideA := ["cat"], sideB := ["dan"] }]
  matchStates := [("first", { status := .finished, actualEndTime := some endedText }),
    ("third", { status := third })]
  players := []
  config := day
  currentSlot := 1

theorem board_iso (third : MatchStateStatus) : (board third).EndsInIso := by
  intro x hx time ht
  rcases List.mem_cons.mp hx with rfl | hx
  · cases ht
    exact ⟨"2026-05-02".toList, "09:30:00.000Z".toList, rfl, by decide⟩
  · obtain rfl := List.mem_singleton.mp hx
    cases ht

end Rehearsal

open Rehearsal

theorem computeTrafficLight_green_called :
    (board .called).GreenIsReady "next" (fun _ => 1) := by
  refine (computeTrafficLight_green (board_iso .called) _).mpr fun _ => .inl ⟨"cat", by decide, .inl ?_⟩
  exact ⟨{ id := "third", sideA := ["cat"], sideB := ["dan"] }, by simp [board], by decide,
    by decide, { status := .called }, by decide, .inl rfl⟩

/-- Ann has just come off the court, and her next match is green. -/
theorem computeTrafficLight_tired : ¬ (board .scheduled).GreenIsReady "next" (fun _ => 1) := by
  intro ready
  refine (ready ?_ ?_ "ann" (by decide)).2 ?_
  · decide
  · decide +kernel
  · refine ⟨{ status := .finished, actualEndTime := some endedText }, ⟨"first", 0, 1⟩, ?_, by decide⟩
    exact ⟨{ id := "first", sideA := ["ann"], sideB := ["bob"] }, by simp [board], by decide,
      by decide, by decide, rfl, rfl⟩

end Console.TrafficLight
