import Mathlib.Data.List.Sort
import ShuttleWorks.Lib.Admission
import ShuttleWorks.Lib.Assoc
import ShuttleWorks.Lib.Text

/-! The lineup of a meet: from the groups, the rosters and the number of ranks of each division,
one match for each rank and each two groups that can field it, and the posted matches whose slot
none of them takes. -/

namespace Meet
open Lib

/-! ## The posted state -/

structure RosterGroupDTO where
  id : String
  name : String
  deriving DecidableEq, Repr

structure PlayerDTO where
  id : String
  groupId : String
  ranks : List String
  deriving DecidableEq, Repr

structure MatchDTO where
  id : String
  matchNumber : Option Nat := none
  sideA : List String := []
  sideB : List String := []
  sideC : Option (List String) := none
  matchType : String := "dual"
  eventRank : Option String := none
  durationSlots : Nat := 1
  preferredCourt : Option Nat := none
  tags : Option (List String) := none
  deriving DecidableEq, Repr

/-- The ranks of each division; a division has one count. -/
structure TournamentConfig where
  rankCounts : List (String × Int)
  distinct : (rankCounts.map Prod.fst).Nodup

structure TournamentStateDTO where
  config : Option TournamentConfig
  groups : List RosterGroupDTO
  players : List PlayerDTO
  matchList : List MatchDTO

structure LineupDTO where
  matchList : List MatchDTO := []
  incompletePairs : List String := []
  deriving DecidableEq, Repr

def MAX_MATCHES : Nat := 5000

/-- Why no lineup comes back: `int` refused a text of digits, or a list would pass its cap. -/
inductive LineupError
  | invalidLiteral (suffix : String)
  | capacity (output : String)
  deriving DecidableEq, Repr

def LineupError.message : LineupError → String
  | .invalidLiteral suffix => "invalid literal for int() with base 10: '" ++ suffix ++ "'"
  | .capacity output => "Lineup exceeds the " ++ toString MAX_MATCHES ++ "-" ++ output ++ " limit"

/-! ## The ranks that are held -/

/-- Whether a rank without its number ends in `D`. -/
def isDoublesRank (rank : String) : Bool :=
  (rank.toList.reverse.dropWhile isDecimal).head? == some 'D'

/-- A division and a number in it. -/
abbrev RankKey := String × Nat

/-- The holders of each rank, by group. -/
abbrev RankIndex := List (RankKey × List (String × List PlayerDTO))

/-- The number a rank text has in a division of `count` ranks. -/
def rankNumber (division : String) (count : Int) (rawRank : String) :
    Except LineupError (Option Nat) :=
  if ¬ division.toList.isPrefixOf rawRank.toList then .ok none
  else
    let suffix := rawRank.toList.drop division.toList.length
    if ¬ isdigit suffix then .ok none
    else
      match int suffix with
      | none => .error (.invalidLiteral (String.ofList suffix))
      | some number =>
        if (toString number).toList ≠ suffix then .ok none
        else if 1 ≤ number ∧ (number : Int) ≤ count then .ok (some number) else .ok none

/-- `by_rank_group.setdefault(key, {}).setdefault(player.groupId, []).append(player)` -/
def addHolder (byRankGroup : RankIndex) (key : RankKey) (player : PlayerDTO) : RankIndex :=
  let groups := (Assoc.get key byRankGroup).getD []
  let side := (Assoc.get player.groupId groups).getD []
  Assoc.set key (Assoc.set player.groupId (side ++ [player]) groups) byRankGroup

/-- What the scan of one player's ranks carries. -/
structure Scan where
  seenKeys : List RankKey
  occupiedNumbers : List Nat
  byRankGroup : RankIndex

def scanRank (division : String) (count : Int) (player : PlayerDTO) (scan : Scan)
    (rawRank : String) : Except LineupError Scan := do
  match ← rankNumber division count rawRank with
  | none => pure scan
  | some number =>
    if (division, number) ∈ scan.seenKeys then pure scan
    else pure {
      seenKeys := (division, number) :: scan.seenKeys
      occupiedNumbers := scan.occupiedNumbers.insert number
      byRankGroup := addHolder scan.byRankGroup (division, number) player }

def scanPlayer (division : String) (count : Int) (acc : List Nat × RankIndex)
    (player : PlayerDTO) : Except LineupError (List Nat × RankIndex) := do
  let scan ← player.ranks.foldlM (scanRank division count player) ⟨[], acc.1, acc.2⟩
  pure (scan.occupiedNumbers, scan.byRankGroup)

def scanDivision (players : List PlayerDTO) (acc : List RankKey × RankIndex)
    (entry : String × Int) : Except LineupError (List RankKey × RankIndex) :=
  if entry.2 < 1 then pure acc
  else do
    let (numbers, byRankGroup) ← players.foldlM (scanPlayer entry.1 entry.2) ([], acc.2)
    pure (acc.1 ++ (numbers.insertionSort (· ≤ ·)).map (entry.1, ·), byRankGroup)

def occupiedRanks (rankCounts : List (String × Int)) (players : List PlayerDTO) :
    Except LineupError (List RankKey × RankIndex) :=
  rankCounts.foldlM (scanDivision players) ([], [])

/-! ## The matches -/

def rankText (key : RankKey) : String := key.1 ++ toString key.2

def needed (rank : String) : Nat := if isDoublesRank rank then 2 else 1

/-- What the loops over ranks and groups fill: `generated` and `incomplete_pairs`. -/
abbrev Output := Filled MatchDTO String

def stampId (fresh : Nat → String) (k : Nat) (m : MatchDTO) : MatchDTO := { m with id := fresh k }

/-- The match of a rank between two sides, before it gets its id. -/
def dualMatch (rank : String) (sideA sideB : List PlayerDTO) : MatchDTO where
  id := ""
  sideA := (sideA.take (needed rank)).map PlayerDTO.id
  sideB := (sideB.take (needed rank)).map PlayerDTO.id
  eventRank := some rank

section
variable (fresh : Nat → String) (rank : String) (playersByGroup : List (String × List PlayerDTO))

/-- `players_by_group.get(group.id, [])` -/
def sideOf (group : RosterGroupDTO) : List PlayerDTO :=
  (Assoc.get group.id playersByGroup).getD []

def addMatch (groupA : RosterGroupDTO) (acc : Output) (groupB : RosterGroupDTO) :
    Except LineupError Output :=
  let sideA := sideOf playersByGroup groupA
  let sideB := sideOf playersByGroup groupB
  if sideB.length < needed rank ∨ sideA.length < needed rank then .ok acc
  else if MAX_MATCHES ≤ acc.left.length then .error (.capacity "match")
  else .ok ⟨acc.left ++ [stampId fresh acc.left.length (dualMatch rank sideA sideB)], acc.right⟩

def addIncomplete (group : RosterGroupDTO) (acc : Output) : Except LineupError Output :=
  if (sideOf playersByGroup group).length = 1 ∧ needed rank = 2 then
    if MAX_MATCHES ≤ acc.right.length then .error (.capacity "incomplete-pair")
    else .ok ⟨acc.left, acc.right ++ [group.name ++ " " ++ rank]⟩
  else .ok acc

def pairGroups : List RosterGroupDTO → Output → Except LineupError Output
  | [], acc => .ok acc
  | group :: rest, acc => do
    let acc ← addIncomplete rank playersByGroup group acc
    let acc ← rest.foldlM (addMatch fresh rank playersByGroup group) acc
    pairGroups rest acc

end

/-- `{player.id: player.groupId for player in state.players}` -/
def groupByPlayer (players : List PlayerDTO) : List (String × String) :=
  players.foldl (fun groups player => Assoc.set player.id player.groupId groups) []

def slotKey (groups : List (String × String)) (m : MatchDTO) : String :=
  let groupA := (Assoc.get (m.sideA.headD "") groups).getD "?"
  let groupB := (Assoc.get (m.sideB.headD "") groups).getD "?"
  let (first, second) := if groupA ≤ groupB then (groupA, groupB) else (groupB, groupA)
  m.eventRank.getD "" ++ "|" ++ first ++ "|" ++ second

/-- The posted matches that the lineup keeps. -/
def keptCustom (groups : List (String × String)) (generated posted : List MatchDTO) :
    List MatchDTO :=
  let generatedKeys := generated.map (slotKey groups)
  posted.filter fun m => slotKey groups m ∉ generatedKeys

/-- The fill of one rank. -/
def fillRank (fresh : Nat → String) (groups : List RosterGroupDTO) (byRankGroup : RankIndex)
    (acc : Output) (key : RankKey) : Except LineupError Output :=
  pairGroups fresh (rankText key) ((Assoc.get key byRankGroup).getD []) groups acc

def buildLineup (fresh : Nat → String) (state : TournamentStateDTO) :
    Except LineupError LineupDTO :=
  match state.config with
  | none => .ok {}
  | some config => do
    let (orderedKeys, byRankGroup) ← occupiedRanks config.rankCounts state.players
    let out ← orderedKeys.foldlM (fillRank fresh state.groups byRankGroup) ⟨[], []⟩
    let kept := keptCustom (groupByPlayer state.players) out.left state.matchList
    if MAX_MATCHES < out.left.length + kept.length then .error (.capacity "match")
    else .ok ⟨out.left ++ kept, out.right⟩

end Meet
