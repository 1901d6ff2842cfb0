import Mathlib.Algebra.Order.Field.Rat
import Mathlib.Data.List.SplitBy
import ShuttleWorks.Brackets.Advancement
import ShuttleWorks.Lib.Except

/-! Standings of an event: more wins, then the share of games won, then of points, then the direct
meetings of two that are still level, then the id. Whatever was played, every participant has one
row. -/

namespace Brackets
open Lib

/-- One participant's line. -/
structure StandingRow where
  participantId : ParticipantId
  played : Nat := 0
  wins : Nat := 0
  losses : Nat := 0
  gamesWon : Nat := 0
  gamesLost : Nat := 0
  pointsWon : Int := 0
  pointsLost : Int := 0
  position : Nat := 0
  deriving DecidableEq, Repr

/-- The rows and the decided meetings, winner first. -/
structure Tally where
  rows : List StandingRow
  meetings : List (ParticipantId × ParticipantId) := []

namespace Tally

/-- Change the row of a side's participant, when it has one. -/
def edit (t : Tally) (participant : Option ParticipantId) (f : StandingRow → StandingRow) : Tally :=
  { t with rows := t.rows.map fun row => if some row.participantId = participant then f row else row }

def has (t : Tally) (participant : Option ParticipantId) : Bool :=
  t.rows.any fun row => some row.participantId = participant

end Tally

/-! ## Counting the results -/

def scoreInt : Option Json → Option Int
  | some (.int n) => some n
  | some (.bool b) => some (if b then 1 else 0)
  | _ => none

def gameScore : Json → Option (Int × Int)
  | .obj game => do
    let a ← scoreInt (Assoc.get "sideA" game)
    let b ← scoreInt (Assoc.get "sideB" game)
    pure (a, b)
  | _ => none

/-- One game seen from a side with these points. -/
def countGame (own other : Int) (row : StandingRow) : StandingRow :=
  { row with
    pointsWon := row.pointsWon + own
    pointsLost := row.pointsLost + other
    gamesWon := if other < own then row.gamesWon + 1 else row.gamesWon
    gamesLost := if own < other then row.gamesLost + 1 else row.gamesLost }

/-- A `TypeError`: the sets are not iterable. -/
inductive StandingsError
  | notIterable (sets : Json)
  deriving DecidableEq

def iterable : Json → Bool
  | .arr _ | .obj _ | .str _ => true
  | _ => false

/-- The games in `sets or []`; the keys of an object and the characters of a string are none. -/
def setGames : Json → Except StandingsError (List (Int × Int))
  | .arr games => .ok (games.filterMap gameScore)
  | sets => if sets.truthy ∧ iterable sets = false then .error (.notIterable sets) else .ok []

/-- The games of a result; a walkover has none. -/
def resultGames (result : Result) : Except StandingsError (List (Int × Int)) :=
  if result.walkover then .ok []
  else match result.score.bind (Assoc.get "sets") with
    | some sets => setGames sets
    | none => .ok []

/-- Its games where they can be read. -/
def playedGames (result : Result) : List (Int × Int) :=
  match resultGames result with
  | .ok games => games
  | .error _ => []

def countGames (sideA sideB : Option ParticipantId) (t : Tally) (game : Int × Int) : Tally :=
  (t.edit sideA (countGame game.1 game.2)).edit sideB (countGame game.2 game.1)

def countWin (row : StandingRow) : StandingRow :=
  { row with played := row.played + 1, wins := row.wins + 1 }

def countLoss (row : StandingRow) : StandingRow :=
  { row with played := row.played + 1, losses := row.losses + 1 }

def decided (unit : PlayUnit) : WinnerSide → Option ParticipantId × Option ParticipantId
  | .A => (unit.sideA.head?, unit.sideB.head?)
  | _ => (unit.sideB.head?, unit.sideA.head?)

/-- One result of the state; results of other events and dead branches count for nobody. -/
def countResult (playUnits : PlayUnits) (t : Tally) (p : PlayUnitId × Result) : Tally :=
  match playUnits.get p.1 with
  | none => t
  | some unit =>
    if p.2.winnerSide = .NONE then t
    else
      let (winner, loser) := decided unit p.2.winnerSide
      let t' := (t.edit winner countWin).edit loser countLoss
      let met := match winner, loser with
        | some w, some l => if t.has winner && t.has loser then [(w, l)] else []
        | _, _ => []
      (playedGames p.2).foldl (countGames unit.sideA.head? unit.sideB.head?)
        { t' with meetings := t'.meetings ++ met }

/-- A result that counts is counted if its games can be read. -/
def addResult (playUnits : PlayUnits) (t : Tally) (p : PlayUnitId × Result) :
    Except StandingsError Tally :=
  match playUnits.get p.1 with
  | none => .ok t
  | some _ =>
    if p.2.winnerSide = .NONE then .ok t
    else (resultGames p.2).map fun _ => countResult playUnits t p

/-! ## Ranking -/

/-- `_ratio`, exact where the code's is a float. -/
def winRatio (won lost : Int) : Rat := if won + lost = 0 then 0 else won / (won + lost : Int)

section Ranking

/- The ratios are compared and nothing else: they may be of any linear order. -/
variable {ρ : Type} [LinearOrder ρ] (ratio : Int → Int → ρ)

def chainKey (row : StandingRow) : Nat × ρ × ρ :=
  (row.wins, ratio row.gamesWon row.gamesLost, ratio row.pointsWon row.pointsLost)

/-- The sort key of `_sort_rows`: the better key first, then the lower id. -/
def ranksBefore (a b : StandingRow) : Bool :=
  let (wins, games, points) := chainKey ratio a
  let (wins', games', points') := chainKey ratio b
  if wins ≠ wins' then wins' < wins
  else if games ≠ games' then games' < games
  else if points ≠ points' then points' < points
  else a.participantId ≤ b.participantId

/-- Two level rows change places when the second won more of their meetings. -/
def headToHead (meetings : List (ParticipantId × ParticipantId)) : List StandingRow → List StandingRow
  | [first, second] =>
    if meetings.count (first.participantId, second.participantId) <
        meetings.count (second.participantId, first.participantId)
    then [second, first] else [first, second]
  | group => group

def sortRows (t : Tally) : List StandingRow :=
  ((t.rows.mergeSort (ranksBefore ratio)).splitBy fun a b =>
    decide (chainKey ratio a = chainKey ratio b)).flatMap (headToHead t.meetings)

def startRows (participantIds : List ParticipantId) : Table StandingRow.participantId :=
  Table.ofRows ((participantIds.filter (· ≠ BYE)).map fun id => { participantId := id })

/-- The results counted. -/
def tallied (playUnits : PlayUnits) (results : List (PlayUnitId × Result))
    (participantIds : List ParticipantId) : Tally :=
  results.foldl (countResult playUnits) { rows := (startRows participantIds).rows }

def ranked (t : Tally) : List StandingRow :=
  (sortRows ratio t).zipIdx.map fun p => { p.1 with position := p.2 + 1 }

def computeStandings (playUnits : PlayUnits) (results : List (PlayUnitId × Result))
    (participantIds : List ParticipantId) : Except StandingsError (List StandingRow) := do
  let t ← results.foldlM (addResult playUnits) { rows := (startRows participantIds).rows }
  .ok (ranked ratio t)

/-- The standings where all games can be read. -/
def standingRows (playUnits : PlayUnits) (results : List (PlayUnitId × Result))
    (participantIds : List ParticipantId) : List StandingRow :=
  ranked ratio (tallied playUnits results participantIds)

/-! ## Every participant has one row -/

def Tally.ids (t : Tally) : List ParticipantId := t.rows.map StandingRow.participantId

theorem Tally.ids_edit (t : Tally) (participant : Option ParticipantId)
    {f : StandingRow → StandingRow} (keeps : ∀ row, (f row).participantId = row.participantId) :
    (t.edit participant f).ids = t.ids := by
  simp only [Tally.ids, Tally.edit, List.map_map]
  refine List.map_congr_left fun row _ => ?_
  simp only [Function.comp_apply]
  split
  · exact keeps row
  · rfl

theorem ids_countGames (sideA sideB : Option ParticipantId) (t : Tally) (game : Int × Int) :
    (countGames sideA sideB t game).ids = t.ids := by
  rw [countGames, Tally.ids_edit (f := countGame game.2 game.1) _ _ (fun _ => rfl),
    Tally.ids_edit (f := countGame game.1 game.2) _ _ (fun _ => rfl)]

theorem ids_countResult (playUnits : PlayUnits) (t : Tally) (p : PlayUnitId × Result) :
    (countResult playUnits t p).ids = t.ids := by
  have games : ∀ (l : List (Int × Int)) (a b : Option ParticipantId) (t : Tally),
      (l.foldl (countGames a b) t).ids = t.ids := by
    intro l a b
    induction l with
    | nil => simp
    | cons game l ih =>
      intro t
      rw [List.foldl_cons, ih, ids_countGames]
  unfold countResult
  split
  · rfl
  · split
    · rfl
    · rw [games]
      exact (Tally.ids_edit (f := countLoss) _ _ (fun _ => rfl)).trans
        (Tally.ids_edit (f := countWin) _ _ (fun _ => rfl))

theorem headToHead_perm (meetings : List (ParticipantId × ParticipantId))
    (group : List StandingRow) : (headToHead meetings group).Perm group := by
  unfold headToHead
  split
  · split
    · exact List.Perm.swap _ _ _
    · exact List.Perm.refl _
  · exact List.Perm.refl _

theorem sortRows_perm (t : Tally) : (sortRows ratio t).Perm t.rows := by
  have groups : ∀ l : List (List StandingRow), (l.flatMap (headToHead t.meetings)).Perm l.flatten := by
    intro l
    induction l with
    | nil => simp
    | cons group l ih =>
      rw [List.flatMap_cons, List.flatten_cons]
      exact (headToHead_perm t.meetings group).append ih
  refine (groups _).trans ?_
  rw [List.flatten_splitBy]
  exact List.mergeSort_perm _ _

theorem ids_tallied (playUnits : PlayUnits) (results : List (PlayUnitId × Result))
    (participantIds : List ParticipantId) : (tallied playUnits results participantIds).ids =
      (startRows participantIds).rows.map StandingRow.participantId := by
  have counted : ∀ (l : List (PlayUnitId × Result)) (t : Tally),
      (l.foldl (countResult playUnits) t).ids = t.ids := by
    intro l
    induction l with
    | nil => simp
    | cons p l ih =>
      intro t
      rw [List.foldl_cons, ih, ids_countResult]
  exact counted results _

theorem ids_zipIdx (l : List StandingRow) :
    (l.zipIdx.map fun p => ({ p.1 with position := p.2 + 1 } : StandingRow)).map
      StandingRow.participantId = l.map StandingRow.participantId := by
  refine List.ext_getElem (by simp) fun i _ _ => by simp

/-- **The standings list every participant once, byes apart.** -/
theorem standingRows_perm (playUnits : PlayUnits) (results : List (PlayUnitId × Result))
    (participantIds : List ParticipantId) :
    ((standingRows ratio playUnits results participantIds).map StandingRow.participantId).Perm
      ((startRows participantIds).rows.map StandingRow.participantId) := by
  rw [standingRows, ranked, ids_zipIdx]
  exact ((sortRows_perm ratio _).map _).trans
    (List.Perm.of_eq (ids_tallied playUnits results participantIds))

/-! ## Results that cannot be counted -/

/-- The result counts, and what it has for its sets is neither empty nor iterable. -/
structure Uncountable (playUnits : PlayUnits) (p : PlayUnitId × Result) : Prop where
  unit : playUnits.Has p.1
  live : p.2.winnerSide ≠ .NONE
  played : p.2.walkover = false
  sets : ∃ sets, p.2.score.bind (Assoc.get "sets") = some sets ∧ sets.truthy ∧ iterable sets = false

theorem resultGames_ok_iff (result : Result) : (∃ games, resultGames result = .ok games) ↔
    ¬ (result.walkover = false ∧ ∃ sets, result.score.bind (Assoc.get "sets") = some sets ∧
      sets.truthy ∧ iterable sets = false) := by
  unfold resultGames
  cases result.walkover with
  | true => simp
  | false =>
    cases result.score.bind (Assoc.get "sets") with
    | none => simp
    | some sets =>
      cases sets with
      | arr games => simp [setGames, iterable]
      | _ => simp [setGames, iterable, ite_eq_iff]

theorem addResult_cases (playUnits : PlayUnits) (t : Tally) (p : PlayUnitId × Result) :
    (Uncountable playUnits p ∧ ∃ e, addResult playUnits t p = .error e) ∨
      (¬ Uncountable playUnits p ∧ addResult playUnits t p = .ok (countResult playUnits t p)) := by
  unfold addResult countResult
  cases unit : playUnits.get p.1 with
  | none => exact .inr ⟨fun h => Table.get_eq_none_iff.mp unit h.unit, rfl⟩
  | some u =>
    by_cases dead : p.2.winnerSide = .NONE
    · simp only [dead, if_true]
      exact .inr ⟨fun h => h.live dead, trivial⟩
    · simp only [dead, if_false]
      have games := resultGames_ok_iff p.2
      cases read : resultGames p.2 with
      | ok l => exact .inr ⟨fun h => games.mp ⟨l, read⟩ ⟨h.played, h.sets⟩, rfl⟩
      | error e =>
        refine .inl ⟨?_, e, rfl⟩
        have there : playUnits.Has p.1 := by
          by_contra absent
          rw [Table.get_eq_none_iff.mpr absent] at unit
          cases unit
        rw [read] at games
        obtain ⟨played, sets⟩ := not_not.mp (games.not.mp (by simp))
        exact ⟨there, dead, played, sets⟩

/-- **The standings are there** exactly when every result can be counted. -/
theorem computeStandings_eq_ok {playUnits : PlayUnits} {results : List (PlayUnitId × Result)}
    {participantIds : List ParticipantId} {rows : List StandingRow} :
    computeStandings ratio playUnits results participantIds = .ok rows ↔
      (∀ p ∈ results, ¬ Uncountable playUnits p) ∧
        rows = standingRows ratio playUnits results participantIds := by
  have folds : ∀ t t', results.foldlM (addResult playUnits) t = .ok t' ↔
      (∀ p ∈ results, ¬ Uncountable playUnits p) ∧ t' = results.foldl (countResult playUnits) t := by
    induction results with
    | nil => simp [pure, Except.pure, eq_comm]
    | cons p results ih =>
      intro t t'
      rw [List.foldlM_cons, List.forall_mem_cons, List.foldl_cons]
      rcases addResult_cases playUnits t p with ⟨stuck, e, failed⟩ | ⟨free, added⟩
      · simp [failed, stuck, bind, Except.bind]
      · rw [added, ok_bind, ih]
        simp [free]
  simp only [computeStandings, bind_eq_ok, folds, standingRows, tallied]
  constructor
  · rintro ⟨t, ⟨free, rfl⟩, rows⟩
    exact ⟨free, (Except.ok.inj rows).symm⟩
  · rintro ⟨free, rfl⟩
    exact ⟨_, ⟨free, rfl⟩, rfl⟩

theorem startRows_ids {participantIds : List ParticipantId} (distinct : participantIds.Nodup) :
    (startRows participantIds).rows.map StandingRow.participantId =
      participantIds.filter (· ≠ BYE) := by
  have ids : ((participantIds.filter (· ≠ BYE)).map fun id =>
      ({ participantId := id } : StandingRow)).map StandingRow.participantId =
        participantIds.filter (· ≠ BYE) := by
    simp [Function.comp_def]
  rw [startRows, Table.rows_ofRows (by rw [ids]; exact distinct.filter _), ids]

end Ranking

end Brackets
