import Mathlib.Data.List.Perm.Basic
import ShuttleWorks.Brackets.Standings

/-! What the standings count: every row is the sum of what each result gives its participant, so
neither the order of the results nor which side is called A matters. -/

namespace Brackets
open Lib

/-! ## What a result gives a participant -/

/-- The counts of two rows together, in the place of the first. -/
def StandingRow.plus (row d : StandingRow) : StandingRow where
  participantId := row.participantId
  played := row.played + d.played
  wins := row.wins + d.wins
  losses := row.losses + d.losses
  gamesWon := row.gamesWon + d.gamesWon
  gamesLost := row.gamesLost + d.gamesLost
  pointsWon := row.pointsWon + d.pointsWon
  pointsLost := row.pointsLost + d.pointsLost
  position := row.position

variable {f : StandingRow → StandingRow} {t : Tally} {a b : ParticipantId}
  {participantIds : List ParticipantId}

namespace StandingRow

theorem plus_assoc (row d e : StandingRow) : (row.plus d).plus e = row.plus (d.plus e) := by
  simp only [plus, Nat.add_assoc, Int.add_assoc]

theorem plus_right_comm (row d e : StandingRow) : (row.plus d).plus e = (row.plus e).plus d := by
  simp only [plus, Nat.add_right_comm, Int.add_right_comm]

def zero (id : ParticipantId) : StandingRow := { participantId := id }

/-- The change adds the same to every row of a participant. -/
structure Adds (f : StandingRow → StandingRow) : Prop where
  keeps : ∀ row, (f row).participantId = row.participantId
  adds : ∀ row, f row = row.plus (f (zero row.participantId))

theorem Adds.id : Adds fun row => row where
  keeps _ := rfl
  adds row := by simp [plus, zero]

variable {g : StandingRow → StandingRow}

theorem Adds.comp (hf : Adds f) (hg : Adds g) :
    Adds fun row => f (g row) where
  keeps row := (hf.keeps _).trans (hg.keeps _)
  adds row := by
    have inner := hf.adds (g (zero row.participantId))
    rw [hg.keeps, zero] at inner
    rw [hf.adds, hg.keeps, hg.adds, plus_assoc]
    exact congrArg row.plus inner.symm

theorem Adds.foldl {β : Type} {f : StandingRow → β → StandingRow}
    (hf : ∀ b, Adds fun row => f row b) (l : List β) : Adds fun row => l.foldl f row := by
  induction l with
  | nil => exact Adds.id
  | cons b l ih => exact ih.comp (hf b)

theorem Adds.comm (hf : Adds f) (hg : Adds g) (row : StandingRow) :
    f (g row) = g (f row) := by
  rw [hf.adds (g row), hg.keeps, hg.adds row, plus_right_comm, ← hf.adds row, hg.adds (f row),
    hf.keeps]

theorem adds_countWin : Adds countWin where
  keeps _ := rfl
  adds row := by simp [plus, zero, countWin]

theorem adds_countLoss : Adds countLoss where
  keeps _ := rfl
  adds row := by simp [plus, zero, countLoss]

theorem adds_countGame (own other : Int) : Adds (countGame own other) where
  keeps _ := rfl
  adds row := by
    unfold countGame plus zero
    split_ifs <;> simp

end StandingRow

open StandingRow

def credit (participant : Option ParticipantId) (f : StandingRow → StandingRow)
    (row : StandingRow) : StandingRow := if some row.participantId = participant then f row else row

theorem adds_credit (participant : Option ParticipantId) (hf : Adds f) :
    Adds (credit participant f) where
  keeps row := by
    unfold credit
    split
    · exact hf.keeps row
    · rfl
  adds row := by
    unfold credit
    by_cases own : some row.participantId = participant
    · rw [if_pos own, show (zero row.participantId).participantId = row.participantId from rfl,
        if_pos own]
      exact hf.adds row
    · rw [if_neg own, show (zero row.participantId).participantId = row.participantId from rfl,
        if_neg own]
      exact Adds.id.adds row

def creditGame (sideA sideB : Option ParticipantId) (row : StandingRow) (game : Int × Int) :
    StandingRow :=
  credit sideB (countGame game.2 game.1) (credit sideA (countGame game.1 game.2) row)

/-- One result as it counts for a row. -/
def creditResult (playUnits : PlayUnits) (row : StandingRow) (p : PlayUnitId × Result) :
    StandingRow :=
  match playUnits.get p.1 with
  | none => row
  | some unit =>
    if p.2.winnerSide = .NONE then row
    else
      (playedGames p.2).foldl (creditGame unit.sideA.head? unit.sideB.head?)
        (credit (decided unit p.2.winnerSide).2 countLoss
          (credit (decided unit p.2.winnerSide).1 countWin row))

theorem adds_creditGame (sideA sideB : Option ParticipantId) (game : Int × Int) :
    Adds fun row => creditGame sideA sideB row game :=
  (adds_credit sideB (adds_countGame _ _)).comp (adds_credit sideA (adds_countGame _ _))

theorem adds_creditResult (playUnits : PlayUnits) (p : PlayUnitId × Result) :
    Adds fun row => creditResult playUnits row p := by
  unfold creditResult
  cases playUnits.get p.1 with
  | none => exact Adds.id
  | some unit =>
    by_cases dead : p.2.winnerSide = .NONE
    · simp only [dead, if_true]
      exact Adds.id
    · simp only [dead, if_false]
      exact (Adds.foldl (adds_creditGame _ _) _).comp
        ((adds_credit _ adds_countLoss).comp (adds_credit _ adds_countWin))

def standingOf (playUnits : PlayUnits) (results : List (PlayUnitId × Result)) (id : ParticipantId) :
    StandingRow :=
  results.foldl (creditResult playUnits) (zero id)

theorem standingOf_perm (playUnits : PlayUnits) {results results' : List (PlayUnitId × Result)}
    (perm : results.Perm results') (id : ParticipantId) :
    standingOf playUnits results id = standingOf playUnits results' id := by
  have : RightCommutative (creditResult playUnits) :=
    ⟨fun row p q => (adds_creditResult playUnits q).comm (adds_creditResult playUnits p) row⟩
  exact perm.foldl_eq _

/-! ## The tally, row by row -/

/-- Winner and loser of a result that counts. -/
def meeting (playUnits : PlayUnits) (p : PlayUnitId × Result) :
    Option ParticipantId × Option ParticipantId :=
  match playUnits.get p.1 with
  | none => (none, none)
  | some unit => if p.2.winnerSide = .NONE then (none, none) else decided unit p.2.winnerSide

/-- A game as a participant sees it who is on these sides: own points first. -/
def seen (sideA sideB : Option ParticipantId) (id : ParticipantId) (game : Int × Int) :
    List (Int × Int) :=
  (if sideA = some id then [game] else []) ++ if sideB = some id then [game.swap] else []

/-- The games of a result that counts, as a participant sees them. -/
def gamesOf (playUnits : PlayUnits) (id : ParticipantId) (p : PlayUnitId × Result) :
    List (Int × Int) :=
  match playUnits.get p.1 with
  | none => []
  | some unit =>
    if p.2.winnerSide = .NONE then []
    else (playedGames p.2).flatMap (seen unit.sideA.head? unit.sideB.head? id)

/-- The line of a participant with so many wins, losses and these games. -/
def lineOf (id : ParticipantId) (wins losses : Nat) (games : List (Int × Int)) : StandingRow where
  participantId := id
  played := wins + losses
  wins := wins
  losses := losses
  gamesWon := games.countP fun g => g.2 < g.1
  gamesLost := games.countP fun g => g.1 < g.2
  pointsWon := (games.map Prod.fst).sum
  pointsLost := (games.map Prod.snd).sum

theorem lineOf_plus (id : ParticipantId) (w l w' l' : Nat) (games games' : List (Int × Int)) :
    (lineOf id w l games).plus (lineOf id w' l' games') =
      lineOf id (w + w') (l + l') (games ++ games') := by
  simp only [lineOf, plus, List.countP_append, List.map_append, List.sum_append,
    StandingRow.mk.injEq, and_true, true_and]
  omega

theorem credit_lineOf (id : ParticipantId) (participant : Option ParticipantId) {w l w' l' : Nat}
    {games games' : List (Int × Int)} (hf : Adds f) (one : f (zero id) = lineOf id w' l' games') :
    credit participant f (lineOf id w l games) =
      if participant = some id then lineOf id (w + w') (l + l') (games ++ games')
      else lineOf id w l games := by
  have own : (lineOf id w l games).participantId = id := rfl
  by_cases named : participant = some id
  · rw [credit, own, if_pos named.symm, if_pos named, hf.adds, own, one, lineOf_plus]
  · rw [credit, own, if_neg (Ne.symm named), if_neg named]

theorem countGame_zero (id : ParticipantId) (own other : Int) :
    countGame own other (zero id) = lineOf id 0 0 [(own, other)] := by
  simp [countGame, zero, lineOf, List.countP_cons]

theorem creditGame_lineOf (sideA sideB : Option ParticipantId) (id : ParticipantId) (w l : Nat)
    (games : List (Int × Int)) (game : Int × Int) :
    creditGame sideA sideB (lineOf id w l games) game =
      lineOf id w l (games ++ seen sideA sideB id game) := by
  obtain ⟨own, other⟩ := game
  rw [creditGame, credit_lineOf id sideA (adds_countGame own other) (countGame_zero id _ _)]
  by_cases first : sideA = some id
  · rw [if_pos first, credit_lineOf id sideB (adds_countGame other own) (countGame_zero id _ _)]
    by_cases second : sideB = some id <;> simp [seen, first, second]
  · rw [if_neg first, credit_lineOf id sideB (adds_countGame other own) (countGame_zero id _ _)]
    by_cases second : sideB = some id <;> simp [seen, first, second]

theorem creditResult_lineOf (playUnits : PlayUnits) (id : ParticipantId) (w l : Nat)
    (games : List (Int × Int)) (p : PlayUnitId × Result) :
    creditResult playUnits (lineOf id w l games) p =
      lineOf id (w + if (meeting playUnits p).1 = some id then 1 else 0)
        (l + if (meeting playUnits p).2 = some id then 1 else 0)
        (games ++ gamesOf playUnits id p) := by
  have played : ∀ (a b : Option ParticipantId) (l' : List (Int × Int)) w l games,
      l'.foldl (creditGame a b) (lineOf id w l games) =
        lineOf id w l (games ++ l'.flatMap (seen a b id)) := by
    intro a b l'
    induction l' with
    | nil => simp
    | cons g l' ih =>
      intro w l games
      rw [List.foldl_cons, creditGame_lineOf, ih, List.flatMap_cons, List.append_assoc]
  unfold creditResult meeting gamesOf
  cases playUnits.get p.1 with
  | none => simp
  | some unit =>
    by_cases dead : p.2.winnerSide = .NONE
    · simp [dead]
    · simp only [dead, if_false]
      rw [credit_lineOf id _ adds_countWin (show countWin (zero id) = lineOf id 1 0 [] from rfl)]
      split <;>
        rw [credit_lineOf id _ adds_countLoss (show countLoss (zero id) = lineOf id 0 1 [] from rfl)]
        <;> split <;> simp [played]

/-- **Every field of a line**, from the results alone. -/
theorem standingOf_eq (playUnits : PlayUnits) (results : List (PlayUnitId × Result))
    (id : ParticipantId) : standingOf playUnits results id =
      lineOf id (results.countP fun p => (meeting playUnits p).1 = some id)
        (results.countP fun p => (meeting playUnits p).2 = some id)
        (results.flatMap (gamesOf playUnits id)) := by
  have counted : ∀ w l games, results.foldl (creditResult playUnits) (lineOf id w l games) =
      lineOf id (w + results.countP fun p => (meeting playUnits p).1 = some id)
        (l + results.countP fun p => (meeting playUnits p).2 = some id)
        (games ++ results.flatMap (gamesOf playUnits id)) := by
    induction results with
    | nil => simp
    | cons p results ih =>
      intro w l games
      rw [List.foldl_cons, creditResult_lineOf, ih, List.flatMap_cons, List.append_assoc,
        List.countP_cons, List.countP_cons]
      congr 1 <;> simp only [decide_eq_true_eq] <;> omega
  exact (counted 0 0 []).trans (by simp)

def Beat (playUnits : PlayUnits) (p : PlayUnitId × Result) (a b : ParticipantId) : Prop :=
  meeting playUnits p = (some a, some b)

instance (playUnits : PlayUnits) (p : PlayUnitId × Result) (a b : ParticipantId) :
    Decidable (Beat playUnits p a b) :=
  inferInstanceAs (Decidable (_ = _))

def directWins (playUnits : PlayUnits) (results : List (PlayUnitId × Result))
    (a b : ParticipantId) : Nat :=
  results.countP fun p => Beat playUnits p a b

theorem edit_rows (t : Tally) (participant : Option ParticipantId) (f : StandingRow → StandingRow) :
    (t.edit participant f).rows = t.rows.map (credit participant f) := rfl

theorem countResult_rows (playUnits : PlayUnits) (t : Tally) (p : PlayUnitId × Result) :
    (countResult playUnits t p).rows = t.rows.map fun row => creditResult playUnits row p := by
  have games : ∀ (l : List (Int × Int)) (a b : Option ParticipantId) (t : Tally),
      (l.foldl (countGames a b) t).rows = t.rows.map fun row => l.foldl (creditGame a b) row := by
    intro l a b
    induction l with
    | nil => simp
    | cons game l ih =>
      intro t
      rw [List.foldl_cons, ih, countGames, edit_rows, edit_rows, List.map_map, List.map_map]
      rfl
  unfold countResult creditResult
  cases playUnits.get p.1 with
  | none => simp
  | some unit =>
    by_cases dead : p.2.winnerSide = .NONE
    · simp [dead]
    · simp only [dead, if_false]
      rw [games]
      dsimp only
      rw [edit_rows, edit_rows, List.map_map, List.map_map]
      rfl

theorem countGames_meetings (l : List (Int × Int)) (a b : Option ParticipantId) (t : Tally) :
    (l.foldl (countGames a b) t).meetings = t.meetings := by
  induction l generalizing t with
  | nil => rfl
  | cons game l ih => rw [List.foldl_cons, ih]; rfl

theorem has_iff_mem_ids {id : ParticipantId} : t.has (some id) = true ↔ id ∈ t.ids := by
  simp [Tally.has, Tally.ids]

/-- The meeting of two that both have a row. -/
def metInTable (t : Tally) : Option ParticipantId × Option ParticipantId →
    List (ParticipantId × ParticipantId)
  | (some w, some l) => if t.has (some w) && t.has (some l) then [(w, l)] else []
  | _ => []

theorem countResult_meetings (playUnits : PlayUnits) (t : Tally) (p : PlayUnitId × Result) :
    (countResult playUnits t p).meetings = t.meetings ++ metInTable t (meeting playUnits p) := by
  unfold countResult meeting
  cases playUnits.get p.1 with
  | none => simp [metInTable]
  | some unit =>
    by_cases dead : p.2.winnerSide = .NONE
    · simp [dead, metInTable]
    · simp only [dead, if_false, countGames_meetings]
      obtain ⟨winner, loser⟩ := decided unit p.2.winnerSide
      cases winner <;> cases loser <;> rfl

theorem count_countResult (playUnits : PlayUnits) (p : PlayUnitId × Result) (ha : a ∈ t.ids)
    (hb : b ∈ t.ids) :
    (countResult playUnits t p).meetings.count (a, b) =
      t.meetings.count (a, b) + if Beat playUnits p a b then 1 else 0 := by
  rw [countResult_meetings, List.count_append]
  congr 1
  by_cases beat : Beat playUnits p a b
  · rw [if_pos beat, show meeting playUnits p = (some a, some b) from beat, metInTable,
      has_iff_mem_ids.mpr ha, has_iff_mem_ids.mpr hb]
    simp
  · rw [if_neg beat]
    unfold Beat at beat
    unfold metInTable
    split
    · next w l same =>
      rw [same] at beat
      have other : (w, l) ≠ (a, b) := by
        simpa using beat
      split
      · exact List.count_eq_zero.mpr fun mem => other (List.mem_singleton.mp mem).symm
      · rfl
    · rfl

theorem foldl_countResult (playUnits : PlayUnits) (results : List (PlayUnitId × Result))
    (t : Tally) : (results.foldl (countResult playUnits) t).rows =
        t.rows.map (fun row => results.foldl (creditResult playUnits) row) ∧
      ∀ a ∈ t.ids, ∀ b ∈ t.ids,
        (results.foldl (countResult playUnits) t).meetings.count (a, b) =
          t.meetings.count (a, b) + directWins playUnits results a b := by
  induction results generalizing t with
  | nil => simp [directWins]
  | cons p results ih =>
    obtain ⟨rows, meetings⟩ := ih (countResult playUnits t p)
    rw [ids_countResult] at meetings
    refine ⟨?_, fun a ha b hb => ?_⟩
    · rw [List.foldl_cons, rows, countResult_rows, List.map_map]
      rfl
    · rw [List.foldl_cons, meetings a ha b hb, count_countResult playUnits p ha hb]
      simp only [directWins, List.countP_cons, decide_eq_true_eq]
      omega

theorem startRows_zero {row : StandingRow} (h : row ∈ (startRows participantIds).rows) :
    row = zero row.participantId := by
  obtain ⟨id, -, rfl⟩ := List.mem_map.mp (Table.mem_ofRows h)
  rfl

theorem mem_startRows {id : ParticipantId} :
    id ∈ (startRows participantIds).rows.map StandingRow.participantId ↔
      id ∈ participantIds ∧ id ≠ BYE := by
  have start : ∀ row ∈ (participantIds.filter (· ≠ BYE)).map fun id =>
      ({ participantId := id } : StandingRow), some (zero row.participantId) = some row := by
    intro row hrow
    obtain ⟨id, -, rfl⟩ := List.mem_map.mp hrow
    rfl
  have written := Table.get_foldl_put (f := fun id => some (zero id)) start
    (Table.empty : Table StandingRow.participantId) id
  have named : id ∈ ((participantIds.filter (· ≠ BYE)).map fun id =>
      ({ participantId := id } : StandingRow)).map StandingRow.participantId ↔
        id ∈ participantIds ∧ id ≠ BYE := by
    simp [Function.comp_def]
  show (startRows participantIds).Has id ↔ _
  rw [← named, ← not_iff_not, ← Table.get_eq_none_iff, startRows, Table.ofRows, written]
  split
  · next mem => simpa using mem
  · next absent => simpa using absent

theorem tallied_rows (playUnits : PlayUnits) (results : List (PlayUnitId × Result))
    (participantIds : List ParticipantId) : (tallied playUnits results participantIds).rows =
      ((startRows participantIds).rows.map StandingRow.participantId).map
        (standingOf playUnits results) := by
  rw [tallied, (foldl_countResult playUnits results _).1, List.map_map]
  refine List.map_congr_left fun row hrow => ?_
  rw [Function.comp_apply, standingOf, ← startRows_zero hrow]

theorem tallied_meetings (playUnits : PlayUnits) (results : List (PlayUnitId × Result))
    (participantIds : List ParticipantId) (ha : a ∈ (tallied playUnits results participantIds).ids)
    (hb : b ∈ (tallied playUnits results participantIds).ids) :
    (tallied playUnits results participantIds).meetings.count (a, b) =
      directWins playUnits results a b := by
  rw [ids_tallied] at ha hb
  have counted := (foldl_countResult playUnits results
    { rows := (startRows participantIds).rows }).2 a ha b hb
  rw [tallied, counted]
  simp

/-! ## The other side -/

def WinnerSide.swapped : WinnerSide → WinnerSide
  | .A => .B
  | .B => .A
  | .NONE => .NONE

def PlayUnit.swapped (unit : PlayUnit) : PlayUnit :=
  { unit with
    sideA := unit.sideB
    sideB := unit.sideA
    slotA := unit.slotB
    slotB := unit.slotA }

def swapKey (key : String) : String :=
  if key = "sideA" then "sideB" else if key = "sideB" then "sideA" else key

def swapGame : Json → Json
  | .obj game => .obj (game.map fun p => (swapKey p.1, p.2))
  | other => other

def swapGames : Json → Json
  | .arr games => .arr (games.map swapGame)
  | other => other

/-- The result as it is read with the sides the other way round. -/
def Result.swapped (result : Result) : Result :=
  { result with
    winnerSide := result.winnerSide.swapped
    score := result.score.map fun score =>
      score.map fun p => if p.1 = "sets" then (p.1, swapGames p.2) else p }

def swapUnit (id : PlayUnitId) (playUnits : PlayUnits) : PlayUnits :=
  playUnits.update (fun unit => if unit.id = id then unit.swapped else unit) fun unit => by
    split <;> rfl

def swapResult (id : PlayUnitId) (p : PlayUnitId × Result) : PlayUnitId × Result :=
  if p.1 = id then (p.1, p.2.swapped) else p

theorem swapKey_swapKey (key : String) : swapKey (swapKey key) = key := by
  unfold swapKey
  split_ifs with a b c <;> simp_all

theorem get_swapKey (key : String) (game : JsonObject) :
    Assoc.get key (game.map fun p => (swapKey p.1, p.2)) = Assoc.get (swapKey key) game := by
  induction game with
  | nil => rfl
  | cons p game ih =>
    have same : swapKey p.1 = key ↔ p.1 = swapKey key :=
      ⟨fun e => e ▸ (swapKey_swapKey p.1).symm, fun e => e ▸ swapKey_swapKey key⟩
    rw [List.map_cons, Assoc.get_cons, ih]
    simp only [same]
    rfl

theorem gameScore_swapGame (game : Json) :
    gameScore (swapGame game) = (gameScore game).map Prod.swap := by
  cases game with
  | obj game =>
    simp only [swapGame, gameScore, get_swapKey]
    rw [show swapKey "sideA" = "sideB" from rfl, show swapKey "sideB" = "sideA" from rfl]
    cases scoreInt (Assoc.get "sideA" game) <;> cases scoreInt (Assoc.get "sideB" game) <;> rfl
  | _ => rfl

theorem get_sets_swapped (score : JsonObject) :
    Assoc.get "sets" (score.map fun p => if p.1 = "sets" then (p.1, swapGames p.2) else p) =
      (Assoc.get "sets" score).map swapGames := by
  induction score with
  | nil => rfl
  | cons p score ih =>
    obtain ⟨k, v⟩ := p
    rw [List.map_cons]
    by_cases sets : k = "sets"
    · simp [sets]
    · simp only [sets, if_false, Assoc.get_cons, ih]

theorem setGames_swapped (sets : Json) :
    setGames (swapGames sets) = (setGames sets).map (·.map Prod.swap) := by
  cases sets with
  | arr games =>
    simp only [setGames, swapGames, Except.map, List.filterMap_map, List.map_filterMap]
    exact congrArg _ (List.filterMap_congr fun game _ => gameScore_swapGame game)
  | _ =>
    simp only [setGames, swapGames]
    split <;> rfl

theorem resultGames_swapped (result : Result) :
    resultGames result.swapped = (resultGames result).map (·.map Prod.swap) := by
  unfold resultGames Result.swapped
  dsimp only
  split
  · rfl
  · cases result.score with
    | none => rfl
    | some score =>
      simp only [Option.map_some, Option.bind_some, get_sets_swapped]
      cases Assoc.get "sets" score with
      | none => rfl
      | some sets => exact setGames_swapped sets

theorem playedGames_swapped (result : Result) :
    playedGames result.swapped = (playedGames result).map Prod.swap := by
  rw [playedGames, resultGames_swapped, playedGames]
  cases resultGames result <;> rfl

theorem decided_swapped (unit : PlayUnit) {w : WinnerSide} (live : w ≠ .NONE) :
    decided unit.swapped w.swapped = decided unit w := by
  cases w with
  | A => rfl
  | B => rfl
  | NONE => exact absurd rfl live

theorem creditGame_swap (sideA sideB : Option ParticipantId) (row : StandingRow)
    (game : Int × Int) : creditGame sideB sideA row game.swap = creditGame sideA sideB row game :=
  (adds_credit sideA (adds_countGame game.1 game.2)).comm
    (adds_credit sideB (adds_countGame game.2 game.1)) row

theorem get_swapUnit (id : PlayUnitId) (playUnits : PlayUnits) (k : PlayUnitId) :
    (swapUnit id playUnits).get k =
      (playUnits.get k).map fun unit => if k = id then unit.swapped else unit := by
  rw [swapUnit, Table.get_update]
  refine Option.map_congr fun unit hu => ?_
  rw [← show unit.id = k from Table.key_of_get hu]

theorem swapped_winnerSide (result : Result) :
    result.swapped.winnerSide = .NONE ↔ result.winnerSide = .NONE := by
  unfold Result.swapped
  cases result.winnerSide <;> simp [WinnerSide.swapped]

theorem creditResult_swap (id : PlayUnitId) (playUnits : PlayUnits) (row : StandingRow)
    (p : PlayUnitId × Result) :
    creditResult (swapUnit id playUnits) row (swapResult id p) = creditResult playUnits row p := by
  by_cases own : p.1 = id
  · rw [swapResult, if_pos own]
    unfold creditResult
    rw [get_swapUnit]
    cases playUnits.get p.1 with
    | none => rfl
    | some unit =>
      simp only [Option.map_some, if_pos own, swapped_winnerSide]
      split
      · rfl
      · next live =>
        rw [show p.2.swapped.winnerSide = p.2.winnerSide.swapped from rfl,
          decided_swapped unit live, playedGames_swapped, List.foldl_map]
        refine congrArg₂ (fun f b => List.foldl f b (playedGames p.2)) ?_ rfl
        funext row game
        exact creditGame_swap _ _ row game
  · rw [swapResult, if_neg own]
    unfold creditResult
    rw [get_swapUnit]
    cases playUnits.get p.1 with
    | none => rfl
    | some unit => simp only [Option.map_some, if_neg own]

theorem meeting_swap (id : PlayUnitId) (playUnits : PlayUnits) (p : PlayUnitId × Result) :
    meeting (swapUnit id playUnits) (swapResult id p) = meeting playUnits p := by
  by_cases own : p.1 = id
  · rw [swapResult, if_pos own]
    unfold meeting
    rw [get_swapUnit]
    cases playUnits.get p.1 with
    | none => rfl
    | some unit =>
      simp only [Option.map_some, if_pos own, swapped_winnerSide]
      split
      · rfl
      · next live => exact decided_swapped unit live
  · rw [swapResult, if_neg own]
    unfold meeting
    rw [get_swapUnit]
    cases playUnits.get p.1 with
    | none => rfl
    | some unit => simp only [Option.map_some, if_neg own]

theorem tallied_swap (id : PlayUnitId) (playUnits : PlayUnits)
    (results : List (PlayUnitId × Result)) (participantIds : List ParticipantId) :
    tallied (swapUnit id playUnits) (results.map (swapResult id)) participantIds =
      tallied playUnits results participantIds := by
  have step : ∀ t p, countResult (swapUnit id playUnits) t (swapResult id p) =
      countResult playUnits t p := by
    intro t p
    have rows : (countResult (swapUnit id playUnits) t (swapResult id p)).rows =
        (countResult playUnits t p).rows := by
      simp only [countResult_rows, creditResult_swap]
    have meetings : (countResult (swapUnit id playUnits) t (swapResult id p)).meetings =
        (countResult playUnits t p).meetings := by
      simp only [countResult_meetings, meeting_swap]
    exact congrArg₂ Tally.mk rows meetings
  rw [tallied, List.foldl_map]
  simp only [step]
  rfl

end Brackets
