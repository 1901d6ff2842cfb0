import Mathlib.Data.Prod.Lex
import Mathlib.Data.String.Basic
import ShuttleWorks.Brackets.StandingCounts
import ShuttleWorks.Lib.Thinning

/-! In which order the standings are: the tie-break chain as a relation between two rows, which the
sort, the split into level groups and the direct meetings together establish. -/

namespace Brackets
open Lib

/-! ## The order of the rows -/

variable {t : Tally} {playUnits : PlayUnits} {results : List (PlayUnitId × Result)}

section Order

variable {ρ : Type} (ratio : Int → Int → ρ) {a b : StandingRow}

def rankKey (row : StandingRow) : Nat ×ₗ ρ ×ₗ ρ :=
  toLex (row.wins, toLex (ratio row.gamesWon row.gamesLost, ratio row.pointsWon row.pointsLost))

theorem rankKey_eq_iff :
    rankKey ratio a = rankKey ratio b ↔ chainKey ratio a = chainKey ratio b := by
  simp [rankKey, chainKey]

variable [LinearOrder ρ]

theorem rankKey_lt_iff : rankKey ratio b < rankKey ratio a ↔
    b.wins < a.wins ∨ b.wins = a.wins ∧
      (ratio b.gamesWon b.gamesLost < ratio a.gamesWon a.gamesLost ∨
        ratio b.gamesWon b.gamesLost = ratio a.gamesWon a.gamesLost ∧
          ratio b.pointsWon b.pointsLost < ratio a.pointsWon a.pointsLost) := by
  simp [rankKey, Prod.Lex.toLex_lt_toLex]

theorem ranksBefore_iff : ranksBefore ratio a b = true ↔
    rankKey ratio b < rankKey ratio a ∨
      rankKey ratio a = rankKey ratio b ∧ a.participantId ≤ b.participantId := by
  rw [rankKey_lt_iff, rankKey_eq_iff]
  unfold ranksBefore chainKey
  dsimp only
  split_ifs with wins games points
  · simp [wins, Ne.symm wins]
  · simp only [not_not] at wins
    simp [wins, games, Ne.symm games]
  · simp only [not_not] at wins games
    simp [wins, games, points]
  · simp only [not_not] at wins games points
    simp [wins, games, points]

theorem ranksBefore_trans {c : StandingRow} (ab : ranksBefore ratio a b = true)
    (bc : ranksBefore ratio b c = true) : ranksBefore ratio a c = true := by
  rw [ranksBefore_iff] at ab bc ⊢
  rcases ab with ab | ⟨eab, ab⟩
  · rcases bc with bc | ⟨ebc, -⟩
    · exact .inl (bc.trans ab)
    · exact .inl (ebc ▸ ab)
  · rcases bc with bc | ⟨ebc, bc⟩
    · exact .inl (eab ▸ bc)
    · exact .inr ⟨eab.trans ebc, ab.trans bc⟩

theorem ranksBefore_total (a b : StandingRow) :
    (ranksBefore ratio a b || ranksBefore ratio b a) = true := by
  rw [Bool.or_eq_true, ranksBefore_iff, ranksBefore_iff]
  rcases lt_trichotomy (rankKey ratio a) (rankKey ratio b) with lt | eq | gt
  · exact .inr (.inl lt)
  · rcases le_total a.participantId b.participantId with le | le
    · exact .inl (.inr ⟨eq, le⟩)
    · exact .inr (.inr ⟨eq.symm, le⟩)
  · exact .inl (.inl gt)

def sorted (t : Tally) : List StandingRow := t.rows.mergeSort (ranksBefore ratio)

theorem sorted_pairwise (t : Tally) :
    (sorted ratio t).Pairwise fun a b => ranksBefore ratio a b = true :=
  @List.pairwise_mergeSort _ (ranksBefore ratio) (fun _ _ _ => ranksBefore_trans ratio)
    (ranksBefore_total ratio) t.rows

theorem sorted_descends (t : Tally) : Descends (rankKey ratio) (sorted ratio t) := by
  refine (sorted_pairwise ratio t).imp fun {a b} before => ?_
  rcases (ranksBefore_iff ratio).mp before with lt | ⟨eq, -⟩
  · exact lt.le
  · exact eq.symm.le

theorem level_by_id (distinct : t.ids.Nodup) (a : StandingRow) :
    ((sorted ratio t).filter fun b => rankKey ratio b = rankKey ratio a).Pairwise fun b c =>
      b.participantId < c.participantId := by
  have ids : ((sorted ratio t).map StandingRow.participantId).Nodup :=
    ((List.mergeSort_perm _ _).map _).nodup_iff.mpr distinct
  have apart : (sorted ratio t).Pairwise fun b c => b.participantId ≠ c.participantId :=
    List.pairwise_map.mp ids
  rw [List.pairwise_filter]
  refine ((sorted_pairwise ratio t).and apart).imp fun {b c} ⟨before, ne⟩ hb hc => ?_
  have level : rankKey ratio b = rankKey ratio c :=
    (of_decide_eq_true hb).trans (of_decide_eq_true hc).symm
  rcases (ranksBefore_iff ratio).mp before with lt | ⟨-, le⟩
  · exact absurd level lt.ne'
  · exact lt_of_le_of_ne le ne

/-- Which of two level rows is first, the two being alone on their level or not. -/
def TieBreak (playUnits : PlayUnits) (results : List (PlayUnitId × Result)) (alone : Prop)
    [Decidable alone] (a b : StandingRow) : Prop :=
  let beats := fun (x y : StandingRow) =>
    directWins playUnits results x.participantId y.participantId
  if alone then beats b a < beats a b ∨ beats a b = beats b a ∧ a.participantId < b.participantId
  else a.participantId < b.participantId

theorem headToHead_ties {meetings : List (ParticipantId × ParticipantId)} {group : List StandingRow}
    (byId : group.Pairwise fun a b => a.participantId < b.participantId)
    (counted : ∀ a ∈ group, ∀ b ∈ group, meetings.count (a.participantId, b.participantId) =
      directWins playUnits results a.participantId b.participantId) :
    (headToHead meetings group).Pairwise (TieBreak playUnits results (group.length = 2)) := by
  unfold headToHead
  split
  · next first second =>
    have first_second := counted first (by simp) second (by simp)
    have second_first := counted second (by simp) first (by simp)
    have lt : first.participantId < second.participantId :=
      (List.pairwise_cons.mp byId).1 second (by simp)
    rw [first_second, second_first]
    split
    · next more =>
      rw [List.pairwise_pair, TieBreak, if_pos (show [first, second].length = 2 from rfl)]
      exact .inl more
    · next more =>
      rw [List.pairwise_pair, TieBreak, if_pos (show [first, second].length = 2 from rfl)]
      exact (Nat.lt_or_eq_of_le (Nat.le_of_not_lt more)).imp_right fun e => ⟨e.symm, lt⟩
  · next other =>
    refine byId.imp fun {a b} lt => ?_
    have more : ¬ group.length = 2 := by
      intro two
      obtain ⟨x, y, rfl⟩ := List.length_eq_two.mp two
      exact other x y rfl
    rw [TieBreak, if_neg more]
    exact lt

/-- The first stands before the second. -/
def StandsBefore (playUnits : PlayUnits) (results : List (PlayUnitId × Result))
    (rows : List StandingRow) (a b : StandingRow) : Prop :=
  rankKey ratio b < rankKey ratio a ∨ rankKey ratio a = rankKey ratio b ∧
    TieBreak playUnits results ((rows.countP fun c => rankKey ratio c = rankKey ratio a) = 2) a b

theorem sortRows_eq (t : Tally) : sortRows ratio t =
    ((sorted ratio t).splitBy fun a b => decide (rankKey ratio a = rankKey ratio b)).flatMap
      (headToHead t.meetings) := by
  have same : (fun a b => decide (chainKey ratio a = chainKey ratio b)) =
      fun a b => decide (rankKey ratio a = rankKey ratio b) := by
    funext a b
    exact decide_eq_decide.mpr (rankKey_eq_iff ratio).symm
  rw [sortRows, same, sorted]

theorem sortRows_ordered (distinct : t.ids.Nodup) (counted : ∀ a ∈ t.ids, ∀ b ∈ t.ids,
      t.meetings.count (a, b) = directWins playUnits results a b) :
    (sortRows ratio t).Pairwise
      (StandsBefore ratio playUnits results (sortRows ratio t)) := by
  have members : ∀ {a}, a ∈ sorted ratio t → a.participantId ∈ t.ids := fun {a} ha =>
    List.mem_map_of_mem ((List.mergeSort_perm _ _).mem_iff.mp ha)
  have ordered := pairwise_refined (sorted_descends ratio t) (headToHead_perm t.meetings)
    (T := fun group => TieBreak playUnits results (group.length = 2)) fun a _ => by
      refine headToHead_ties (level_by_id ratio distinct a) fun b hb c hc => ?_
      exact counted _ (members (List.mem_of_mem_filter hb)) _ (members (List.mem_of_mem_filter hc))
  rw [← sortRows_eq] at ordered
  refine ordered.imp fun {a b} before => before.imp_right fun ⟨level, tie⟩ => ⟨level, ?_⟩
  have perm : (sortRows ratio t).Perm (sorted ratio t) :=
    (sortRows_perm ratio t).trans (List.mergeSort_perm _ _).symm
  rw [← List.countP_eq_length_filter] at tie
  rw [perm.countP_eq]
  exact tie

end Order

/-! ## The standings -/

section Standings

variable {ρ : Type} [LinearOrder ρ] (ratio : Int → Int → ρ)

theorem sortRows_congr {t' : Tally} (rows : t.rows = t'.rows)
    (counted : ∀ a ∈ t.ids, ∀ b ∈ t.ids, t.meetings.count (a, b) = t'.meetings.count (a, b)) :
    sortRows ratio t = sortRows ratio t' := by
  rw [sortRows, sortRows, ← rows]
  refine List.flatMap_congr fun group hgroup => ?_
  have member : ∀ row ∈ group, row.participantId ∈ t.ids := by
    intro row hrow
    have mem := List.mem_flatten_of_mem hgroup hrow
    rw [List.flatten_splitBy, (List.mergeSort_perm _ _).mem_iff] at mem
    exact List.mem_map_of_mem mem
  unfold headToHead
  split
  · next first second =>
    rw [counted _ (member first (by simp)) _ (member second (by simp)),
      counted _ (member second (by simp)) _ (member first (by simp))]
  · rfl

theorem standingRows_order (playUnits : PlayUnits) {results' : List (PlayUnitId × Result)}
    (perm : results.Perm results') (participantIds : List ParticipantId) :
    standingRows ratio playUnits results' participantIds =
      standingRows ratio playUnits results participantIds := by
  have rows : (tallied playUnits results' participantIds).rows =
      (tallied playUnits results participantIds).rows := by
    rw [tallied_rows, tallied_rows]
    exact List.map_congr_left fun id _ => (standingOf_perm playUnits perm id).symm
  rw [standingRows, standingRows, ranked, ranked, sortRows_congr ratio rows]
  intro a ha b hb
  have ids : (tallied playUnits results' participantIds).ids =
      (tallied playUnits results participantIds).ids := by
    rw [Tally.ids, rows, Tally.ids]
  rw [tallied_meetings playUnits results' participantIds ha hb,
    tallied_meetings playUnits results participantIds (ids ▸ ha) (ids ▸ hb)]
  exact (perm.countP_eq _).symm

theorem standingRows_swap (id : PlayUnitId) (playUnits : PlayUnits)
    (results : List (PlayUnitId × Result)) (participantIds : List ParticipantId) :
    standingRows ratio (swapUnit id playUnits) (results.map (swapResult id)) participantIds =
      standingRows ratio playUnits results participantIds := by
  rw [standingRows, tallied_swap, standingRows]

theorem tallied_ids_nodup (playUnits : PlayUnits) (results : List (PlayUnitId × Result))
    (participantIds : List ParticipantId) :
    (tallied playUnits results participantIds).ids.Nodup := by
  rw [ids_tallied]
  exact (startRows participantIds).unique

theorem mem_standingRows {participantIds : List ParticipantId} {row : StandingRow}
    (h : row ∈ standingRows ratio playUnits results participantIds) :
    row = { standingOf playUnits results row.participantId with position := row.position } := by
  obtain ⟨⟨r, i⟩, hr, rfl⟩ := List.mem_map.mp h
  have mem := List.mem_of_getElem? (List.mem_zipIdx_iff_getElem?.mp hr)
  rw [(sortRows_perm ratio _).mem_iff, tallied_rows] at mem
  obtain ⟨id, -, rfl⟩ := List.mem_map.mp mem
  have own : (standingOf playUnits results id).participantId = id :=
    (StandingRow.Adds.foldl (adds_creditResult playUnits) results).keeps (StandingRow.zero id)
  simp only [own]

theorem standingRows_ordered (playUnits : PlayUnits) (results : List (PlayUnitId × Result))
    (participantIds : List ParticipantId) :
    (standingRows ratio playUnits results participantIds).Pairwise
      (StandsBefore ratio playUnits results
        (standingRows ratio playUnits results participantIds)) := by
  have ordered := sortRows_ordered ratio (tallied_ids_nodup playUnits results participantIds)
    fun a ha b hb => tallied_meetings playUnits results participantIds ha hb
  obtain ⟨l, hl⟩ : ∃ l, l = sortRows ratio (tallied playUnits results participantIds) := ⟨_, rfl⟩
  have unnumbered : l.zipIdx.map Prod.fst = l := List.zipIdx_map_fst 0 l
  -- numbering the rows changes nothing that the order looks at
  have level : ∀ a, (standingRows ratio playUnits results participantIds).countP
      (fun c => rankKey ratio c = rankKey ratio a) =
        l.countP fun c => rankKey ratio c = rankKey ratio a := by
    intro a
    rw [standingRows, ranked, ← hl, List.countP_map]
    nth_rewrite 2 [← unnumbered]
    rw [List.countP_map]
    rfl
  have paired : (l.zipIdx.map Prod.fst).Pairwise (StandsBefore ratio playUnits results l) := by
    rw [unnumbered, hl]
    exact ordered
  have numbered : (standingRows ratio playUnits results participantIds).Pairwise
      (StandsBefore ratio playUnits results l) := by
    rw [standingRows, ranked, ← hl, List.pairwise_map]
    have places := List.pairwise_map.mp paired
    exact places
  refine numbered.imp fun {a b} before => ?_
  unfold StandsBefore at before ⊢
  simp only [level]
  exact before

end Standings

/-- What standings are: one line for every participant but the bye, numbered from one, each with the
wins, losses, games and points its participant's results hold; higher by wins, then games, then
points, then among exactly two by their meetings and else by the id; and the same whatever the order
of the results and the names of the sides. -/
structure AreStandings (playUnits : PlayUnits) (results : List (PlayUnitId × Result))
    (participantIds : List ParticipantId) (rows : List StandingRow) : Prop where
  distinct : (rows.map StandingRow.participantId).Nodup
  everyone : ∀ id, id ∈ rows.map StandingRow.participantId ↔ id ∈ participantIds ∧ id ≠ BYE
  numbered : rows.map StandingRow.position = (List.range rows.length).map (· + 1)
  counted : ∀ row ∈ rows, row =
    { lineOf row.participantId
        (results.countP fun p => (meeting playUnits p).1 = some row.participantId)
        (results.countP fun p => (meeting playUnits p).2 = some row.participantId)
        (results.flatMap (gamesOf playUnits row.participantId)) with position := row.position }
  ordered : rows.Pairwise (StandsBefore winRatio playUnits results rows)
  anyOrder : ∀ results', results.Perm results' →
    computeStandings winRatio playUnits results' participantIds = .ok rows
  anySide : ∀ id, computeStandings winRatio (swapUnit id playUnits) (results.map (swapResult id))
    participantIds = .ok rows

theorem uncountable_swap (id : PlayUnitId) (playUnits : PlayUnits) (p : PlayUnitId × Result) :
    Uncountable (swapUnit id playUnits) (swapResult id p) ↔ Uncountable playUnits p := by
  -- both tell whether the result can be added to a tally
  have fails : ∀ (units : PlayUnits) (q : PlayUnitId × Result), Uncountable units q ↔
      units.get q.1 ≠ none ∧ q.2.winnerSide ≠ .NONE ∧ ¬ ∃ games, resultGames q.2 = .ok games := by
    intro units q
    rw [resultGames_ok_iff, not_not, Ne, Table.get_eq_none_iff, not_not]
    exact ⟨fun h => ⟨h.unit, h.live, h.played, h.sets⟩, fun ⟨u, l, w, s⟩ => ⟨u, l, w, s⟩⟩
  rw [fails, fails, get_swapUnit, swapResult]
  split
  · simp only [ne_eq, swapped_winnerSide, resultGames_swapped, Option.map_eq_none_iff]
    cases resultGames p.2 <;> simp [Except.map]
  · simp

/-- **The standings** are answered, as they should be, exactly when every result that counts has
sets that can be gone through. -/
theorem computeStandings_spec_iff (playUnits : PlayUnits) (results : List (PlayUnitId × Result))
    (participantIds : List ParticipantId) :
    (∃ rows, computeStandings winRatio playUnits results participantIds = .ok rows ∧
      AreStandings playUnits results participantIds rows) ↔
      ∀ p ∈ results, ¬ Uncountable playUnits p := by
  constructor
  · rintro ⟨rows, ok, -⟩
    exact ((computeStandings_eq_ok winRatio).mp ok).1
  · intro free
    have perm := standingRows_perm winRatio playUnits results participantIds
    refine ⟨_, (computeStandings_eq_ok winRatio).mpr ⟨free, rfl⟩,
      perm.nodup_iff.mpr (startRows participantIds).unique,
      fun id => perm.mem_iff.trans mem_startRows, ?_, fun row hrow => ?_,
      standingRows_ordered winRatio playUnits results participantIds, fun results' perm => ?_,
      fun id => ?_⟩
    · rw [standingRows, ranked]
      refine List.ext_getElem (by simp) fun i _ _ => by simp
    · rw [← standingOf_eq]
      exact mem_standingRows winRatio hrow
    · exact (computeStandings_eq_ok winRatio).mpr ⟨fun p hp => free p (perm.mem_iff.mpr hp),
        (standingRows_order winRatio playUnits perm participantIds).symm⟩
    · refine (computeStandings_eq_ok winRatio).mpr ⟨?_,
        (standingRows_swap winRatio id playUnits results participantIds).symm⟩
      intro p hp
      obtain ⟨q, hq, rfl⟩ := List.mem_map.mp hp
      rw [uncountable_swap]
      exact free q hq

def poolMatch (id : PlayUnitId) (a b : ParticipantId) : PlayUnit where
  id := id
  eventId := "pool"
  sideA := [a]
  sideB := [b]
  slotA := .participant a
  slotB := .participant b

def poolUnits : PlayUnits :=
  ⟨[poolMatch "m1" "ann" "bob", poolMatch "m2" "bob" "cid"], by decide⟩

def firstMatch : PlayUnitId × Result :=
  ("m1", { winnerSide := .A
           score := some [("sets", .arr [.obj [("sideA", .int 21), ("sideB", .int 15)]])] })

def secondMatch : PlayUnitId × Result := ("m2", { winnerSide := .B, walkover := true })

theorem pool_standings : ∃ rows,
    computeStandings winRatio poolUnits [firstMatch, secondMatch] ["ann", "bob", "cid"] =
      .ok rows ∧
    computeStandings winRatio poolUnits [secondMatch, firstMatch] ["ann", "bob", "cid"] =
      .ok rows ∧ rows.map StandingRow.position = [1, 2, 3] := by
  have free : ∀ p ∈ [firstMatch, secondMatch], ¬ Uncountable poolUnits p := by
    rintro p hp ⟨-, -, played, sets, stored, -, stuck⟩
    simp only [List.mem_cons, List.not_mem_nil, or_false] at hp
    rcases hp with rfl | rfl
    · cases stored
      cases stuck
    · cases played
  obtain ⟨rows, ok, spec⟩ :=
    (computeStandings_spec_iff poolUnits [firstMatch, secondMatch] ["ann", "bob", "cid"]).mpr free
  have length : rows.length = 3 := by
    have perm := standingRows_perm winRatio poolUnits [firstMatch, secondMatch]
      ["ann", "bob", "cid"]
    rw [((computeStandings_eq_ok winRatio).mp ok).2, ← List.length_map, perm.length_eq]
    rfl
  refine ⟨rows, ok, spec.anyOrder _ (List.Perm.swap _ _ _), ?_⟩
  rw [spec.numbered, length]
  rfl

/-- An imported result whose sets are a number. -/
def numberOfSets : PlayUnitId × Result :=
  ("m1", { winnerSide := .A, score := some [("sets", .int 5)] })

theorem number_of_sets_raises :
    computeStandings winRatio poolUnits [numberOfSets] ["ann", "bob", "cid"] =
      .error (.notIterable (.int 5)) ∧
    ¬ ∃ rows, computeStandings winRatio poolUnits [numberOfSets] ["ann", "bob", "cid"] = .ok rows ∧
      AreStandings poolUnits [numberOfSets] ["ann", "bob", "cid"] rows := by
  have raised : computeStandings winRatio poolUnits [numberOfSets] ["ann", "bob", "cid"] =
      .error (.notIterable (.int 5)) := rfl
  refine ⟨raised, ?_⟩
  rintro ⟨rows, ok, -⟩
  rw [raised] at ok
  cases ok

end Brackets
