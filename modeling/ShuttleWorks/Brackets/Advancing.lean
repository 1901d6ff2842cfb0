import ShuttleWorks.Brackets.ImportedTurns

/-! Winners in the units that take them. A slot takes one id of the side that won, so that a
side of one named player stands whole in the next unit; it stays there through every result
that is stored later. -/

namespace Brackets
open Lib

variable {o : List PlayUnit} {units : PlayUnits} {res : PlayUnitId → Option Result}
  {s s' : TournamentState} {u : PlayUnit} {r : Result} {X : PlayUnit.Place} {f : PlayUnitId}
  {Y : PlayUnit.Place}

def Sole : Side → Prop
  | [] => True
  | [p] => p ≠ "" ∧ p ≠ BYE
  | _ => False

instance (side : Side) : Decidable (Sole side) :=
  match side with
  | [] => isTrue trivial
  | [p] => inferInstanceAs (Decidable (p ≠ "" ∧ p ≠ BYE))
  | _ :: _ :: _ => isFalse id

/-- Whoever won a unit stands, all of them, where the slot takes its winner. -/
def KeepsSides (draws : List Draw) (s : TournamentState) : Prop :=
  ∀ d ∈ draws, ∀ u ∈ d.playUnits.rows, ∀ v ∈ d.playUnits.rows, ∀ X Y : PlayUnit.Place,
    v.slot Y = .feeder u.id .winner → ∀ r, s.result u.id = some r → r.winnerSide = X.wins →
    ∀ u' v', s.playUnits.get u.id = some u' → s.playUnits.get v.id = some v' →
      (v'.side Y).Perm (u'.side X)

/-! ## One place -/

theorem settleUnit_side (u : PlayUnit) (X : PlayUnit.Place) :
    (settleUnit units res u).side X = settleSide units res (u.slot X) (u.side X) := by
  cases X <;> rfl

theorem Sole.carried {side : Side} (h : Sole side) :
    (BracketSlot.participant (orBye side.head?)).refreshSide [] = side := by
  match side, h with
  | [], _ => rfl
  | [p], ⟨named, present⟩ => simp [orBye, BracketSlot.refreshSide, named, present]

theorem settled_side_eq {w : PlayUnit} (slot : u.slot X = .feeder f .winner) (empty : u.side X = [])
    (known : res f = some r) (stored : units.get f = some w) (won : r.winnerSide = Y.wins)
    (sole : Sole (w.side Y)) :
    (settleUnit units res u).side X = w.side Y := by
  have fed : settleSlot units res (.feeder f .winner) =
      .participant (orBye (w.side Y).head?) := by
    rw [settleSlot, known, stored, ← fed_winner _ won]
  rw [settleUnit_side, slot, empty, settleSide, fed]
  exact sole.carried

theorem sole_of_waiting {take : FeederTake} (slot : u.slot X = .feeder f take)
    (empty : u.side X = []) :
    Sole ((settleUnit units res u).side X) := by
  rw [settleUnit_side, slot, empty, settleSide, settleSlot]
  split
  · next result feeder _ _ =>
    have named := orBye_ne_empty (feeder.fed result take)
    rw [BracketSlot.refreshSide]
    split
    · trivial
    · next present => exact ⟨named, present⟩
  · trivial

theorem settled_of_side (shape : u.Concrete ∨ u.Waiting)
    (known : (settleUnit units res u).side X ≠ []) :
    ((settleUnit units res u).slot X).feederPlayUnitId = none := by
  by_contra waits
  obtain ⟨f, fed⟩ := Option.ne_none_iff_exists'.mp waits
  exact known (side_of_waits shape fed)

theorem receive_place {recorded : PlayUnit} (r : Result) (shape : u.Concrete ∨ u.Waiting)
    (settled : ((settleUnit units res u).slot X).feederPlayUnitId = none) :
    (receive recorded r (settleUnit units res u)).side X = (settleUnit units res u).side X ∧
      (receive recorded r (settleUnit units res u)).slot X = (settleUnit units res u).slot X := by
  unfold receive
  split
  · next receives =>
    rcases shape with concrete | ⟨hA, hB, ⟨f, -, t, ha⟩, g, -, t', hb⟩
    · have hd : recorded.id ∈ u.dependencies := receives.2.1
      rw [concrete.1] at hd
      cases hd
    · cases X
      · simp only [PlayUnit.slot, settleUnit] at settled
        cases hs : settleSlot units res u.slotA with
        | participant p =>
          have slotA : (settleUnit units res u).slotA = .participant p := hs
          have sideA : (settleUnit units res u).sideA = (BracketSlot.participant p).refreshSide [] := by
            rw [← hs, settleUnit, ha, hA]
            rfl
          simp only [PlayUnit.side, PlayUnit.slot, refreshPlayUnitSides, slotA, sideA, resolveSlot]
          exact ⟨rfl, trivial⟩
        | feeder =>
          rw [hs] at settled
          cases settled
      · simp only [PlayUnit.slot, settleUnit] at settled
        cases hs : settleSlot units res u.slotB with
        | participant p =>
          have slotB : (settleUnit units res u).slotB = .participant p := hs
          have sideB : (settleUnit units res u).sideB = (BracketSlot.participant p).refreshSide [] := by
            rw [← hs, settleUnit, hb, hB]
            rfl
          simp only [PlayUnit.side, PlayUnit.slot, refreshPlayUnitSides, slotB, sideB, resolveSlot]
          exact ⟨rfl, trivial⟩
        | feeder =>
          rw [hs] at settled
          cases settled
  · exact ⟨rfl, rfl⟩

theorem IsWalkover.winner (h : IsWalkover u r) (won : r.winnerSide = X.wins) : u.side X ≠ [] := by
  rcases h.sides with ⟨nobody, -⟩ | ⟨Y, winner, known, -⟩
  · rw [nobody] at won
    cases X <;> cases won
  · rw [winner] at won
    exact PlayUnit.Place.wins_inj won ▸ known

theorem Decides.winner {allowed : PlayUnitId → Result → Prop} (h : Decides allowed u r)
    (won : r.winnerSide = X.wins) :
    u.side X ≠ [] := by
  rcases h with walkover | ⟨full, -⟩
  · exact walkover.winner won
  · obtain ⟨a, b⟩ := walkoverSide_eq_none_iff.mp full
    cases X
    · exact a
    · exact b

/-! ## One event -/

def TakesWinners (o : List PlayUnit) : Prop :=
  ∀ u ∈ o, ∀ X f take, u.slot X = .feeder f take → take = .winner

/-- The units are settled by results that name the stored winners, for every unit that another
one waits for; whoever won stands in a settled place. -/
structure Advancing (o : List PlayUnit) (res : PlayUnitId → Option Result)
    (s : TournamentState) : Prop where
  settled : ∀ u ∈ o, s.playUnits.get u.id = some (settleUnit s.playUnits res u)
  stored : ∀ u ∈ o, (res u.id).isSome → s.Resulted u.id
  results : ∀ u ∈ o, ∀ v ∈ o, u.id ∈ v.dependencies → ∀ r, s.result u.id = some r →
    ∃ r', res u.id = some r' ∧ r'.winnerSide = r.winnerSide
  winners : ∀ u ∈ o, ∀ r, res u.id = some r → ∀ X : PlayUnit.Place, r.winnerSide = X.wins →
    ((settleUnit s.playUnits res u).slot X).feederPlayUnitId = none

namespace Advancing

theorem sameFed (wf : WellFormed o) (takes : TakesWinners o) (h : Advancing o res s)
    {recorded : PlayUnit} (r : Result) (hu : u ∈ o) (X : PlayUnit.Place) :
    SameFed s.playUnits (s.playUnits.update (receive recorded r) (receive_id recorded r)) res
      (u.slot X) := by
  intro f take result slot hr
  obtain rfl := takes u hu X f take slot
  obtain ⟨w, hw, rfl⟩ := wf.closed hu (mem_dependencies_of_slot (wf.shape u hu) slot)
  rw [Table.get_update, h.settled w hw, Option.map_some, Option.map_some, Option.map_some]
  refine congrArg some ?_
  rcases winnerSide_cases result.winnerSide with nobody | ⟨Y, winner⟩
  · simp only [PlayUnit.fed, PlayUnit.winnerParticipantId, nobody]
  · have settled := h.winners w hw result hr Y winner
    rw [fed_winner _ winner, fed_winner _ winner,
      (receive_place r (wf.shape w hw) settled).1]

/-- **One stored result.** -/
theorem advance (wf : WellFormed o) (takes : TakesWinners o) (h : Advancing o res s)
    {a : PlayUnitId × Result} (step : Advance (fun _ _ => True) s a s') :
    ∃ res', Advancing o res' s' := by
  obtain ⟨hu, new, ready, decides⟩ := step
  next unit r =>
  have results : (recordAndPropagate s unit r).1.result =
      Function.update s.result unit.id (some r) := recordAndPropagate_result s unit r
  have open' : ¬ s.Resulted unit.id := by simp [TournamentState.Resulted, new]
  by_cases mem : unit.id ∈ o.map PlayUnit.id
  · obtain ⟨v, hv, key⟩ := List.mem_map.mp mem
    have own : settleUnit s.playUnits res v = unit := by
      have stored := h.settled v hv
      rw [key, hu] at stored
      exact (Option.some.inj stored).symm
    have new' : res unit.id = none := by
      by_contra known
      exact open' (key ▸ h.stored v hv (key ▸ Option.isSome_iff_ne_none.mpr known))
    have self : (s.playUnits.update (receive unit r) (receive_id unit r)).get unit.id =
        some unit := by
      rw [Table.get_update, hu, Option.map_some, receive, if_neg]
      exact fun receives => open' (ready unit.id receives.2.1)
    have after : ∀ u ∈ o, receive unit r (settleUnit s.playUnits res u) =
        settleUnit (s.playUnits.update (receive unit r) (receive_id unit r))
          (Function.update res unit.id (some r)) u := by
      intro u hu'
      refine receive_settleUnit (wf.shape u hu') (fun hd => ?_) new' self
        (h.sameFed wf takes r hu')
      rw [← own, settleUnit_eventId]
      exact (wf.sameEvent u hu' v hv (key ▸ hd)).symm
    refine ⟨Function.update res unit.id (some r), ?_, ?_, ?_, ?_⟩
    · intro u hu'
      rw [recordAndPropagate_playUnits, Table.get_update, h.settled u hu', Option.map_some,
        after u hu']
    · intro u hu' hr
      rw [TournamentState.Resulted, results]
      rw [Function.update_apply] at hr ⊢
      split
      · rfl
      · next other =>
        rw [if_neg other] at hr
        exact h.stored u hu' hr
    · intro u hu' w hw dep r' hr
      rw [results] at hr
      rw [Function.update_apply] at hr ⊢
      split
      · next same =>
        rw [if_pos same] at hr
        cases hr
        exact ⟨r, rfl, rfl⟩
      · next other =>
        rw [if_neg other] at hr
        exact h.results u hu' w hw dep r' hr
    · intro u hu' r' hr X won
      rw [recordAndPropagate_playUnits, ← after u hu']
      rw [Function.update_apply] at hr
      split at hr
      · next same =>
        cases hr
        obtain rfl := wf.eq_of_id_eq hu' hv (same.trans key.symm)
        have known : (settleUnit s.playUnits res u).side X ≠ [] := by
          rw [own]
          exact decides.winner won
        have settled := settled_of_side (wf.shape u hu') known
        rw [(receive_place r (wf.shape u hu') settled).2]
        exact settled
      · have settled := h.winners u hu' r' hr X won
        rw [(receive_place r (wf.shape u hu') settled).2]
        exact settled
  · -- a result of another event
    have same : ∀ u ∈ o, (recordAndPropagate s unit r).1.playUnits.get u.id =
        s.playUnits.get u.id := by
      intro u hu'
      rw [recordAndPropagate_playUnits, Table.get_update, h.settled u hu', Option.map_some,
        receive, if_neg]
      rintro ⟨-, hd, -⟩
      obtain ⟨v, hv, e⟩ := wf.closed hu' hd
      exact mem (e ▸ List.mem_map_of_mem hv)
    have kept : ∀ u ∈ o, (recordAndPropagate s unit r).1.result u.id = s.result u.id := by
      intro u hu'
      rw [results, Function.update_of_ne]
      exact fun e => mem (e ▸ List.mem_map_of_mem hu')
    have settles : ∀ u ∈ o, settleUnit (recordAndPropagate s unit r).1.playUnits res u =
        settleUnit s.playUnits res u := by
      intro u hu'
      refine settleUnit_congr (wf.shape u hu') fun d hd => ⟨rfl, ?_⟩
      obtain ⟨v, hv, rfl⟩ := wf.closed hu' hd
      exact same v hv
    refine ⟨res, ?_, ?_, ?_, ?_⟩
    · intro u hu'
      rw [same u hu', settles u hu']
      exact h.settled u hu'
    · intro u hu' hr
      rw [TournamentState.Resulted, kept u hu']
      exact h.stored u hu' hr
    · intro u hu' v hv dep r' hr
      rw [kept u hu'] at hr
      exact h.results u hu' v hv dep r' hr
    · intro u hu' r' hr X won
      rw [settles u hu']
      exact h.winners u hu' r' hr X won

/-- **A run of results.** -/
theorem run {draws : List EventId} (wf : WellFormed o) (takes : TakesWinners o)
    (h : Advancing o res s) {calls : List (PlayUnitId × Result)}
    (run : Run (RecordStep draws) s calls s') : ∃ res', Advancing o res' s' :=
  run_invariant (I := fun s => ∃ res, Advancing o res s)
    (fun _ _ _ ⟨_, h⟩ step => h.advance wf takes step) run ⟨res, h⟩

theorem side_eq (h : Advancing o res s) {v : PlayUnit} (hu : u ∈ o) (hv : v ∈ o)
    (slot : v.slot Y = .feeder u.id .winner) (dep : u.id ∈ v.dependencies) (empty : v.side Y = [])
    (hr : s.result u.id = some r) (won : r.winnerSide = X.wins)
    (sole : Sole ((settleUnit s.playUnits res u).side X)) :
    (settleUnit s.playUnits res v).side Y = (settleUnit s.playUnits res u).side X := by
  obtain ⟨r', known, same⟩ := h.results u hu v hv dep r hr
  exact settled_side_eq slot empty known (h.settled u hu) (same.trans won) sole

end Advancing

end Brackets
