import ShuttleWorks.Brackets.Advancing
import ShuttleWorks.Brackets.ImportedTable

/-! Feeders of imported sessions. The import looks feeders up among the units it has seen, which
the unit itself and the units of its own round are; only where no unit names its own round does
every feeder stand in an earlier one. -/

namespace Brackets
open Lib

/-- What can be imported: tournament JSON, or a table with the settings of its request. -/
inductive ImportPayload
  | json (body : ImportTournamentIn)
  | csv (config : CsvConfig) (fieldnames : List String) (rows : List CsvRow)

namespace ImportPayload

def parse (rd : CsvReading) : ImportPayload → Except ImportError BracketSession
  | .json body => parseJsonPayload body
  | .csv config fieldnames rows => parseCsvPayload rd config fieldnames rows

/-- No unit of a later round names a unit of its own round as a feeder. -/
def Backward (rd : CsvReading) : ImportPayload → Prop
  | .json body => ∀ ev ∈ body.events, ev.Backward
  | .csv _ _ rows => TableBackward rd rows

def Starts : ImportPayload → Prop
  | .json body => (∀ ev ∈ body.events, ev.HistoricalRecords ∨ ev.ResultsStand) ∨
      ∃ ev ∈ body.events, ev.Open
  | .csv _ _ _ => True

end ImportPayload

def FeedersEarlier (session : BracketSession) : Prop := ∀ d ∈ session.draws, EarlierFeeders d

theorem parseJsonPayload_feedersEarlier_iff {body : ImportTournamentIn} {session : BracketSession}
    (h : parseJsonPayload body = .ok session) :
    FeedersEarlier session ↔ ∀ ev ∈ body.events, ev.Backward := by
  obtain ⟨draws, events⟩ := parseJsonPayload_drafted h
  constructor
  · intro earlier ev hev
    obtain ⟨d, hd, rows, draw⟩ := events ev hev
    exact draw.earlierFeeders_iff.mp (earlier d hd)
  · intro backward d hd
    obtain ⟨ev, hev, rows, draw⟩ := draws d hd
    exact draw.earlierFeeders_iff.mpr (backward ev hev)

/-- **Feeders stand earlier** in an accepted import exactly when no unit names its own round; then
every unit's turn comes, unless imported results meet byes and nothing can be played. -/
theorem import_feeders (rd : CsvReading) (payload : ImportPayload) {session : BracketSession}
    (h : payload.parse rd = .ok session) :
    (FeedersEarlier session ↔ payload.Backward rd) ∧
      (payload.Backward rd → payload.Starts →
        EventuallyReady (eventIds session.draws) session.state) := by
  cases payload with
  | json body =>
    refine ⟨parseJsonPayload_feedersEarlier_iff h, fun backward starts => ?_⟩
    have noSelf : ∀ ev ∈ body.events, ev.NoSelf := fun ev hev => (backward ev hev).noSelf
    exact (parseJsonPayload_imported noSelf h).eventuallyReady noSelf starts
  | csv config fieldnames rows =>
    have table := parseCsvPayload_imported h
    exact ⟨table.earlier, fun _ _ => table.eventuallyReady⟩

/-! ## Two payloads -/

def threeEntrants : List ParticipantIn :=
  [{ id := "p1", name := "P1" }, { id := "p2", name := "P2" }, { id := "p3", name := "P3" }]

def byePayload : ImportTournamentIn :=
  { courts := 1, totalSlots := 10
    events :=
      [{ id := "MS", participants := threeEntrants
         rounds :=
          [[{ id := "m1", sideA := ["p1"], sideB := ["p2"] }, { id := "m2", sideA := ["p3"] }],
            [{ id := "final", feederA := some "m1", feederB := some "m2" }]] }] }

/-- The final waits for the match, which can be played, and for the bye. -/
theorem byePayload_feeders : ∃ session, parseJsonPayload byePayload = .ok session ∧
    FeedersEarlier session ∧ EventuallyReady (eventIds session.draws) session.state := by
  obtain ⟨session, ok⟩ := exists_ok_of_toOption (x := parseJsonPayload byePayload)
    (by decide +kernel)
  have rd : CsvReading := ⟨fun _ => none, fun _ => none, fun _ => none⟩
  obtain ⟨earlier, ready⟩ := import_feeders rd (.json byePayload) ok
  have backward : ∀ ev ∈ byePayload.events, ev.Backward := by decide
  have starts : (ImportPayload.json byePayload).Starts :=
    .inr ⟨_, List.mem_singleton_self _, by decide, _, List.mem_cons_self, by decide, by decide,
      by decide⟩
  exact ⟨session, ok, earlier.mpr backward, ready backward starts⟩

def selfPayload : ImportTournamentIn :=
  { courts := 1, totalSlots := 10
    events :=
      [{ id := "MS", participants := threeEntrants
         rounds :=
          [[{ id := "m1", sideA := ["p1"], sideB := ["p2"] }],
            [{ id := "final", feederA := some "m1", feederB := some "final" }]] }] }

/-- It is accepted, and no run of results comes to the final. -/
theorem selfPayload_feeders : ∃ session, parseJsonPayload selfPayload = .ok session ∧
    ¬ FeedersEarlier session ∧ ∀ calls s',
      Run (RecordStep (eventIds session.draws)) session.state calls s' →
        s'.result "final" = none := by
  have facts : (parseJsonPayload selfPayload).toOption.any (fun session =>
      decide ((∀ u ∈ session.state.playUnits.rows, u.id = "final" → "final" ∈ u.dependencies) ∧
        session.state.result "final" = none)) = true := by
    decide +kernel
  obtain ⟨session, ok, facts⟩ := (Option.any_eq_true _ _).mp facts
  obtain ⟨self, undecided⟩ := of_decide_eq_true facts
  have ok := toOption_eq_some.mp ok
  refine ⟨session, ok, ?_, fun calls s' run => ?_⟩
  · rw [parseJsonPayload_feedersEarlier_iff ok]
    decide
  · have never := run_waits_for_itself run self (by simp [TournamentState.Resulted, undecided])
    exact Option.not_isSome_iff_eq_none.mp never

/-! ## Sides that stay together

Slots take one id, so sides of several players lose all others with their first win; sides of one
player are kept, provided that no winner was imported before the winner's place was decided. -/

namespace ImportEventIn

/-- By the byes alone nobody comes to the place. -/
inductive Gone (ev : ImportEventIn) : PlayUnitId → PlayUnit.Place → Prop
  | bye {mu : ImportPlayUnitIn} {X : PlayUnit.Place} : mu ∈ ev.rounds.headD [] →
    mu.side X = [] → Gone ev mu.id X
  | fed {round : List ImportPlayUnitIn} {mu : ImportPlayUnitIn} {X : PlayUnit.Place}
    {f : PlayUnitId} : round ∈ ev.rounds.tail → mu ∈ round → mu.feeder X = some f →
    Gone ev f .A → Gone ev f .B → Gone ev mu.id X

def WonAt (ev : ImportEventIn) (id : PlayUnitId) (X : PlayUnit.Place) : Prop :=
  ∀ mu ∈ ev.rounds.flatten, mu.id = id → ∀ r ∈ mu.result, r.place = X

/-- Somebody was given the place or comes to it by byes alone. -/
inductive Came (ev : ImportEventIn) : PlayUnitId → PlayUnit.Place → Prop
  | given {mu : ImportPlayUnitIn} {X : PlayUnit.Place} : mu ∈ ev.rounds.headD [] →
    mu.side X ≠ [] → Came ev mu.id X
  | walked {round : List ImportPlayUnitIn} {mu : ImportPlayUnitIn} {X Y : PlayUnit.Place}
    {f : PlayUnitId} : round ∈ ev.rounds.tail → mu ∈ round → mu.feeder X = some f →
    Came ev f Y → Gone ev f Y.other → ev.WonAt f Y → Came ev mu.id X

/-- Somebody stands at the place by byes and imported results. -/
inductive Stands (ev : ImportEventIn) : PlayUnitId → PlayUnit.Place → Prop
  | came {id : PlayUnitId} {X : PlayUnit.Place} : Came ev id X → Stands ev id X
  | won {round : List ImportPlayUnitIn} {mu mu' : ImportPlayUnitIn} {X : PlayUnit.Place}
    {r : ImportResultIn} : round ∈ ev.rounds.tail → mu ∈ round → mu.feeder X = some mu'.id →
    mu' ∈ ev.rounds.flatten → mu'.result = some r → Stands ev mu'.id r.place → Stands ev mu.id X

/-- A unit of the first round whose winner is taken has nobody or one player on each side that
can win, and an imported winner that is taken stands. -/
structure KeepsPlayers (ev : ImportEventIn) : Prop where
  noSelf : ev.NoSelf
  sole : ∀ mu ∈ ev.rounds.headD [], ev.Feeds mu.id → ∀ X, ev.WonAt mu.id X → Sole (mu.side X)
  winners : ∀ mu ∈ ev.rounds.flatten, ev.Feeds mu.id → ∀ r ∈ mu.result,
    ev.Stands mu.id r.place

end ImportEventIn

variable {ev : ImportEventIn} {d : Draw} {rows : List (List PlayUnit)}
  {wres res : PlayUnitId → Option Result} {done : List PlayUnitId} {s s' : TournamentState}
  {u : PlayUnit} {mu : ImportPlayUnitIn} {r : ImportResultIn} {X Y : PlayUnit.Place}

/-! ## Units and entries -/

theorem ImportedDraw.wonAt (draw : ImportedDraw ev d rows) (hmu : mu ∈ ev.rounds.flatten)
    (hr : mu.result = some r) : ev.WonAt mu.id r.place := by
  intro mu' hmu' e r' hr'
  obtain rfl : mu' = mu := List.inj_on_of_nodup_map draw.ids_nodup hmu' hmu e
  rw [hr] at hr'
  cases hr'
  rfl

theorem EventState.known_winner (state : EventState ev rows wres res done s)
    (live : ¬ ev.HistoricalRecords) (hu : u ∈ rows.flatten) (visited : u.id ∈ done)
    (hmu : mu ∈ ev.rounds.flatten) (e : mu.id = u.id) (hr : mu.result = some r)
    (stands : (settleUnit s.playUnits res u).side r.place ≠ []) :
    ∃ r', res u.id = some r' ∧ r'.winnerSide = r.place.wins := by
  have c := state.live live
  have given := state.given mu hmu
  rw [hr, e] at given
  cases known : res u.id with
  | none =>
    have lost := c.missed u hu visited known r.toResult given
    exact absurd ((unrecoverable_iff r.winnerSide_eq).mp lost) stands
  | some r' =>
    refine ⟨r', rfl, ?_⟩
    rcases c.given u hu r' known with walked | ⟨-, -, stored, -⟩
    · obtain ⟨-, -, walkover⟩ := c.walked u hu r' walked
      rcases walkover.sides with ⟨-, nobody⟩ | ⟨Y, winner, somebody, empty⟩
      · exact absurd (nobody r.place) stands
      · rcases PlayUnit.Place.eq_or_other r.place Y with same | other
        · rw [winner, same]
        · exact absurd (other ▸ empty) stands
    · rw [given] at stored
      cases stored
      exact r.winnerSide_eq

section

variable (draw : ImportedDraw ev d rows) (live : ¬ ev.HistoricalRecords)
include draw live

theorem ImportedDraw.first_unit (hu : u ∈ rows.flatten) (hmu : mu ∈ ev.rounds.headD [])
    (e : u.id = mu.id) : u.dependencies = [] ∧
      ∀ X, u.side X = mu.side X ∧ u.slot X = .participant (slotHead (mu.side X)) := by
  obtain ⟨m, hat⟩ := exists_at_of_headD hmu
  obtain ⟨v, hv, imported⟩ := draw.onto 0 m mu hat
  obtain rfl : u = v :=
    List.inj_on_of_nodup_map draw.built.unique hu hv.mem (e.trans imported.id.symm)
  exact imported.first live rfl

theorem ImportedDraw.later_unit (hu : u ∈ rows.flatten) {round : List ImportPlayUnitIn}
    (hround : round ∈ ev.rounds.tail) (hmu : mu ∈ round) (e : u.id = mu.id) :
    ∃ f : PlayUnit.Place → PlayUnitId, u.dependencies = [f .A, f .B] ∧
      ∀ X, mu.feeder X = some (f X) ∧ u.side X = [] ∧ u.slot X = .feeder (f X) .winner := by
  obtain ⟨r, m, -, pos, hat⟩ := exists_at_of_tail hround hmu
  obtain ⟨v, hv, imported⟩ := draw.onto r m mu hat
  obtain rfl : u = v :=
    List.inj_on_of_nodup_map draw.built.unique hu hv.mem (e.trans imported.id.symm)
  exact imported.later live pos

theorem ImportedDraw.takesWinners : TakesWinners rows.flatten := by
  intro u hu X f take slot
  obtain ⟨r, m, mu, hmu, -, imported⟩ := draw.entry hu
  by_cases first : r = 0
  · rw [((imported.first live first).2 X).2] at slot
    cases slot
  · obtain ⟨g, -, slots⟩ := imported.later live first
    rw [(slots X).2.2] at slot
    cases slot
    rfl

theorem ImportedDraw.walked_dependencies (hu : u ∈ rows.flatten)
    (walked : ∀ X f, u.slot X = .feeder f .winner → (wres f).isSome) :
    ∀ x ∈ u.dependencies, (wres x).isSome := by
  intro x hx
  obtain ⟨r, m, mu, hmu, -, imported⟩ := draw.entry hu
  by_cases first : r = 0
  · rw [(imported.first live first).1] at hx
    cases hx
  · obtain ⟨f, deps, slots⟩ := imported.later live first
    rw [deps] at hx
    simp only [List.mem_cons, List.not_mem_nil, or_false] at hx
    rcases hx with rfl | rfl
    · exact walked .A _ (slots .A).2.2
    · exact walked .B _ (slots .B).2.2

theorem ImportedDraw.sole_side (keeps : ev.KeepsPlayers) (hu : u ∈ rows.flatten)
    (feeds : ev.Feeds u.id) (won : ev.WonAt u.id X) (units : PlayUnits)
    (res : PlayUnitId → Option Result) : Sole ((settleUnit units res u).side X) := by
  obtain ⟨r, m, mu, hmu, -, imported⟩ := draw.entry hu
  by_cases first : r = 0
  · subst first
    obtain ⟨deps, slots⟩ := imported.first live rfl
    have concrete : u.Concrete := ⟨deps, ⟨_, (slots .A).2⟩, _, (slots .B).2⟩
    rw [settleUnit_concrete concrete, (slots X).1]
    have first : mu ∈ ev.rounds.headD [] := by
      obtain ⟨round, hr, hm⟩ := hmu
      rw [List.headD_eq_head?_getD, List.head?_eq_getElem?, hr]
      exact List.mem_of_getElem? hm
    exact keeps.sole mu first (imported.id ▸ feeds) X (imported.id ▸ won)
  · obtain ⟨f, -, slots⟩ := imported.later live first
    exact sole_of_waiting (slots X).2.2 (slots X).2.1

/-! ## What the import leaves -/

theorem ImportedDraw.walks (state : EventState ev rows wres res done s) (hu : u ∈ rows.flatten)
    (walked : ∀ X f, u.slot X = .feeder f .winner → (wres f).isSome)
    (empty : (settleUnit s.playUnits res u).side X = []) : ∃ r, wres u.id = some r ∧
      res u.id = some r ∧ IsWalkover (settleUnit s.playUnits res u) r := by
  have c := state.live live
  have deps := draw.walked_dependencies live hu walked
  cases hw : wres u.id with
  | some r =>
    obtain ⟨known, -, walkover⟩ := c.walked u hu r hw
    exact ⟨r, rfl, known, walkover⟩
  | none =>
    obtain ⟨a, b⟩ := walkoverSide_eq_none_iff.mp (c.ready u hu hw deps)
    cases X
    · exact absurd empty a
    · exact absurd empty b

section

variable (keeps : ev.KeepsPlayers) (state : EventState ev rows wres res done s)
include keeps state

theorem ImportedDraw.gone {id : PlayUnitId} (h : ev.Gone id X) :
    ∀ u ∈ rows.flatten, u.id = id →
      (∀ f, u.slot X = .feeder f .winner → (wres f).isSome) ∧
        (settleUnit s.playUnits res u).side X = [] := by
  have c := state.live live
  induction h with
  | bye hmu empty =>
    intro u hu e
    obtain ⟨deps, slots⟩ := draw.first_unit live hu hmu e
    have concrete : u.Concrete := ⟨deps, ⟨_, (slots .A).2⟩, _, (slots .B).2⟩
    refine ⟨fun f slot => ?_, ?_⟩
    · rw [(slots _).2] at slot
      cases slot
    · rw [settleUnit_concrete concrete, (slots _).1]
      exact empty
  | @fed round mu X f hround hmu names _ _ goneA goneB =>
    intro u hu e
    obtain ⟨g, deps, slots⟩ := draw.later_unit live hu hround hmu e
    have same : g X = f := Option.some.inj ((slots X).1.symm.trans names)
    have dep : f ∈ u.dependencies := by
      rw [deps, ← same]
      cases X <;> simp
    obtain ⟨w, hw, rfl⟩ := (draw.liveRows live keeps.noSelf).wellFormed.closed hu dep
    obtain ⟨walkedA, emptyA⟩ := goneA w hw rfl
    obtain ⟨walkedB, emptyB⟩ := goneB w hw rfl
    obtain ⟨r, walked, known, walkover⟩ := draw.walks live state hw
      (fun Y => by cases Y; exact walkedA; exact walkedB) emptyA
    refine ⟨fun f' slot => ?_, ?_⟩
    · rw [(slots X).2.2] at slot
      cases slot
      rw [same, walked]
      rfl
    · have nobody : r.winnerSide = .NONE := by
        rcases walkover.sides with ⟨nobody, -⟩ | ⟨Y, -, stands, -⟩
        · exact nobody
        · cases Y
          · exact absurd emptyA stands
          · exact absurd emptyB stands
      rw [settleUnit_side, (slots X).2.2, (slots X).2.1, settleSide, settleSlot, same, known,
        c.settled w hw]
      simp [PlayUnit.fed, PlayUnit.winnerParticipantId, nobody, orBye, BracketSlot.refreshSide]

theorem ImportedDraw.handed (hu : u ∈ rows.flatten) {w : PlayUnit} (hw : w ∈ rows.flatten)
    (slot : u.slot X = .feeder w.id .winner) (empty : u.side X = []) {r : Result}
    (known : res w.id = some r) (winner : r.winnerSide = Y.wins) (won : ev.WonAt w.id Y)
    (stands : (settleUnit s.playUnits res w).side Y ≠ []) :
    (settleUnit s.playUnits res u).side X ≠ [] := by
  have c := state.live live
  have shape := (draw.liveRows live keeps.noSelf).wellFormed.shape u hu
  have feeds := draw.feeds live hu (mem_dependencies_of_slot shape slot)
  rw [settled_side_eq slot empty known (c.settled w hw) winner
    (draw.sole_side live keeps hw feeds won s.playUnits res)]
  exact stands

theorem ImportedDraw.came {id : PlayUnitId} (h : ev.Came id X) :
    ∀ u ∈ rows.flatten, u.id = id →
      (∀ f, u.slot X = .feeder f .winner → (wres f).isSome) ∧
        (settleUnit s.playUnits res u).side X ≠ [] := by
  induction h with
  | given hmu given =>
    intro u hu e
    obtain ⟨deps, slots⟩ := draw.first_unit live hu hmu e
    have concrete : u.Concrete := ⟨deps, ⟨_, (slots .A).2⟩, _, (slots .B).2⟩
    refine ⟨fun f slot => ?_, ?_⟩
    · rw [(slots _).2] at slot
      cases slot
    · rw [settleUnit_concrete concrete, (slots _).1]
      exact given
  | @walked round mu X Y f hround hmu names _ gone won came =>
    intro u hu e
    obtain ⟨g, deps, slots⟩ := draw.later_unit live hu hround hmu e
    have same : g X = f := Option.some.inj ((slots X).1.symm.trans names)
    have slot : u.slot X = .feeder f .winner := same ▸ (slots X).2.2
    have shape := (draw.liveRows live keeps.noSelf).wellFormed.shape u hu
    obtain ⟨w, hw, rfl⟩ := (draw.liveRows live keeps.noSelf).wellFormed.closed hu
      (mem_dependencies_of_slot shape slot)
    obtain ⟨walkedY, stands⟩ := came w hw rfl
    obtain ⟨walkedOther, empty⟩ := draw.gone live keeps state gone w hw rfl
    obtain ⟨r, walked, known, walkover⟩ := draw.walks live state hw
      (fun Z => by cases Y <;> cases Z <;> assumption) empty
    have winner : r.winnerSide = Y.wins := by
      rcases walkover.sides with ⟨-, nobody⟩ | ⟨Z, winner, somebody, -⟩
      · exact absurd (nobody Y) stands
      · rcases PlayUnit.Place.eq_or_other Z Y with same | other
        · exact same ▸ winner
        · exact absurd empty (other ▸ somebody)
    refine ⟨fun f' slot' => ?_,
      draw.handed live keeps state hu hw slot (slots X).2.1 known winner won stands⟩
    rw [slot] at slot'
    cases slot'
    rw [walked]
    rfl

theorem ImportedDraw.stands (visited : ∀ v ∈ rows.flatten, v.id ∈ done) {id : PlayUnitId}
    (h : ev.Stands id X) : ∀ u ∈ rows.flatten, u.id = id →
      (settleUnit s.playUnits res u).side X ≠ [] := by
  induction h with
  | came came => exact fun u hu e => (draw.came live keeps state came u hu e).2
  | @won round mu mu' X r hround hmu names hmu' hr _ stands =>
    intro u hu e
    obtain ⟨g, deps, slots⟩ := draw.later_unit live hu hround hmu e
    have same : g X = mu'.id := Option.some.inj ((slots X).1.symm.trans names)
    have slot : u.slot X = .feeder mu'.id .winner := same ▸ (slots X).2.2
    have shape := (draw.liveRows live keeps.noSelf).wellFormed.shape u hu
    obtain ⟨w, hw, key⟩ := (draw.liveRows live keeps.noSelf).wellFormed.closed hu
      (mem_dependencies_of_slot shape slot)
    obtain ⟨r', known, winner⟩ := state.known_winner live hw (visited w hw) hmu'
      key.symm hr (stands w hw key)
    rw [← key] at slot
    exact draw.handed live keeps state hu hw slot (slots X).2.1 known winner
      (key ▸ draw.wonAt hmu' hr) (stands w hw key)

/-- **An imported event hands its winners on.** -/
theorem ImportedDraw.advancing (visited : ∀ v ∈ rows.flatten, v.id ∈ done) :
    Advancing rows.flatten res s := by
  have c := state.live live
  have wf := (draw.liveRows live keeps.noSelf).wellFormed
  refine ⟨c.settled, ?_, ?_, ?_⟩
  · intro u hu hr
    obtain ⟨r, hr⟩ := Option.isSome_iff_exists.mp hr
    rw [TournamentState.Resulted]
    rcases c.given u hu r hr with walked | ⟨-, -, stored, -⟩
    · obtain ⟨x, m, mu, hmu, -, imported⟩ := draw.entry hu
      have given := state.given mu hmu.mem
      rw [← imported.id] at given
      rw [given]
      cases mu.result with
      | none => simp [walked]
      | some r => rfl
    · simp [stored]
  · intro u hu v hv dep r hr
    obtain ⟨x, m, mu, hmu, -, imported⟩ := draw.entry hu
    have given := state.given mu hmu.mem
    rw [← imported.id, hr] at given
    cases hmr : mu.result with
    | none =>
      rw [hmr] at given
      exact ⟨r, (c.walked u hu r given.symm).1, rfl⟩
    | some r' =>
      rw [hmr] at given
      cases given
      have stands := keeps.winners mu hmu.mem (imported.id ▸ draw.feeds live hv dep) r' hmr
      obtain ⟨r, known, winner⟩ := state.known_winner live hu (visited u hu) hmu.mem
        imported.id.symm hmr (draw.stands live keeps state visited stands u hu imported.id)
      exact ⟨r, known, winner.trans r'.winnerSide_eq.symm⟩
  · intro u hu r hr X won
    apply settled_of_side (wf.shape u hu)
    rcases draw.carried_result live state hu hr with ⟨-, walkover⟩ |
      ⟨mu, -, -, r', -, winner, stands⟩
    · exact walkover.winner won
    · rw [winner] at won
      exact PlayUnit.Place.wins_inj won ▸ stands

end

end

/-! ## Completed matches -/

def Completed (o : List PlayUnit) (s : TournamentState) : Prop :=
  ∀ u ∈ o, s.playUnits.get u.id = some u ∧ s.Resulted u.id

theorem Completed.run {o : List PlayUnit} (closed : ∀ u ∈ o, ∀ x ∈ u.dependencies, ∃ v ∈ o, v.id = x)
    (h : Completed o s) {draws : List EventId} {calls : List (PlayUnitId × Result)}
    (run : Run (RecordStep draws) s calls s') : Completed o s' := by
  refine run_invariant (I := Completed o) ?_ run h
  rintro t _ _ h ⟨-, new, -, -⟩ u hu
  next unit r =>
  have open' : ¬ t.Resulted unit.id := by simp [TournamentState.Resulted, new]
  obtain ⟨stored, resulted⟩ := h u hu
  constructor
  · rw [recordAndPropagate_playUnits, Table.get_update, stored, Option.map_some, receive, if_neg]
    rintro ⟨-, hd, -⟩
    obtain ⟨v, hv, e⟩ := closed u hu unit.id hd
    exact open' (e ▸ (h v hv).2)
  · have other : u.id ≠ unit.id := fun e => open' (e ▸ resulted)
    rw [TournamentState.Resulted, recordAndPropagate_result, Function.update_of_ne other]
    exact resulted

theorem winningSide_eq (mu : ImportPlayUnitIn) (r : ImportResultIn) :
    mu.winningSide r = mu.side r.place := by
  unfold ImportPlayUnitIn.winningSide ImportResultIn.place
  split <;> rfl

theorem ImportedDraw.completed_side (draw : ImportedDraw ev d rows) (hist : ev.HistoricalRecords)
    (state : EventState ev rows wres res done s) {v : PlayUnit} (hu : u ∈ rows.flatten)
    (hv : v ∈ rows.flatten) (slot : v.slot Y = .feeder u.id .winner) {r : Result}
    (hr : s.result u.id = some r) (won : r.winnerSide = X.wins) :
    (v.side Y).Perm (u.side X) := by
  obtain ⟨x, m, mu, hmu, -, imported⟩ := draw.entry hv
  obtain ⟨-, -, sides⟩ := imported.completed hist
  obtain ⟨-, side, ⟨-, concrete⟩ | ⟨f, -, -, fed, advanced⟩⟩ := sides Y
  · rw [concrete] at slot
    cases slot
  · rw [fed] at slot
    cases slot
    obtain ⟨x', -, m', mu', result, hmu', key, hresult, perm⟩ := advanced.feeder
    obtain ⟨y, n, mu'', hmu'', -, imported'⟩ := draw.entry hu
    obtain rfl : mu' = mu'' :=
      List.inj_on_of_nodup_map draw.ids_nodup hmu'.mem hmu''.mem (key.trans imported'.id)
    have given := state.given mu' hmu'.mem
    rw [hresult, key, hr] at given
    cases given
    have place : result.place = X :=
      PlayUnit.Place.wins_inj (result.winnerSide_eq.symm.trans won)
    rw [side, ((imported'.completed hist).2.2 X).2.1, ← place, ← winningSide_eq]
    exact perm.symm

/-! ## Sessions -/

/-- **An imported session keeps its sides together** in every run. -/
theorem ImportedSession.keepsSides {evs : List ImportEventIn} {session : BracketSession}
    (h : ImportedSession evs session)
    (keeps : ∀ ev ∈ evs, ev.HistoricalRecords ∨ ev.KeepsPlayers)
    {calls : List (PlayUnitId × Result)}
    (run : Run (RecordStep (eventIds session.draws)) session.state calls s') :
    KeepsSides session.draws s' := by
  intro d hd u hu v hv X Y slot r hr won u' v' hu' hv'
  obtain ⟨ev, hev, rows, wres, res, draw, state⟩ := h.draws d hd
  have visited : ∀ w ∈ rows.flatten, w.id ∈ (origin session.draws).map PlayUnit.id := fun w hw =>
    List.mem_map_of_mem (List.mem_flatMap.mpr ⟨d, hd, draw.rows_playUnits ▸ hw⟩)
  rw [draw.rows_playUnits] at hu hv
  obtain ⟨x, m, mu, hmu, -, imported⟩ := draw.entry hu
  -- an imported result is still the unit's
  have kept : ∀ r', mu.result = some r' → r = r'.toResult := by
    intro r' hmr
    have given := state.given mu hmu.mem
    rw [hmr, ← imported.id] at given
    have later := run_keeps run given
    rw [hr] at later
    exact Option.some.inj later
  by_cases hist : ev.HistoricalRecords
  · have closed : ∀ w ∈ rows.flatten, ∀ x ∈ w.dependencies, ∃ w' ∈ rows.flatten, w'.id = x := by
      intro w hw x hx
      obtain ⟨r, m, hw⟩ := mem_flatten_iff_at.mp hw
      obtain ⟨r', m', w', -, hw', e⟩ := draw.before (.inl hist) r m w hw x hx
      exact ⟨w', hw'.mem, e⟩
    have resulted : ∀ w ∈ rows.flatten, session.state.Resulted w.id := by
      intro w hw
      obtain ⟨r, m, mu, hmu, -, imported⟩ := draw.entry hw
      have given := state.given mu hmu.mem
      obtain ⟨decided, -, -⟩ := imported.completed hist
      obtain ⟨r', hr'⟩ := Option.ne_none_iff_exists'.mp decided
      rw [hr', ← imported.id] at given
      rw [TournamentState.Resulted, given]
      rfl
    have before : Completed rows.flatten session.state := fun w hw =>
      ⟨(state.full hist w hw).1, resulted w hw⟩
    have after := before.run closed run
    rw [(after u hu).1] at hu'
    rw [(after v hv).1] at hv'
    cases hu'
    cases hv'
    obtain ⟨decided, -, -⟩ := imported.completed hist
    obtain ⟨r', hr'⟩ := Option.ne_none_iff_exists'.mp decided
    have given := state.given mu hmu.mem
    rw [hr', ← imported.id] at given
    exact draw.completed_side hist state hu hv slot given (kept r' hr' ▸ won)
  · have keeps := (keeps ev hev).resolve_left hist
    have wf := (draw.liveRows hist keeps.noSelf).wellFormed
    obtain ⟨res', after⟩ := (draw.advancing hist keeps state visited).run wf
      (draw.takesWinners hist) run
    rw [after.settled u hu] at hu'
    rw [after.settled v hv] at hv'
    cases hu'
    cases hv'
    have dep := mem_dependencies_of_slot (wf.shape v hv) slot
    have wonAt : ev.WonAt u.id X := by
      intro mu' hmu' e r' hr'
      obtain rfl : mu' = mu :=
        List.inj_on_of_nodup_map draw.ids_nodup hmu' hmu.mem (e.trans imported.id)
      rw [kept r' hr'] at won
      exact PlayUnit.Place.wins_inj (r'.winnerSide_eq.symm.trans won)
    have empty : v.side Y = [] := by
      rcases wf.shape v hv with concrete | waiting
      · rw [concrete.1] at dep
        cases dep
      · cases Y
        · exact waiting.1
        · exact waiting.2.1
    exact .of_eq (after.side_eq hu hv slot dep empty hr won
      (draw.sole_side hist keeps hu (draw.feeds hist hv dep) wonAt _ _))

/-! ## Tables -/

/-- In an event with a later round every side of round 0 has nobody or one player. -/
def TableKeepsPlayers (rd : CsvReading) (csv : List CsvRow) : Prop :=
  ∀ row ∈ csv, ∀ raw, row.text "event_id" = .ok raw →
    roundOf rd (Sync.pyStrip raw) row = .ok 0 →
    (∃ row' ∈ csv, ∃ raw', row'.text "event_id" = .ok raw' ∧
      Sync.pyStrip raw' = Sync.pyStrip raw ∧
      ∃ r : Nat, r ≠ 0 ∧ roundOf rd (Sync.pyStrip raw) row' = .ok (r : Int)) →
    ∀ X : PlayUnit.Place, Sole (splitSide (row.cell X.sideColumn))

/-- **The session of a table keeps its sides together** in every run. -/
theorem TableSession.keepsSides {rd : CsvReading} {csv : List CsvRow} {session : BracketSession}
    (h : TableSession rd csv session) (keeps : TableKeepsPlayers rd csv)
    {calls : List (PlayUnitId × Result)}
    (run : Run (RecordStep (eventIds session.draws)) session.state calls s') :
    KeepsSides session.draws s' := by
  intro d hd u hu v hv X Y slot r hr won u' v' hu' hv'
  obtain ⟨eventId, group, rows, draw, members, wres, carried, results⟩ := h.draws d hd
  rw [draw.rows_playUnits] at hu hv
  have wf := draw.liveRows.wellFormed
  have takes : TakesWinners rows.flatten := by
    intro w hw Z f take slot
    obtain ⟨r, m, hw⟩ := mem_flatten_iff_at.mp hw
    obtain ⟨row, -, -, imported⟩ := draw.built.fits r m w hw
    by_cases first : r = 0
    · rw [((imported.first first).2 Z).2] at slot
      cases slot
    · obtain ⟨g, -, slots⟩ := imported.later first
      rw [(slots Z).2.2] at slot
      cases slot
      rfl
  have before : Advancing rows.flatten wres session.state := by
    refine ⟨carried.settled, fun w hw hr => ?_, fun w hw _ _ _ r hr => ?_, fun w hw r hr Z won => ?_⟩
    · rw [TournamentState.Resulted, results w hw]
      exact hr
    · rw [results w hw] at hr
      exact ⟨r, hr, rfl⟩
    · apply settled_of_side (wf.shape w hw)
      obtain ⟨-, -, walkover⟩ := carried.walked w hw r hr
      exact walkover.winner won
  obtain ⟨res, after⟩ := before.run wf takes run
  rw [after.settled u hu] at hu'
  rw [after.settled v hv] at hv'
  cases hu'
  cases hv'
  have dep := mem_dependencies_of_slot (wf.shape v hv) slot
  obtain ⟨rv, mv, hvat⟩ := mem_flatten_iff_at.mp hv
  obtain ⟨row', hrow', hr', imported'⟩ := draw.built.fits rv mv v hvat
  have later : rv ≠ 0 := by
    intro first
    rw [(imported'.first first).1] at dep
    cases dep
  have empty : v.side Y = [] := by
    obtain ⟨g, -, slots⟩ := imported'.later later
    exact (slots Y).2.1
  refine .of_eq (after.side_eq hu hv slot dep empty hr won ?_)
  obtain ⟨ru, mu, huat⟩ := mem_flatten_iff_at.mp hu
  obtain ⟨row, hrow, hround, imported⟩ := draw.built.fits ru mu u huat
  by_cases first : ru = 0
  · subst first
    obtain ⟨deps, slots⟩ := imported.first rfl
    have concrete : u.Concrete := ⟨deps, ⟨_, (slots .A).2⟩, _, (slots .B).2⟩
    rw [settleUnit_concrete concrete, (slots X).1]
    obtain ⟨mem, raw, named, rfl⟩ := (members row).mp hrow
    obtain ⟨mem', raw', named', same⟩ := (members row').mp hrow'
    exact keeps row mem raw named hround ⟨row', mem', raw', named', same, rv, later, hr'⟩ X
  · obtain ⟨g, -, slots⟩ := imported.later first
    exact sole_of_waiting (slots X).2.2 (slots X).2.1

/-! ## Payloads -/

def ImportPayload.KeepsPlayers (rd : CsvReading) : ImportPayload → Prop
  | .json body => ∀ ev ∈ body.events, ev.HistoricalRecords ∨ ev.KeepsPlayers
  | .csv _ _ rows => TableKeepsPlayers rd rows

/-- **Sides stay together** in every run of an accepted import whose sides have one player. -/
theorem import_keeps_sides (rd : CsvReading) (payload : ImportPayload) {session : BracketSession}
    (h : payload.parse rd = .ok session) (keeps : payload.KeepsPlayers rd)
    {calls : List (PlayUnitId × Result)}
    (run : Run (RecordStep (eventIds session.draws)) session.state calls s') :
    KeepsSides session.draws s' := by
  cases payload with
  | json body =>
    have noSelf : ∀ ev ∈ body.events, ev.NoSelf := fun ev hev =>
      (keeps ev hev).elim .inl fun keeps => keeps.noSelf
    exact (parseJsonPayload_imported noSelf h).keepsSides keeps run
  | csv config fieldnames rows => exact (parseCsvPayload_imported h).keepsSides keeps run

/-- Two players and a bye. -/
theorem byePayload_keeps_sides : ∃ session, parseJsonPayload byePayload = .ok session ∧
    ∀ calls s', Run (RecordStep (eventIds session.draws)) session.state calls s' →
      KeepsSides session.draws s' := by
  obtain ⟨session, ok⟩ := exists_ok_of_toOption (x := parseJsonPayload byePayload)
    (by decide +kernel)
  have rd : CsvReading := ⟨fun _ => none, fun _ => none, fun _ => none⟩
  have facts : ∀ ev ∈ byePayload.events, ev.NoSelf ∧
      (∀ mu ∈ ev.rounds.headD [], Sole mu.sideA ∧ Sole mu.sideB) ∧
      ∀ mu ∈ ev.rounds.flatten, mu.result = none := by
    decide
  have keeps : (ImportPayload.json byePayload).KeepsPlayers rd := by
    intro ev hev
    obtain ⟨noSelf, sides, undecided⟩ := facts ev hev
    refine .inr ⟨noSelf, fun mu hmu _ X _ => ?_, fun mu hmu _ r hr => ?_⟩
    · cases X
      · exact (sides mu hmu).1
      · exact (sides mu hmu).2
    · rw [undecided mu hmu] at hr
      cases hr
  exact ⟨session, ok, fun calls s' run => import_keeps_sides rd (.json byePayload) ok keeps run⟩

def eightPlayers : List ParticipantIn :=
  ["a1", "a2", "b1", "b2", "c1", "c2", "d1", "d2"].map fun id => { id := id, name := id }

def pairPayload : ImportTournamentIn :=
  { courts := 1, totalSlots := 10
    events :=
      [{ id := "MD", participants := eightPlayers
         rounds :=
          [[{ id := "m1", sideA := ["a1", "a2"], sideB := ["b1", "b2"] },
              { id := "m2", sideA := ["c1", "c2"], sideB := ["d1", "d2"] }],
            [{ id := "final", feederA := some "m1", feederB := some "m2" }]] }] }

/-- The first pair wins and one of them is in the final. -/
theorem pairPayload_drops_players : ∃ session, parseJsonPayload pairPayload = .ok session ∧
    ∃ calls s', Run (RecordStep (eventIds session.draws)) session.state calls s' ∧
      ¬ KeepsSides session.draws s' := by
  have facts : (parseJsonPayload pairPayload).toOption.any
      (fun session => (replay (eventIds session.draws) session.state
        [("m1", { winnerSide := .A })]).any fun s' =>
          decide (∃ d ∈ session.draws, ∃ u ∈ d.playUnits.rows, ∃ v ∈ d.playUnits.rows,
            v.slot .A = .feeder u.id .winner ∧
              (∃ r ∈ s'.result u.id, r.winnerSide = PlayUnit.Place.A.wins) ∧
              ∃ u' ∈ s'.playUnits.get u.id, ∃ v' ∈ s'.playUnits.get v.id,
                ¬ (v'.side .A).Perm (u'.side .A))) = true := by
    decide +kernel
  obtain ⟨session, ok, facts⟩ := (Option.any_eq_true _ _).mp facts
  obtain ⟨s', run, facts⟩ := (Option.any_eq_true _ _).mp facts
  obtain ⟨d, hd, u, hu, v, hv, slot, ⟨r, hr, won⟩, u', hu', v', hv', drops⟩ :=
    of_decide_eq_true facts
  refine ⟨session, toOption_eq_some.mp ok, _, s', replay_eq_some.mp run, fun keeps => drops ?_⟩
  exact keeps d hd u hu v hv .A .A slot r hr won u' v' hu' hv'

end Brackets
