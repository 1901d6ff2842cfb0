import ShuttleWorks.Brackets.ImportedCsv

/-! The session a table is imported to. Its rows are grouped by event, and the draw of every
event is registered beside those before it; a table brings no results. -/

namespace Brackets
open Lib

variable {rd : CsvReading} {eventId : EventId} {csv : List CsvRow} {d : Draw}
  {rows : List (List PlayUnit)} {o : List PlayUnit} {s s' : TournamentState} {g g' : CsvEvents}

/-! ## One event -/

/-- No row of a later round names a unit of its own round. -/
def CsvBackward (rd : CsvReading) (eventId : EventId) (csv : List CsvRow) : Prop :=
  ∀ row ∈ csv, ∀ r : Nat, r ≠ 0 → roundOf rd eventId row = .ok (r : Int) →
    ∀ X : PlayUnit.Place, ∀ m, row.ident X.feederColumn ≠ some (roundUnitId eventId r m)

namespace CsvDraw

theorem rows_playUnits (h : CsvDraw rd eventId csv d rows) : d.playUnits.rows = rows.flatten := by
  obtain ⟨event, participants, rfl, -⟩ := h.draw
  exact plainDraw_rows h.built.unique event participants

theorem event_id (h : CsvDraw rd eventId csv d rows) : d.event.id = eventId := by
  obtain ⟨event, participants, rfl, he⟩ := h.draw
  exact he

theorem liveRows (h : CsvDraw rd eventId csv d rows) : LiveRows eventId rows where
  unique := h.built.unique
  event := by
    intro r m u hu
    obtain ⟨row, -, -, imported⟩ := h.built.fits r m u hu
    exact imported.event
  shape := by
    intro r m u hu
    obtain ⟨row, -, -, imported⟩ := h.built.fits r m u hu
    by_cases first : r = 0
    · obtain ⟨deps, slots⟩ := imported.first first
      exact .inl ⟨deps, ⟨_, (slots .A).2⟩, _, (slots .B).2⟩
    · obtain ⟨f, deps, slots⟩ := imported.later first
      exact .inr ⟨(slots .A).2.1, (slots .B).2.1, ⟨f .A, by simp [deps], _, (slots .A).2.2⟩,
        f .B, by simp [deps], _, (slots .B).2.2⟩
  before := h.before
  free := by
    intro r m u hu
    obtain ⟨row, -, -, imported⟩ := h.built.fits r m u hu
    constructor
    · intro deps
      by_contra later
      obtain ⟨f, deps', -⟩ := imported.later later
      rw [deps'] at deps
      cases deps
    · exact fun first => (imported.first first).1

/-- **Feeders of an accepted table event stand earlier exactly when no row names its own round.** -/
theorem earlierFeeders_iff (h : CsvDraw rd eventId csv d rows) :
    EarlierFeeders d ↔ CsvBackward rd eventId csv := by
  obtain ⟨event, participants, rfl, -⟩ := h.draw
  rw [earlierFeeders_plainDraw h.built.unique]
  constructor
  · intro earlier row hrow r later hr X m names
    obtain ⟨r', m', u, hr', hu, imported⟩ := h.onto row hrow
    rw [hr] at hr'
    obtain rfl : r = r' := by simpa using hr'
    obtain ⟨f, -, slots⟩ := imported.later later
    obtain ⟨r'', lt, m'', v, hv, e⟩ := earlier r m' u hu X (f X) (by
      rw [(slots X).2.2]
      exact (BracketSlot.fedBy_feeder _ _ _).mpr rfl)
    obtain ⟨row', -, -, imported'⟩ := h.built.fits r'' m'' v hv
    rw [(slots X).1] at names
    rw [imported'.id, Option.some.inj names] at e
    have := (roundUnitId_inj e).1
    omega
  · intro backward r m u hu X f fed
    obtain ⟨row, hrow, hr, imported⟩ := h.built.fits r m u hu
    by_cases first : r = 0
    · rw [((imported.first first).2 X).2] at fed
      exact absurd fed (BracketSlot.fedBy_participant _ _)
    · obtain ⟨g, deps, slots⟩ := imported.later first
      rw [(slots X).2.2, BracketSlot.fedBy_feeder] at fed
      subst fed
      have hd : g X ∈ u.dependencies := by
        rw [deps]
        cases X <;> simp
      obtain ⟨r', m', v, lt | ⟨rfl, -⟩, hv, e⟩ := h.before r m u hu (g X) hd
      · exact ⟨r', lt, m', v, hv, e⟩
      · obtain ⟨row', -, -, imported'⟩ := h.built.fits r' m' v hv
        exact absurd (by rw [(slots X).1, ← e, imported'.id]) (backward row hrow r' first hr X m')

end CsvDraw

/-! ## The groups -/

/-- The rows of the table by their events. -/
structure Grouped (csv : List CsvRow) (groups : List (EventId × List CsvRow)) : Prop where
  unique : (Assoc.keys groups).Nodup
  members : ∀ p ∈ groups, ∀ row, row ∈ p.2 ↔
    row ∈ csv ∧ ∃ raw, row.text "event_id" = .ok raw ∧ Sync.pyStrip raw = p.1
  covers : ∀ row ∈ csv, ∃ p ∈ groups, row ∈ p.2

theorem groupRow_eq_ok {row : CsvRow} (h : groupRow g row = .ok g') :
    ∃ raw, row.text "event_id" = .ok raw ∧ g'.rows = Assoc.push (Sync.pyStrip raw) row g.rows := by
  simp only [groupRow, bind_eq_ok] at h
  obtain ⟨raw, named, _, -, h⟩ := h
  cases h
  exact ⟨raw, named, rfl⟩

theorem foldlM_groupRow (h : csv.foldlM groupRow g = .ok g') :
    ∃ keyed : List (EventId × CsvRow), keyed.map Prod.snd = csv ∧
      (∀ p ∈ keyed, ∃ raw, p.2.text "event_id" = .ok raw ∧ Sync.pyStrip raw = p.1) ∧
      g'.rows = keyed.foldl (fun groups p => Assoc.push p.1 p.2 groups) g.rows := by
  induction csv generalizing g with
  | nil =>
    cases h
    exact ⟨[], rfl, by simp, rfl⟩
  | cons row csv ih =>
    rw [List.foldlM_cons, bind_eq_ok] at h
    obtain ⟨g₁, first, h⟩ := h
    obtain ⟨raw, named, rows⟩ := groupRow_eq_ok first
    obtain ⟨keyed, onto, texts, rows'⟩ := ih h
    refine ⟨(Sync.pyStrip raw, row) :: keyed, by rw [List.map_cons, onto], ?_, ?_⟩
    · intro p hp
      rcases List.mem_cons.mp hp with rfl | hp
      · exact ⟨raw, named, rfl⟩
      · exact texts p hp
    · rw [rows', rows]
      rfl

theorem Grouped.of_foldlM {groups : CsvEvents} (h : csv.foldlM groupRow {} = .ok groups) :
    Grouped csv groups.rows := by
  obtain ⟨keyed, onto, texts, e⟩ := foldlM_groupRow h
  have unique : (Assoc.keys groups.rows).Nodup := by
    rw [e]
    exact Assoc.nodup_keys_foldl_push keyed List.nodup_nil
  have held : ∀ p ∈ groups.rows, p.2 = (keyed.filter (·.1 = p.1)).map Prod.snd := by
    intro p hp
    have := Assoc.get_foldl_push keyed [] p.1
    rw [← show groups.rows = _ from e, Assoc.get_eq_some_of_mem unique hp] at this
    simpa using this
  refine ⟨unique, fun p hp row => ?_, fun row hrow => ?_⟩
  · rw [held p hp, List.mem_map]
    constructor
    · rintro ⟨q, hq, rfl⟩
      obtain ⟨hq, key⟩ := List.mem_filter.mp hq
      obtain ⟨raw, named, e⟩ := texts q hq
      exact ⟨onto ▸ List.mem_map_of_mem hq, raw, named, e.trans (of_decide_eq_true key)⟩
    · rintro ⟨hrow, raw, named, key⟩
      rw [← onto] at hrow
      obtain ⟨q, hq, rfl⟩ := List.mem_map.mp hrow
      obtain ⟨raw', named', e⟩ := texts q hq
      rw [named] at named'
      cases named'
      exact ⟨q, List.mem_filter.mpr ⟨hq, decide_eq_true (e.symm.trans key)⟩, rfl⟩
  · rw [← onto] at hrow
    obtain ⟨q, hq, rfl⟩ := List.mem_map.mp hrow
    have key : q.1 ∈ Assoc.keys groups.rows := by
      rw [e]
      exact Assoc.mem_keys_foldl_push.mpr (.inr ⟨q, hq, rfl⟩)
    obtain ⟨p, hp, same⟩ := List.mem_map.mp key
    refine ⟨p, hp, ?_⟩
    rw [held p hp]
    exact List.mem_map_of_mem (List.mem_filter.mpr ⟨hq, decide_eq_true same.symm⟩)

/-- No row of a later round of any event names a unit of its own round. -/
def TableBackward (rd : CsvReading) (csv : List CsvRow) : Prop :=
  ∀ row ∈ csv, ∀ raw, row.text "event_id" = .ok raw → ∀ r : Nat, r ≠ 0 →
    roundOf rd (Sync.pyStrip raw) row = .ok (r : Int) →
    ∀ X : PlayUnit.Place, ∀ m, row.ident X.feederColumn ≠ some (roundUnitId (Sync.pyStrip raw) r m)

theorem Grouped.tableBackward_iff {groups : List (EventId × List CsvRow)} (h : Grouped csv groups) :
    TableBackward rd csv ↔ ∀ p ∈ groups, CsvBackward rd p.1 p.2 := by
  constructor
  · intro backward p hp row hrow r later hr X m
    obtain ⟨mem, raw, named, e⟩ := (h.members p hp row).mp hrow
    rw [← e] at hr ⊢
    exact backward row mem raw named r later hr X m
  · intro backward row hrow raw named r later hr X m
    obtain ⟨p, hp, mem⟩ := h.covers row hrow
    obtain ⟨-, raw', named', e⟩ := (h.members p hp row).mp mem
    rw [named] at named'
    cases named'
    rw [e] at hr ⊢
    exact backward p hp row mem r later hr X m

/-! ## The events one after the other -/

/-- The units as registration leaves them: settled by the walkovers of their byes. -/
def AsRegistered (o : List PlayUnit) (s : TournamentState) : Prop :=
  ∃ wres, Carried o wres wres wres [] s.playUnits ∧ ∀ u ∈ o, s.result u.id = wres u.id

theorem AsRegistered.congr (wf : WellFormed o) (h : AsRegistered o s)
    (same : ∀ u ∈ o, SameAt u.id s s') : AsRegistered o s' := by
  obtain ⟨wres, carried, results⟩ := h
  refine ⟨wres, carried.congr wf (fun u hu => (same u hu).1.symm) (fun _ _ => rfl)
    (fun _ _ => .rfl), fun u hu => ?_⟩
  rw [← (same u hu).2]
  exact results u hu

/-- The loop over the events. -/
structure TableLoaded (rd : CsvReading) (done : List (EventId × List CsvRow)) (st : Parsing) :
    Prop where
  known : Known st.state
  ids : st.state.playUnits.rows.map PlayUnit.id = (origin st.draws).map PlayUnit.id
  events : eventIds st.draws = Assoc.keys done
  draws : ∀ d ∈ st.draws, ∃ p ∈ done, ∃ rows, CsvDraw rd p.1 p.2 d rows ∧
    AsRegistered rows.flatten st.state
  all : ∀ p ∈ done, ∃ d ∈ st.draws, ∃ rows, CsvDraw rd p.1 p.2 d rows

section

variable {done : List (EventId × List CsvRow)} {st st' : Parsing} {p : EventId × List CsvRow}
  {format : List (EventId × String)}

theorem CsvDraw.get (draw : CsvDraw rd eventId csv d rows) (h : AsRegistered rows.flatten s)
    {u : PlayUnit} (hu : u ∈ d.playUnits.rows) : ∃ v, s.playUnits.get u.id = some v ∧
      v.dependencies = u.dependencies ∧ v.eventId = d.event.id := by
  obtain ⟨wres, carried, -⟩ := h
  rw [draw.rows_playUnits] at hu
  refine ⟨_, carried.settled u hu, rfl, ?_⟩
  obtain ⟨r, m, hu⟩ := mem_flatten_iff_at.mp hu
  rw [draw.event_id]
  exact draw.liveRows.event r m u hu

theorem TableLoaded.standsOn (h : TableLoaded rd done st) : StandsOn st.draws st.state where
  ids := h.ids
  get := by
    intro d hd v hv
    obtain ⟨p, -, rows, draw, state⟩ := h.draws d hd
    exact draw.get state hv

/-- **One event.** -/
theorem TableLoaded.event (h : TableLoaded rd done st) (new : p.1 ∉ Assoc.keys done)
    (step : importCsvEvent rd format st p = .ok st') : TableLoaded rd (done ++ [p]) st' := by
  simp only [importCsvEvent, bind_eq_ok, mapError_eq_ok] at step
  obtain ⟨d, built, s, registered, step⟩ := step
  cases step
  obtain ⟨rows, draw⟩ := buildDrawFromCsvRows_eq_ok built
  have events : ∀ u ∈ st.state.playUnits.rows, u.eventId ≠ p.1 := by
    intro u hu e
    exact new (h.events ▸ e ▸ h.standsOn.events u hu)
  obtain ⟨event, participants, hd, he⟩ := draw.draw
  have facts : Registered st.state s d ∧ AsRegistered rows.flatten s := by
    rw [hd] at registered ⊢
    obtain ⟨reg, walked, ready⟩ := registerDraw_walkedOver draw.liveRows he h.known events
      registered
    exact ⟨reg, s.result, walked.carried ready, fun _ _ => rfl⟩
  obtain ⟨reg, current⟩ := facts
  refine ⟨reg.known, ?_, ?_, ?_, ?_⟩
  · rw [reg.ids, h.ids]
    simp [origin]
  · have key : d.event.id = p.1 := draw.event_id
    have before := h.events
    simp only [eventIds, Assoc.keys] at before ⊢
    simp [before, key]
  · intro x hx
    rcases List.mem_append.mp hx with hx | hx
    · obtain ⟨q, hq, rows', draw', state⟩ := h.draws x hx
      refine ⟨q, List.mem_append_left _ hq, rows', draw',
        state.congr draw'.liveRows.wellFormed fun u hu => reg.others u.id ?_⟩
      rw [Table.Has, h.ids]
      exact List.mem_map_of_mem (List.mem_flatMap.mpr ⟨x, hx, draw'.rows_playUnits ▸ hu⟩)
    · rw [List.mem_singleton.mp hx]
      exact ⟨p, by simp, rows, draw, current⟩
  · intro q hq
    rcases List.mem_append.mp hq with hq | hq
    · obtain ⟨d', hd', rest⟩ := h.all q hq
      exact ⟨d', List.mem_append_left _ hd', rest⟩
    · rw [List.mem_singleton.mp hq]
      exact ⟨d, by simp, rows, draw⟩

theorem foldlM_importCsvEvent {l : List (EventId × List CsvRow)}
    (h : l.foldlM (importCsvEvent rd format) st = .ok st') (loaded : TableLoaded rd done st)
    (unique : (Assoc.keys (done ++ l)).Nodup) : TableLoaded rd (done ++ l) st' := by
  induction l generalizing st done with
  | nil =>
    cases h
    simpa using loaded
  | cons p l ih =>
    rw [List.foldlM_cons, bind_eq_ok] at h
    obtain ⟨st₁, first, h⟩ := h
    have new : p.1 ∉ Assoc.keys done := by
      simp only [Assoc.keys, List.map_append, List.map_cons, List.nodup_append] at unique ⊢
      exact fun mem => unique.2.2 p.1 mem p.1 List.mem_cons_self rfl
    simpa using ih h (loaded.event new first) (by simpa using unique)

theorem TableLoaded.start : TableLoaded rd [] {} :=
  ⟨fun _ h => absurd h (by simp [TournamentState.Resulted, TournamentState.result]), rfl, rfl,
    by simp, by simp⟩

end

/-! ## The session -/

/-- What the session of a table is. -/
structure TableSession (rd : CsvReading) (csv : List CsvRow) (session : BracketSession) :
    Prop where
  standsOn : StandsOn session.draws session.state
  ordered : Ordered PlayUnit.id PlayUnit.dependencies [] (origin session.draws)
  draws : ∀ d ∈ session.draws, ∃ eventId group rows, CsvDraw rd eventId group d rows ∧
    (∀ row, row ∈ group ↔
      row ∈ csv ∧ ∃ raw, row.text "event_id" = .ok raw ∧ Sync.pyStrip raw = eventId) ∧
    AsRegistered rows.flatten session.state
  earlier : (∀ d ∈ session.draws, EarlierFeeders d) ↔ TableBackward rd csv

/-- **Importing a table.** -/
theorem parseCsvPayload_imported {config : CsvConfig} {fieldnames : List String}
    {session : BracketSession} (h : parseCsvPayload rd config fieldnames csv = .ok session) :
    TableSession rd csv session := by
  simp only [parseCsvPayload, bind_eq_ok, reject_eq_ok] at h
  obtain ⟨-, -, -, -, groups, grouped, st, loaded, startTime, -, h⟩ := h
  cases h
  have table := Grouped.of_foldlM grouped
  have load := foldlM_importCsvEvent loaded TableLoaded.start (by simpa using table.unique)
  rw [List.nil_append] at load
  refine ⟨load.standsOn, ?_, ?_, ?_⟩
  · apply ordered_units
    intro d hd
    obtain ⟨p, -, rows, draw, -⟩ := load.draws d hd
    rw [draw.rows_playUnits]
    exact Ordered.flatten_of_before fun r m u hu x hx => .inr (draw.before r m u hu x hx)
  · intro d hd
    obtain ⟨p, hp, rows, draw, state⟩ := load.draws d hd
    exact ⟨p.1, p.2, rows, draw, table.members p hp, state⟩
  · rw [table.tableBackward_iff]
    constructor
    · intro earlier p hp
      obtain ⟨d, hd, rows, draw⟩ := load.all p hp
      exact draw.earlierFeeders_iff.mp (earlier d hd)
    · intro backward d hd
      obtain ⟨p, hp, rows, draw, -⟩ := load.draws d hd
      exact draw.earlierFeeders_iff.mpr (backward p hp)

/-- **Every turn comes in the session of a table.** -/
theorem TableSession.eventuallyReady {session : BracketSession} (h : TableSession rd csv session) :
    EventuallyReady (eventIds session.draws) session.state := by
  have ranked := h.standsOn.ranked h.ordered
  refine EventuallyReady.of_ranked ranked h.standsOn.events fun stuck => ?_
  apply ranked.decided
  intro u hu ready
  by_contra open'
  obtain ⟨d, hd, v, hv, e, deps, -⟩ := h.standsOn.unit hu
  obtain ⟨eventId, group, rows, draw, -, wres, carried, results⟩ := h.draws d hd
  rw [draw.rows_playUnits] at hv
  have stored := carried.settled v hv
  rw [e, Table.get_eq_some_iff.mpr ⟨hu, rfl⟩] at stored
  have none : wres v.id = Option.none := by
    rw [← results v hv, e]
    exact Option.not_isSome_iff_eq_none.mp open'
  have walked : ∀ x ∈ v.dependencies, (wres x).isSome := by
    intro x hx
    obtain ⟨w, hw, rfl⟩ := draw.liveRows.wellFormed.closed hv hx
    rw [← results w hw]
    exact ready w.id (deps ▸ hx)
  have sides := walkoverSide_eq_none_iff.mp (carried.ready v hv none walked)
  rw [← Option.some.inj stored] at sides
  exact stuck u (playable_of_ready hu sides open' ready)

end Brackets
