import ShuttleWorks.Brackets.Hydration
import ShuttleWorks.Brackets.Reload

/-! Sessions and their tables. The tables are created with the draws; after every
recorded result only the recorded unit and the units it affected are written. The
tables then hold the session, and reading them back gives its units and results. -/

namespace Brackets
open Lib

variable {eventId : EventId} {rounds : List (List PlayUnitId)} {units : PlayUnits}
  {rows : List MatchRow} {store store' : BracketStore} {s s' : TournamentState} {d : Draw}
  {u : PlayUnit} {r : Result}

/-! ## The rows of one event -/

theorem mem_listMatches {row : MatchRow} :
    row ∈ store.listMatches eventId ↔ row ∈ store.matchRows.rows ∧ row.eventId = eventId := by
  rw [BracketStore.listMatches, List.mem_insertionSort, List.mem_filter, decide_eq_true_eq]

theorem listMatches_unique (store : BracketStore) (eventId : EventId) :
    ((store.listMatches eventId).map MatchRow.id).Nodup := by
  have perm := List.perm_insertionSort rowLe
    (store.matchRows.rows.filter fun row => row.eventId = eventId)
  rw [BracketStore.listMatches, (perm.map MatchRow.id).nodup_iff]
  refine List.Nodup.map_on ?_ ((List.Nodup.of_map _ store.matchRows.unique).filter _)
  intro a ha b hb e
  rw [List.mem_filter, decide_eq_true_eq] at ha hb
  exact Table.eq_of_key_eq ha.1 hb.1 (Prod.ext (ha.2.trans hb.2.symm) e)

theorem listMatches_congr (h : store'.matchRows = store.matchRows) :
    store'.listMatches eventId = store.listMatches eventId := by
  rw [BracketStore.listMatches, BracketStore.listMatches, h]

/-! ## Creating an event -/

theorem setEventStatus_matchRows (store : BracketStore) (eventId : EventId) (status : String) :
    (store.setEventStatus eventId status).matchRows = store.matchRows ∧
      (store.setEventStatus eventId status).results = store.results := by
  unfold BracketStore.setEventStatus
  split <;> exact ⟨rfl, rfl⟩

theorem setEventStatus_events (store : BracketStore) (eventId : EventId) (status : String) :
    (store.setEventStatus eventId status).events.rows.map (fun row => (row.id, row.format)) =
      store.events.rows.map (fun row => (row.id, row.format)) := by
  unfold BracketStore.setEventStatus
  split
  · rfl
  · next row hrow =>
    have key : row.id = eventId := Table.key_of_get hrow
    have has : store.events.Has row.id := Table.has_iff.mpr ⟨row, Table.mem_of_get hrow, rfl⟩
    rw [Table.rows_put_of_has (by exact has), List.map_map]
    refine List.map_congr_left (fun x hx => ?_)
    by_cases e : x.id = row.id
    · have same : x = row := Table.eq_of_key_eq hx (Table.mem_of_get hrow) e
      simp [same]
    · simp [e]

theorem createMatches_ok {rows : List MatchRow} (unique : (rows.map MatchRow.key).Nodup)
    (new : ∀ row ∈ rows, ¬ store.matchRows.Has row.key) :
    ∃ store', rows.foldlM BracketStore.createMatch store = .ok store' ∧
      store'.matchRows.rows = store.matchRows.rows ++ rows ∧
      store'.events = store.events ∧ store'.results = store.results := by
  induction rows generalizing store with
  | nil => exact ⟨store, rfl, by simp, rfl, rfl⟩
  | cons row rows ih =>
    simp only [List.map_cons, List.nodup_cons] at unique
    cases hi : store.matchRows.insert row with
    | none => exact absurd (Table.insert_eq_none.mp hi) (new row List.mem_cons_self)
    | some table =>
      obtain ⟨-, last⟩ := Table.insert_eq_some.mp hi
      have step : store.createMatch row = .ok { store with matchRows := table } := by
        simp [BracketStore.createMatch, hi]
      have others : ∀ row' ∈ rows,
          ¬ (BracketStore.matchRows { store with matchRows := table }).Has row'.key := by
        intro row' hrow' has
        rw [Table.Has, last, List.map_append, List.mem_append] at has
        rcases has with has | has
        · exact new row' (List.mem_cons_of_mem _ hrow') has
        · simp only [List.map_cons, List.map_nil, List.mem_singleton] at has
          exact unique.1 (has ▸ List.mem_map_of_mem hrow')
      obtain ⟨store', h, all, ev, res⟩ := ih unique.2 others
      refine ⟨store', ?_, by rw [all, last]; simp, ev, res⟩
      rw [List.foldlM_cons, step]
      exact h

/-- **Creating an event** writes its units place by place and leaves other events alone. -/
theorem persistEvent_ok (info : EventMeta) (new : ¬ store.events.Has d.event.id)
    (none : store.listMatches d.event.id = []) (nodup : d.rounds.flatten.Nodup)
    (stored : ∀ id ∈ d.rounds.flatten, ∃ u, s.playUnits.get id = some u ∧
      u.eventId = d.event.id) :
    ∃ store', persistEvent store d info s = .ok store' ∧
      store'.events.rows.map (fun row => (row.id, row.format)) =
        store.events.rows.map (fun row => (row.id, row.format)) ++ [(d.event.id, info.format)] ∧
      Rendered d.event.id d.rounds s.playUnits (store'.listMatches d.event.id) ∧
      (∀ e ≠ d.event.id, store'.listMatches e = store.listMatches e) ∧
      store'.results = store.results := by
  cases hi : store.events.insert
      { id := d.event.id, discipline := info.discipline, format := info.format
        durationSlots := info.durationSlots, bracketSize := info.bracketSize
        seededCount := info.seededCount, rrRounds := info.rrRounds, config := info.config
        status := "draft" } with
  | none => exact absurd (Table.insert_eq_none.mp hi) new
  | some events =>
    obtain ⟨-, last⟩ := Table.insert_eq_some.mp hi
    have created : store.createEvent d.event.id info = .ok { store with events } := by
      simp [BracketStore.createEvent, hi]
    obtain ⟨written, hw, places, shown⟩ := @mapM_ok _ _ _ _ (placedRow s.playUnits d.event.id)
      id (fun row => (row.roundIndex, row.matchIndex, row.id))
      (fun row => ∃ u, s.playUnits.get row.id = some u ∧ u.eventId = d.event.id ∧
        row = matchRow d.event.id row.roundIndex row.matchIndex u)
      (entries d.rounds) (by
        rintro ⟨r, m, id⟩ hp
        obtain ⟨u, hu, he⟩ := stored id (mem_entries.mp hp).mem
        have key : u.id = id := Table.key_of_get hu
        refine ⟨matchRow d.event.id r m u, by simp [placedRow, hu], ?_, u, ?_, he, rfl⟩
        · simp [matchRow, key]
        · rw [← key] at hu
          exact hu)
    rw [List.map_id] at places
    have ids : written.map MatchRow.id = d.rounds.flatten := by
      rw [← entries_elements, ← places, List.map_map]
      rfl
    have event : ∀ row ∈ written, row.eventId = d.event.id := by
      intro row hrow
      obtain ⟨u, -, -, e⟩ := shown row hrow
      rw [e]
      rfl
    have kept := setEventStatus_matchRows { store with events } d.event.id info.status
    have unique : (written.map MatchRow.key).Nodup := by
      refine List.Nodup.of_map Prod.snd ?_
      rw [List.map_map]
      exact (show written.map MatchRow.id = _ from ids) ▸ nodup
    have fresh : ∀ row ∈ written, ¬ (BracketStore.setEventStatus { store with events } d.event.id
        info.status).matchRows.Has row.key := by
      intro row hrow has
      rw [kept.1] at has
      obtain ⟨old, hold, e⟩ := Table.has_iff.mp has
      have : old ∈ store.listMatches d.event.id :=
        mem_listMatches.mpr ⟨hold, (congrArg Prod.fst e).trans (event row hrow)⟩
      rw [none] at this
      cases this
    obtain ⟨store', hs, all, ev, res⟩ := createMatches_ok unique fresh
    rw [kept.1] at all
    have mine : ∀ row, row ∈ store'.listMatches d.event.id ↔ row ∈ written := by
      intro row
      rw [mem_listMatches, all, List.mem_append]
      constructor
      · rintro ⟨hrow | hrow, e⟩
        · have : row ∈ store.listMatches d.event.id := mem_listMatches.mpr ⟨hrow, e⟩
          rw [none] at this
          cases this
        · exact hrow
      · exact fun hrow => ⟨Or.inr hrow, event row hrow⟩
    refine ⟨store', ?_, ?_, ⟨listMatches_unique _ _, ?_, ?_⟩, ?_, res.trans kept.2⟩
    · rw [persistEvent, created, ok_bind, hw, ok_bind]
      exact hs
    · rw [ev, setEventStatus_events, last]
      simp
    · intro row hrow
      obtain ⟨u, hu, he, e⟩ := shown row ((mine row).mp hrow)
      refine ⟨u, hu, he, ?_⟩
      rw [e]
      rfl
    · intro r m id
      rw [← mem_entries, ← places, List.mem_map]
      constructor
      · rintro ⟨row, hrow, e⟩
        cases e
        exact ⟨row, (mine row).mpr hrow, rfl, rfl, rfl⟩
      · rintro ⟨row, hrow, rfl, rfl, rfl⟩
        exact ⟨row, (mine row).mp hrow, rfl⟩
    · intro e he
      have other : written.filter (fun row => row.eventId = e) = [] := by
        rw [List.filter_eq_nil_iff]
        intro row hrow
        simpa [event row hrow] using Ne.symm he
      rw [BracketStore.listMatches, all, List.filter_append, other, List.append_nil]
      rfl

/-! ## Tables that hold a session -/

/-- The match rows hold the units of the state at the places of the draws; those of the pending
units may still show older slots and sides. -/
structure MatchesHold (ds : List Draw) (s : TournamentState) (store : BracketStore)
    (pending : List PlayUnitId) : Prop where
  place : ∀ d ∈ ds, ∀ r m id, At d.rounds r m id ↔
    ∃ row ∈ store.listMatches d.event.id, row.roundIndex = r ∧ row.matchIndex = m ∧ row.id = id
  unit : ∀ row ∈ store.matchRows.rows, ∃ u, s.playUnits.get row.id = some u ∧
    u.eventId = row.eventId ∧
    row = { matchRow row.eventId row.roundIndex row.matchIndex u with
      slotA := row.slotA, slotB := row.slotB, sideA := row.sideA, sideB := row.sideB
      version := row.version } ∧
    (row.id ∉ pending → row.slotA = slotToDict u.slotA ∧ row.slotB = slotToDict u.slotB ∧
      row.sideA = u.sideA ∧ row.sideB = u.sideB)

/-- The result rows hold the results of the state, but for those of the pending units. -/
structure ResultsHold (s : TournamentState) (store : BracketStore) (pending : List PlayUnitId) :
    Prop where
  stored : ∀ id u r, s.playUnits.get id = some u → s.result id = some r → id ∉ pending →
    store.results.get (u.eventId, id) = some (resultRow u.eventId id r)
  known : ∀ row ∈ store.results.rows, ∃ u, s.playUnits.get row.matchId = some u ∧
    u.eventId = row.eventId ∧ s.Resulted row.matchId

theorem MatchesHold.rendered {ds : List Draw} (h : MatchesHold ds s store []) (hd : d ∈ ds) :
    Rendered d.event.id d.rounds s.playUnits (store.listMatches d.event.id) where
  unique := listMatches_unique _ _
  unit := by
    intro row hrow
    obtain ⟨hrow, e⟩ := mem_listMatches.mp hrow
    obtain ⟨u, hu, he, same, slots⟩ := h.unit row hrow
    obtain ⟨slotA, slotB, sideA, sideB⟩ := slots (by simp)
    refine ⟨u, hu, he.trans e, ?_⟩
    rw [slotA, slotB, sideA, sideB, e] at same
    exact same
  place := h.place d hd

theorem persistResults_ok {results : List (PlayUnitId × Result)}
    (keyed : (Assoc.keys results).Nodup)
    (known : ∀ p ∈ results, ∃ u, s.playUnits.get p.1 = some u) (store : BracketStore) :
    ∃ store', results.foldlM (persistResult s) store = .ok store' ∧
      store'.events = store.events ∧ store'.matchRows = store.matchRows ∧
      (∀ id u r, s.playUnits.get id = some u → (id, r) ∈ results →
        store'.results.get (u.eventId, id) = some (resultRow u.eventId id r)) ∧
      ∀ k, (∀ p ∈ results, ∀ u, s.playUnits.get p.1 = some u → (u.eventId, p.1) ≠ k) →
        store'.results.get k = store.results.get k := by
  induction results generalizing store with
  | nil => exact ⟨store, rfl, rfl, rfl, by simp, by simp⟩
  | cons p results ih =>
    obtain ⟨id, r⟩ := p
    simp only [Assoc.keys, List.map_cons, List.nodup_cons] at keyed
    obtain ⟨u, hu⟩ := known (id, r) List.mem_cons_self
    have step : persistResult s store (id, r) = .ok (store.recordResult u.eventId id r) := by
      simp only [persistResult, hu]
    obtain ⟨store', h, ev, ma, stored, frame⟩ := ih keyed.2
      (fun p hp => known p (List.mem_cons_of_mem _ hp)) (store.recordResult u.eventId id r)
    have later : ∀ p ∈ results, p.1 ≠ id := fun p hp e => keyed.1 (e ▸ List.mem_map_of_mem hp)
    refine ⟨store', by rw [List.foldlM_cons, step]; exact h, ev, ma, ?_, ?_⟩
    · intro id' u' r' hu' hp
      rcases List.mem_cons.mp hp with e | hp
      · cases e
        rw [hu] at hu'
        cases hu'
        rw [frame _ (fun p hp u _ e => later p hp (congrArg Prod.snd e))]
        exact Table.get_put_self _ (resultRow u.eventId id r)
      · exact stored id' u' r' hu' hp
    · intro k hk
      rw [frame k (fun p hp => hk p (List.mem_cons_of_mem _ hp))]
      exact Table.get_put_of_ne _ (fun e => hk (id, r) List.mem_cons_self u hu e)

theorem persistEvents_ok {l : List (Draw × EventMeta)}
    (distinct : (l.map fun p => p.1.event.id).Nodup)
    (nodup : ∀ p ∈ l, p.1.rounds.flatten.Nodup)
    (stored : ∀ p ∈ l, ∀ id ∈ p.1.rounds.flatten, ∃ u, s.playUnits.get id = some u ∧
      u.eventId = p.1.event.id)
    (new : ∀ p ∈ l, ¬ store.events.Has p.1.event.id ∧ store.listMatches p.1.event.id = []) :
    ∃ store', l.foldlM (fun store p => persistEvent store p.1 p.2 s) store = .ok store' ∧
      store'.events.rows.map (fun row => (row.id, row.format)) =
        store.events.rows.map (fun row => (row.id, row.format)) ++
          l.map (fun p => (p.1.event.id, p.2.format)) ∧
      (∀ p ∈ l, Rendered p.1.event.id p.1.rounds s.playUnits
        (store'.listMatches p.1.event.id)) ∧
      (∀ e ∉ l.map (fun p => p.1.event.id), store'.listMatches e = store.listMatches e) ∧
      store'.results = store.results := by
  induction l generalizing store with
  | nil => exact ⟨store, rfl, by simp, by simp, by simp, rfl⟩
  | cons p l ih =>
    simp only [List.map_cons, List.nodup_cons] at distinct
    obtain ⟨absent, none⟩ := new p List.mem_cons_self
    obtain ⟨store₁, h₁, ev₁, shown₁, others₁, res₁⟩ := persistEvent_ok p.2 absent none
      (nodup p List.mem_cons_self) (stored p List.mem_cons_self)
    have ids₁ : store₁.events.rows.map EventRow.id =
        store.events.rows.map EventRow.id ++ [p.1.event.id] := by
      have := congrArg (List.map Prod.fst) ev₁
      simpa [Function.comp_def] using this
    have apart : ∀ q ∈ l, q.1.event.id ≠ p.1.event.id := fun q hq e =>
      distinct.1 (e ▸ List.mem_map_of_mem (f := fun p : Draw × EventMeta => p.1.event.id) hq)
    have new₁ : ∀ q ∈ l, ¬ store₁.events.Has q.1.event.id ∧
        store₁.listMatches q.1.event.id = [] := by
      intro q hq
      obtain ⟨absent, none⟩ := new q (List.mem_cons_of_mem _ hq)
      refine ⟨?_, by rw [others₁ _ (apart q hq), none]⟩
      rw [Table.Has, ids₁, List.mem_append, not_or]
      exact ⟨absent, by simpa using apart q hq⟩
    obtain ⟨store', h, ev, shown, others, res⟩ := ih distinct.2
      (fun q hq => nodup q (List.mem_cons_of_mem _ hq))
      (fun q hq => stored q (List.mem_cons_of_mem _ hq)) new₁
    refine ⟨store', ?_, ?_, ?_, ?_, res.trans res₁⟩
    · rw [List.foldlM_cons, h₁]
      exact h
    · rw [ev, ev₁, List.append_assoc]
      rfl
    · intro q hq
      rcases List.mem_cons.mp hq with rfl | hq
      · rw [others _ distinct.1]
        exact shown₁
      · exact shown q hq
    · intro e he
      rw [List.map_cons, List.mem_cons, not_or] at he
      rw [others e he.2, others₁ e he.1]

/-- What the tables of a session hold when only the pending units are left to write. -/
structure Holds (ds : List Draw) (s : TournamentState) (store : BracketStore)
    (pending : List PlayUnitId) : Prop where
  events : store.events.rows.map EventRow.id = eventIds ds
  matchRows : MatchesHold ds s store pending
  results : ResultsHold s store pending

theorem Session.placed {allowed : PlayUnitId → Result → Prop} {ds : List Draw}
    (hs : Session ds allowed s) (drawn : ∀ d ∈ ds, Drawn d) {id : PlayUnitId}
    (hu : s.playUnits.get id = some u) :
    ∃ d ∈ ds, d.event.id = u.eventId ∧ id ∈ d.rounds.flatten := by
  obtain ⟨u₀, hu₀, rfl, rfl⟩ := hs.sound.consistent.of_get hu
  obtain ⟨d, hd, hu₀⟩ := List.mem_flatMap.mp hu₀
  refine ⟨d, hd, ((drawn d hd).event u₀ hu₀).symm, ?_⟩
  exact (drawn d hd).rounds.mem_iff.mpr (List.mem_map_of_mem hu₀)

theorem Session.stored {allowed : PlayUnitId → Result → Prop} {ds : List Draw}
    (hs : Session ds allowed s) (drawn : ∀ d ∈ ds, Drawn d) (hd : d ∈ ds) {id : PlayUnitId}
    (hid : id ∈ d.rounds.flatten) :
    ∃ u, s.playUnits.get id = some u ∧ u.eventId = d.event.id := by
  obtain ⟨u₀, hu₀, rfl⟩ := List.mem_map.mp ((drawn d hd).rounds.mem_iff.mp hid)
  have mem : u₀ ∈ origin ds := List.mem_flatMap.mpr ⟨d, hd, hu₀⟩
  exact ⟨_, hs.sound.consistent.get mem, (drawn d hd).event u₀ hu₀⟩

/-- **The tables of a new bracket hold its session.** -/
theorem persistDraws_ok {allowed : PlayUnitId → Result → Prop} {ds : List (Draw × EventMeta)}
    (hs : Session (ds.map Prod.fst) allowed s) (drawn : ∀ d ∈ ds.map Prod.fst, Drawn d)
    (keyed : Keyed s) (distinct : (eventIds (ds.map Prod.fst)).Nodup) :
    ∃ store, persistDraws ds s = .ok store ∧ Holds (ds.map Prod.fst) s store [] := by
  have names : eventIds (ds.map Prod.fst) = ds.map fun p => p.1.event.id := by
    rw [eventIds, List.map_map]
    rfl
  have mem : ∀ p ∈ ds, p.1 ∈ ds.map Prod.fst := fun p hp => List.mem_map_of_mem hp
  have empty : ∀ p ∈ ds, ¬ (BracketStore.events {}).Has p.1.event.id ∧
      BracketStore.listMatches {} p.1.event.id = [] := fun p hp => ⟨by simp [Table.Has], rfl⟩
  obtain ⟨store₁, h₁, ev₁, shown, others, res₁⟩ := persistEvents_ok (s := s) (l := ds)
    (names ▸ distinct)
    (fun p hp => (drawn _ (mem p hp)).rounds.nodup_iff.mpr (drawn _ (mem p hp)).units.unique)
    (fun p hp id hid => hs.stored drawn (mem p hp) hid) empty
  obtain ⟨store, h, ev, ma, stored, frame⟩ := persistResults_ok (s := s) keyed
    (fun p hp => by
      obtain ⟨u, hu, e⟩ := hs.sound.consistent.known p.1 (by
        rw [TournamentState.result, Assoc.get_eq_some_of_mem keyed (v := p.2) hp]
        rfl)
      exact ⟨_, e ▸ hs.sound.consistent.get hu⟩) store₁
  have same : ∀ e, store.listMatches e = store₁.listMatches e := fun e => listMatches_congr ma
  refine ⟨store, ?_, ⟨?_, ⟨?_, ?_⟩, ⟨?_, ?_⟩⟩⟩
  · rw [persistDraws, h₁]
    exact h
  · have := congrArg (List.map Prod.fst) ev₁
    rw [ev, names]
    simpa [Function.comp_def] using this
  · intro d hd
    obtain ⟨p, hp, rfl⟩ := List.mem_map.mp hd
    rw [same]
    exact (shown p hp).place
  · intro row hrow
    rw [ma] at hrow
    have mine : row ∈ store₁.listMatches row.eventId := mem_listMatches.mpr ⟨hrow, rfl⟩
    by_cases he : row.eventId ∈ ds.map fun p => p.1.event.id
    · obtain ⟨p, hp, e⟩ := List.mem_map.mp he
      have e : p.1.event.id = row.eventId := e
      obtain ⟨u, hu, he', same⟩ := (shown p hp).unit row (e ▸ mine)
      have field := fun {β : Type} (f : MatchRow → β) => congrArg f same
      refine ⟨u, hu, he'.trans e, ?_, fun _ => ⟨field MatchRow.slotA, field MatchRow.slotB,
        field MatchRow.sideA, field MatchRow.sideB⟩⟩
      rw [field MatchRow.slotA, field MatchRow.slotB, field MatchRow.sideA, field MatchRow.sideB,
        ← e]
      exact same
    · rw [others _ he] at mine
      cases mine
  · intro id u r hu hr _
    exact stored id u r hu (Assoc.mem_of_get hr)
  · intro row hrow
    have found : store.results.get row.key = some row := Table.get_eq_some_iff.mpr ⟨hrow, rfl⟩
    by_cases hp : ∃ p ∈ s.results, ∃ u, s.playUnits.get p.1 = some u ∧ (u.eventId, p.1) = row.key
    · obtain ⟨⟨id, r⟩, hp, u, hu, e⟩ := hp
      have event : u.eventId = row.eventId := congrArg Prod.fst e
      have unit : id = row.matchId := congrArg Prod.snd e
      refine ⟨u, unit ▸ hu, event, ?_⟩
      rw [TournamentState.Resulted, ← unit, TournamentState.result,
        Assoc.get_eq_some_of_mem keyed hp]
      rfl
    · rw [frame row.key (fun p h u hu e => hp ⟨p, h, u, hu, e⟩), res₁] at found
      cases found

/-! ## Writing a recorded result -/

variable {allowed : PlayUnitId → Result → Prop} {ds : List Draw} {pending : List PlayUnitId}

theorem MatchesHold.exists_row (h : MatchesHold ds s store pending) (hs : Session ds allowed s)
    (drawn : ∀ d ∈ ds, Drawn d) (hu : s.playUnits.get u.id = some u) :
    ∃ row, store.matchRows.get (u.eventId, u.id) = some row := by
  obtain ⟨d, hd, e, hid⟩ := hs.placed drawn hu
  obtain ⟨r, m, place⟩ := mem_flatten_iff_at.mp hid
  obtain ⟨row, hrow, -, -, e'⟩ := (h.place d hd r m u.id).mp place
  obtain ⟨hrow, event⟩ := mem_listMatches.mp hrow
  exact ⟨row, Table.get_eq_some_iff.mpr ⟨hrow, Prod.ext (event.trans e) e'⟩⟩

theorem MatchesHold.update (h : MatchesHold ds s store (u.id :: pending))
    (hs : Session ds allowed s) (drawn : ∀ d ∈ ds, Drawn d) (hu : s.playUnits.get u.id = some u) :
    ∃ store', store.updateMatch u.eventId u = .ok store' ∧ store'.events = store.events ∧
      store'.results = store.results ∧ MatchesHold ds s store' pending := by
  obtain ⟨row, hrow⟩ := h.exists_row hs drawn hu
  have key : row.key = (u.eventId, u.id) := Table.key_of_get hrow
  have event : row.eventId = u.eventId := congrArg Prod.fst key
  have unit : row.id = u.id := congrArg Prod.snd key
  have written : store.updateMatch u.eventId u = .ok { store with
      matchRows := store.matchRows.put
        { row with
          slotA := slotToDict u.slotA
          slotB := slotToDict u.slotB
          sideA := u.sideA
          sideB := u.sideB
          version := row.version + 1 } } := by
    rw [BracketStore.updateMatch, hrow]
  refine ⟨_, written, rfl, rfl, ?_, ?_⟩
  · intro d hd r m id
    rw [h.place d hd r m id]
    simp only [mem_listMatches, Table.mem_put]
    constructor
    · rintro ⟨x, ⟨hx, he⟩, rfl, rfl, rfl⟩
      by_cases same : x.key = row.key
      · have : x = row := Table.eq_of_key_eq hx (Table.mem_of_get hrow) same
        subst this
        exact ⟨_, ⟨Or.inl rfl, he⟩, rfl, rfl, rfl⟩
      · exact ⟨x, ⟨Or.inr ⟨hx, same⟩, he⟩, rfl, rfl, rfl⟩
    · rintro ⟨x, ⟨rfl | ⟨hx, -⟩, he⟩, rfl, rfl, rfl⟩
      · exact ⟨row, ⟨Table.mem_of_get hrow, he⟩, rfl, rfl, rfl⟩
      · exact ⟨x, ⟨hx, he⟩, rfl, rfl, rfl⟩
  · intro x hx
    rcases Table.mem_put.mp hx with rfl | ⟨hx, other⟩
    · obtain ⟨u', hu', -, same, -⟩ := h.unit row (Table.mem_of_get hrow)
      rw [unit, hu] at hu'
      cases hu'
      refine ⟨u, by rw [← hu, ← unit], event.symm, ?_, fun _ => ⟨rfl, rfl, rfl, rfl⟩⟩
      have field := fun {β : Type} (f : MatchRow → β) => congrArg f same
      simp only [MatchRow.mk.injEq]
      exact ⟨rfl, field MatchRow.id, rfl, rfl, field MatchRow.kind, trivial, trivial, trivial,
        trivial, field MatchRow.dependencies, field MatchRow.expectedDurationSlots,
        field MatchRow.durationVarianceSlots, field MatchRow.childUnitIds,
        field MatchRow.metadata, trivial⟩
    · obtain ⟨u', hu', event', same, shown⟩ := h.unit x hx
      refine ⟨u', hu', event', same, fun hn => shown ?_⟩
      rw [List.mem_cons, not_or]
      refine ⟨?_, hn⟩
      intro e
      rw [e, hu] at hu'
      cases hu'
      exact other (Prod.ext (event'.symm.trans event.symm) (e.trans unit.symm))

theorem ResultsHold.put (h : ResultsHold s store (u.id :: pending))
    (hu : s.playUnits.get u.id = some u) (hr : s.result u.id = some r) :
    ResultsHold s (store.recordResult u.eventId u.id r) pending where
  stored := by
    intro id u' r' hu' hr' hn
    by_cases e : id = u.id
    · subst e
      rw [hu] at hu'
      rw [hr] at hr'
      cases hu'
      cases hr'
      exact Table.get_put_self _ (resultRow u.eventId u.id r)
    · have := h.stored id u' r' hu' hr' (by
        rw [List.mem_cons, not_or]
        exact ⟨e, hn⟩)
      rw [← this]
      exact Table.get_put_of_ne _ (fun k => e (congrArg Prod.snd k).symm)
  known := by
    intro row hrow
    rcases Table.mem_put.mp hrow with rfl | ⟨hrow, -⟩
    · exact ⟨u, hu, rfl, by rw [TournamentState.Resulted]; exact Option.isSome_iff_exists.mpr ⟨r, hr⟩⟩
    · exact h.known row hrow

theorem ResultsHold.skip {id : PlayUnitId} (h : ResultsHold s store (id :: pending))
    (hr : s.result id = none) : ResultsHold s store pending where
  stored := by
    intro id' u r hu hr' hn
    refine h.stored id' u r hu hr' ?_
    rw [List.mem_cons, not_or]
    refine ⟨?_, hn⟩
    rintro rfl
    rw [hr] at hr'
    cases hr'
  known := h.known

theorem persistDownstream_ok {id : PlayUnitId} (h : Holds ds s store (id :: pending))
    (hs : Session ds allowed s) (drawn : ∀ d ∈ ds, Drawn d) (known : s.playUnits.Has id) :
    ∃ store', persistDownstream s (eventIds ds) store id = .ok store' ∧
      Holds ds s store' pending := by
  obtain ⟨u, hu, rfl⟩ := Table.has_iff.mp known
  have stored : s.playUnits.get u.id = some u := Table.get_eq_some_iff.mpr ⟨hu, rfl⟩
  obtain ⟨d, hd, e, -⟩ := hs.placed drawn stored
  have draw : u.eventId ∈ eventIds ds := e ▸ List.mem_map_of_mem hd
  obtain ⟨store₁, h₁, ev, res, updated⟩ := h.matchRows.update hs drawn stored
  have results : ResultsHold s store₁ (u.id :: pending) := ⟨res ▸ h.results.stored,
    res ▸ h.results.known⟩
  simp only [persistDownstream, stored]
  rw [if_neg (not_not.mpr draw), h₁]
  cases hr : s.result u.id with
  | none => exact ⟨store₁, rfl, ev ▸ h.events, updated, results.skip hr⟩
  | some r =>
    exact ⟨_, rfl, ev ▸ h.events, ⟨updated.place, updated.unit⟩, results.put stored hr⟩

theorem persistDownstreams_ok {ids : List PlayUnitId} (h : Holds ds s store ids)
    (hs : Session ds allowed s) (drawn : ∀ d ∈ ds, Drawn d)
    (known : ∀ id ∈ ids, s.playUnits.Has id) :
    ∃ store', ids.foldlM (persistDownstream s (eventIds ds)) store = .ok store' ∧
      Holds ds s store' [] := by
  induction ids generalizing store with
  | nil => exact ⟨store, rfl, h⟩
  | cons id ids ih =>
    obtain ⟨store₁, h₁, held⟩ := persistDownstream_ok h hs drawn (known id List.mem_cons_self)
    obtain ⟨store', h', last⟩ := ih held (fun id hid => known id (List.mem_cons_of_mem _ hid))
    refine ⟨store', ?_, last⟩
    rw [List.foldlM_cons, h₁]
    exact h'

theorem start_kept (store : BracketStore) (eventId : EventId) :
    (store.start eventId).matchRows = store.matchRows ∧
      (store.start eventId).results = store.results ∧
      (store.start eventId).events.rows.map EventRow.id = store.events.rows.map EventRow.id := by
  unfold BracketStore.start
  split
  · exact ⟨rfl, rfl, rfl⟩
  split
  · have kept := setEventStatus_matchRows store eventId "started"
    have ids := congrArg (List.map Prod.fst) (setEventStatus_events store eventId "started")
    exact ⟨kept.1, kept.2, by simpa [Function.comp_def] using ids⟩
  · exact ⟨rfl, rfl, rfl⟩

/-- **Writing what a recorded result affects is enough**: the tables hold the session again. -/
theorem persistResultAdvancement_ok {unit : PlayUnit} {affected : List PlayUnitId}
    (h : Holds ds s store []) (hs : Session ds allowed s) (drawn : ∀ d ∈ ds, Drawn d)
    (hp : Playable s unit) (ha : allowed unit.id r)
    (rec : Recorded s (eventIds ds) unit r s' affected) :
    ∃ store', persistResultAdvancement store s' (eventIds ds) unit.id affected = .ok store' ∧
      Holds ds s' store' [] := by
  have hs' := hs.recorded hp ha rec
  have self : s'.playUnits.get unit.id = some unit := hs.sound.recorded_self hs.wf hp ha rec
  have result : s'.result unit.id = some r := rec.result
  -- a unit keeps everything but its slots and sides
  have later : ∀ {id u}, s.playUnits.get id = some u → ∃ u₀ : PlayUnit,
      u = settleUnit s.playUnits s.result u₀ ∧
      s'.playUnits.get id = some (settleUnit s'.playUnits s'.result u₀) := by
    intro id u hu
    obtain ⟨u₀, hu₀, rfl, e⟩ := hs.sound.consistent.of_get hu
    exact ⟨u₀, e, hs'.sound.consistent.get hu₀⟩
  have same : ∀ {id u}, s.playUnits.get id = some u → id ∉ affected →
      s'.playUnits.get id = some u := by
    intro id u hu hn
    by_cases e : id = unit.id
    · subst e
      rw [hp.stored] at hu
      rw [self, hu]
    · rw [← (rec.sameAt e hn).1, hu]
  obtain ⟨rows, res, ids⟩ := start_kept (store.recordResult unit.eventId unit.id r) unit.eventId
  have held : Holds ds s' ((store.recordResult unit.eventId unit.id r).start unit.eventId)
      affected := by
    refine ⟨ids.trans h.events, ⟨?_, ?_⟩, ?_⟩
    · intro d hd r' m id
      rw [listMatches_congr rows]
      exact h.matchRows.place d hd r' m id
    · intro row hrow
      rw [rows] at hrow
      obtain ⟨u, hu, event, fields, shown⟩ := h.matchRows.unit row hrow
      obtain ⟨u₀, e, hu'⟩ := later hu
      refine ⟨_, hu', ?_, ?_, fun hn => ?_⟩
      · rw [← event, e]
        rfl
      · rw [e] at fields
        exact fields
      · rw [same hu hn] at hu'
        cases hu'
        exact shown (by simp)
    · have written : ResultsHold s' store (unit.id :: affected) := by
        refine ⟨?_, ?_⟩
        · intro id u r' hu hr hn
          rw [List.mem_cons, not_or] at hn
          have alike := rec.sameAt hn.1 hn.2
          rw [← alike.1] at hu
          rw [← alike.2] at hr
          exact h.results.stored id u r' hu hr (by simp)
        · intro row hrow
          obtain ⟨u, hu, event, resulted⟩ := h.results.known row hrow
          obtain ⟨u₀, e, hu'⟩ := later hu
          obtain ⟨r', hr'⟩ := Option.isSome_iff_exists.mp resulted
          refine ⟨_, hu', ?_, ?_⟩
          · rw [← event, e]
            rfl
          · rw [TournamentState.Resulted, rec.keeps hp.new hr']
            rfl
      have put := written.put self result
      exact ⟨res ▸ put.stored, res ▸ put.known⟩
  obtain ⟨store', hok, last⟩ := persistDownstreams_ok held hs' drawn (fun id hid => rec.known hid)
  refine ⟨store', ?_, last⟩
  simp only [persistResultAdvancement, self, result]
  exact hok

end Brackets
