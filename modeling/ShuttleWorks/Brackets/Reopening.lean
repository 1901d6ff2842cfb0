import ShuttleWorks.Brackets.Persistence

/-! Sessions read back from their tables. Event after event the units and the results of
the session return, and the reconciliation at the end finds nothing to fill. -/

namespace Brackets
open Lib

variable {allowed : PlayUnitId → Result → Prop} {ds : List Draw} {store : BracketStore}
  {s : TournamentState} {draws : List Draw} {t : TournamentState}

/-! ## Results -/

theorem hydrateResult_resultRow (t : TournamentState) (eventId : EventId) (id : PlayUnitId)
    (r : Result) : hydrateResult t (resultRow eventId id r) =
      .ok { t with results := Assoc.set id r t.results } := by
  simp only [hydrateResult, resultRow, parseWinnerSide_value]
  rfl

theorem foldlM_hydrateResult {f : PlayUnitId → Option Result} {rows : List ResultRow}
    (h : ∀ row ∈ rows, ∃ r, f row.matchId = some r ∧ row = resultRow row.eventId row.matchId r)
    (t : TournamentState) : ∃ t', rows.foldlM hydrateResult t = .ok t' ∧
      t'.playUnits = t.playUnits ∧
      ∀ id, t'.result id = if id ∈ rows.map ResultRow.matchId then f id else t.result id := by
  induction rows generalizing t with
  | nil => exact ⟨t, rfl, rfl, by simp⟩
  | cons row rows ih =>
    obtain ⟨r, hr, e⟩ := h row List.mem_cons_self
    obtain ⟨t', h', units, results⟩ := ih (fun row hrow => h row (List.mem_cons_of_mem _ hrow))
      { t with results := Assoc.set row.matchId r t.results }
    refine ⟨t', ?_, units, ?_⟩
    · rw [List.foldlM_cons, e, hydrateResult_resultRow]
      exact h'
    · intro id
      rw [results id, List.map_cons]
      by_cases hid : id ∈ rows.map ResultRow.matchId
      · simp [hid]
      · by_cases e' : row.matchId = id
        · subst e'
          simp [hid, TournamentState.result, hr]
        · simp [hid, Ne.symm e', TournamentState.result, Assoc.get_set_of_ne e']

/-! ## Events -/

def OfEvent (s : TournamentState) (events : List EventId) (id : PlayUnitId) : Prop :=
  ∃ u, s.playUnits.get id = some u ∧ u.eventId ∈ events

/-- What has been read back of these events. -/
structure Loaded (s t : TournamentState) (events : List EventId) : Prop where
  there : ∀ id, OfEvent s events id →
    t.playUnits.get id = s.playUnits.get id ∧ t.result id = s.result id
  absent : ∀ id, ¬ OfEvent s events id → t.playUnits.get id = none ∧ t.result id = none

/-- **Reading an event back** adds its units and its results. -/
theorem hydrateEvent_ok (h : Holds ds s store []) (hs : Session ds allowed s)
    (drawn : ∀ d ∈ ds, Drawn d) (distinct : (eventIds ds).Nodup)
    (participants : EventId → Participants) {events : List EventId} (loaded : Loaded s t events)
    {row : EventRow} (hrow : row.id ∈ eventIds ds) :
    ∃ d' t', hydrateEvent store participants (draws, t) row = .ok (draws ++ [d'], t') ∧
      Loaded s t' (events ++ [row.id]) := by
  obtain ⟨d, hd, e⟩ := List.mem_map.mp hrow
  have rendered := h.matchRows.rendered hd
  rw [e] at rendered
  obtain ⟨us, hus, ids, stored⟩ := rendered.units_ok
  -- the rows of the event are those of its units
  have mine : ∀ id, id ∈ us.map PlayUnit.id ↔ OfEvent s [row.id] id := by
    intro id
    rw [ids, List.mem_map]
    constructor
    · rintro ⟨x, hx, rfl⟩
      obtain ⟨u, hu, he, -⟩ := rendered.unit x hx
      exact ⟨u, hu, by simp [he]⟩
    · rintro ⟨u, hu, he⟩
      rw [List.mem_singleton] at he
      obtain ⟨d', hd', e', hid⟩ := hs.placed drawn hu
      obtain rfl : d' = d :=
        List.inj_on_of_nodup_map distinct hd' hd (e'.trans (he.trans e.symm))
      obtain ⟨r, m, place⟩ := mem_flatten_iff_at.mp hid
      obtain ⟨x, hx, -, -, hid⟩ := (rendered.place r m id).mp place
      exact ⟨x, hx, hid⟩
  have resultRows : ∀ x ∈ ((store.results.rows.filter fun result => result.eventId = row.id)
      |>.insertionSort fun a b => a.matchId ≤ b.matchId), OfEvent s [row.id] x.matchId ∧
        ∃ r, s.result x.matchId = some r ∧ x = resultRow x.eventId x.matchId r := by
    intro x hx
    rw [List.mem_insertionSort, List.mem_filter, decide_eq_true_eq] at hx
    obtain ⟨u, hu, event, resulted⟩ := h.results.known x hx.1
    obtain ⟨r, hr⟩ := Option.isSome_iff_exists.mp resulted
    refine ⟨⟨u, hu, by simp [event, hx.2]⟩, r, hr, ?_⟩
    have found := h.results.stored x.matchId u r hu hr (by simp)
    have self : store.results.get x.key = some x := Table.get_eq_some_iff.mpr ⟨hx.1, rfl⟩
    rw [event] at found
    exact Option.some.inj (self.symm.trans found)
  obtain ⟨t', ht', units', results'⟩ := foldlM_hydrateResult (f := s.result)
    (fun x hx => (resultRows x hx).2) { t with playUnits := us.foldl Table.put t.playUnits }
  have units : ∀ id, t'.playUnits.get id =
      if id ∈ us.map PlayUnit.id then s.playUnits.get id else t.playUnits.get id := by
    intro id
    rw [units']
    exact Table.get_foldl_put stored t.playUnits id
  have split : ∀ id, OfEvent s (events ++ [row.id]) id ↔
      OfEvent s events id ∨ OfEvent s [row.id] id := by
    intro id
    simp only [OfEvent, List.mem_append]
    constructor
    · rintro ⟨u, hu, he | he⟩
      · exact Or.inl ⟨u, hu, he⟩
      · exact Or.inr ⟨u, hu, he⟩
    · rintro (⟨u, hu, he⟩ | ⟨u, hu, he⟩)
      · exact ⟨u, hu, Or.inl he⟩
      · exact ⟨u, hu, Or.inr he⟩
  have step : ∃ d', hydrateEvent store participants (draws, t) row = .ok (draws ++ [d'], t') := by
    simp only [hydrateEvent, hydrateDraw, hus, ok_bind]
    rw [show ∀ (x : Draw × TournamentState) (f : _ → Except StoreError (List Draw × TournamentState)),
      (pure x >>= f) = f x from fun _ _ => rfl, ht']
    exact ⟨_, rfl⟩
  obtain ⟨d', step⟩ := step
  refine ⟨d', t', step, ?_, ?_⟩
  · intro id hid
    by_cases new : OfEvent s [row.id] id
    · refine ⟨by rw [units, if_pos ((mine id).mpr new)], ?_⟩
      rw [results']
      split
      · rfl
      · next absent =>
        -- a unit of the event without a stored result has none, and had none before
        obtain ⟨u, hu, he⟩ := new
        rw [List.mem_singleton] at he
        have unresulted : s.result id = none := by
          cases hr : s.result id with
          | none => rfl
          | some r =>
            have found := h.results.stored id u r hu hr (by simp)
            refine absurd (List.mem_map.mpr ⟨resultRow u.eventId id r, ?_, rfl⟩) absent
            rw [List.mem_insertionSort, List.mem_filter, decide_eq_true_eq]
            exact ⟨Table.mem_of_get found, he⟩
        show t.result id = s.result id
        by_cases old : OfEvent s events id
        · exact (loaded.there id old).2
        · rw [(loaded.absent id old).2, unresulted]
    · have old : OfEvent s events id := ((split id).mp hid).resolve_right new
      refine ⟨by rw [units, if_neg (fun hm => new ((mine id).mp hm))]; exact (loaded.there id old).1, ?_⟩
      rw [results', if_neg]
      · exact (loaded.there id old).2
      · intro hm
        obtain ⟨x, hx, rfl⟩ := List.mem_map.mp hm
        exact new (resultRows x hx).1
  · intro id hid
    rw [split, not_or] at hid
    refine ⟨by
      rw [units, if_neg (fun hm => hid.2 ((mine id).mp hm))]
      exact (loaded.absent id hid.1).1, ?_⟩
    rw [results', if_neg]
    · exact (loaded.absent id hid.1).2
    · intro hm
      obtain ⟨x, hx, rfl⟩ := List.mem_map.mp hm
      exact hid.2 (resultRows x hx).1

theorem hydrateEvents_ok (h : Holds ds s store []) (hs : Session ds allowed s)
    (drawn : ∀ d ∈ ds, Drawn d) (distinct : (eventIds ds).Nodup)
    (participants : EventId → Participants) {rows : List EventRow}
    (hrows : ∀ row ∈ rows, row.id ∈ eventIds ds) {events : List EventId}
    (loaded : Loaded s t events) :
    ∃ draws' t', rows.foldlM (hydrateEvent store participants) (draws, t) = .ok (draws', t') ∧
      Loaded s t' (events ++ rows.map EventRow.id) := by
  induction rows generalizing draws t events with
  | nil => exact ⟨draws, t, rfl, by simpa using loaded⟩
  | cons row rows ih =>
    obtain ⟨d', t₁, h₁, loaded₁⟩ := hydrateEvent_ok h hs drawn distinct participants loaded
      (hrows row List.mem_cons_self)
    obtain ⟨draws', t', h', last⟩ := ih (fun row hrow => hrows row (List.mem_cons_of_mem _ hrow))
      loaded₁
    refine ⟨draws', t', ?_, by simpa using last⟩
    rw [List.foldlM_cons, h₁]
    exact h'

/-- **Reading the tables of a session back gives its units and its results.** -/
theorem hydrateSession_ok (h : Holds ds s store []) (hs : Session ds allowed s)
    (drawn : ∀ d ∈ ds, Drawn d) (distinct : (eventIds ds).Nodup) (some : ds ≠ [])
    (participants : EventId → Participants) :
    ∃ draws t, hydrateSession store participants = .ok (Option.some (draws, t)) ∧
      ∀ id, t.playUnits.get id = s.playUnits.get id ∧ t.result id = s.result id := by
  have perm := List.perm_insertionSort (fun a b : EventRow => a.id ≤ b.id) store.events.rows
  have ids : ∀ e, e ∈ ((store.events.rows.insertionSort fun a b => a.id ≤ b.id).map EventRow.id) ↔
      e ∈ eventIds ds := by
    intro e
    rw [(perm.map EventRow.id).mem_iff, h.events]
  have start : Loaded s {} [] := by
    refine ⟨?_, fun id _ => ⟨rfl, rfl⟩⟩
    rintro id ⟨u, -, he⟩
    cases he
  obtain ⟨draws, t, ht, loaded⟩ := hydrateEvents_ok h hs drawn distinct participants
    (fun row hrow => (ids _).mp (List.mem_map_of_mem hrow)) start
  rw [List.nil_append] at loaded
  have all : ∀ id u, s.playUnits.get id = Option.some u →
      OfEvent s ((store.events.rows.insertionSort fun a b => a.id ≤ b.id).map EventRow.id) id := by
    intro id u hu
    obtain ⟨d, hd, e, -⟩ := hs.placed drawn hu
    exact ⟨u, hu, (ids _).mpr (e ▸ List.mem_map_of_mem hd)⟩
  have units : ∀ id, t.playUnits.get id = s.playUnits.get id := by
    intro id
    by_cases of : OfEvent s
        ((store.events.rows.insertionSort fun a b => a.id ≤ b.id).map EventRow.id) id
    · exact (loaded.there id of).1
    · rw [(loaded.absent id of).1]
      cases hu : s.playUnits.get id with
      | none => rfl
      | some u => exact absurd (all id u hu) of
  have results : t.result = s.result := by
    funext id
    by_cases of : OfEvent s
        ((store.events.rows.insertionSort fun a b => a.id ≤ b.id).map EventRow.id) id
    · exact (loaded.there id of).2
    · rw [(loaded.absent id of).2]
      cases hr : s.result id with
      | none => rfl
      | some r =>
        obtain ⟨u, hu, rfl⟩ := hs.sound.consistent.known id (by simp [hr])
        exact absurd (all _ _ (hs.sound.consistent.get hu)) of
  have quiet : Quiet t := hs.sound.quiet.congr units results
  have stored : store.events.rows ≠ [] := by
    intro none
    have := h.events
    rw [none, List.map_nil, eventIds, eq_comm, List.map_eq_nil_iff] at this
    exact some this
  refine ⟨draws, t, ?_, fun id => ⟨units id, congrFun results id⟩⟩
  rw [hydrateSession, if_neg stored]
  dsimp only
  rw [ht, ok_bind]
  show Except.ok (Option.some (draws, (reconcileRecordedResults t (draws.map Draw.rounds)).1)) = _
  rw [quiet.reconcile]

end Brackets
