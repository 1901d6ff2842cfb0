import ShuttleWorks.Brackets.Reconciled
import ShuttleWorks.Brackets.Reload

/-! The session a payload is imported to. Registration settles the byes of every live event,
the imported results are stored over them and carried forward; an event of completed matches
stands as it was given. -/

namespace Brackets
open Lib

variable {ev : ImportEventIn} {d : Draw} {rows : List (List PlayUnit)} {mu mu' : ImportPlayUnitIn}
  {u : PlayUnit} {ds : List Draw}

/-! ## Feeders and rounds -/

namespace ImportEventIn

def Backward (ev : ImportEventIn) : Prop :=
  ev.HistoricalRecords ∨ ∀ round ∈ ev.rounds.tail, ∀ mu ∈ round, ∀ mu' ∈ round,
    mu.feederA ≠ some mu'.id ∧ mu.feederB ≠ some mu'.id

def NoSelf (ev : ImportEventIn) : Prop :=
  ev.HistoricalRecords ∨ ∀ round ∈ ev.rounds.tail, ∀ mu ∈ round,
    mu.feederA ≠ some mu.id ∧ mu.feederB ≠ some mu.id

instance (ev : ImportEventIn) : Decidable ev.Backward := inferInstanceAs (Decidable (_ ∨ _))

instance (ev : ImportEventIn) : Decidable ev.NoSelf := inferInstanceAs (Decidable (_ ∨ _))

theorem Backward.noSelf (h : ev.Backward) : ev.NoSelf :=
  h.imp_right fun h round hr mu hmu => h round hr mu hmu mu hmu

theorem Backward.feeder (h : ev.Backward) (live : ¬ ev.HistoricalRecords)
    {round : List ImportPlayUnitIn} (hr : round ∈ ev.rounds.tail) (hmu : mu ∈ round)
    (hmu' : mu' ∈ round) (X : PlayUnit.Place) :
    mu.feeder X ≠ some mu'.id := by
  obtain ⟨a, b⟩ := h.resolve_left live round hr mu hmu mu' hmu'
  cases X
  · exact a
  · exact b

theorem NoSelf.feeder (h : ev.NoSelf) (live : ¬ ev.HistoricalRecords)
    {round : List ImportPlayUnitIn} (hr : round ∈ ev.rounds.tail) (hmu : mu ∈ round)
    (X : PlayUnit.Place) : mu.feeder X ≠ some mu.id := by
  obtain ⟨a, b⟩ := h.resolve_left live round hr mu hmu
  cases X
  · exact a
  · exact b

end ImportEventIn

def EarlierFeeders (d : Draw) : Prop :=
  ∀ u ∈ d.playUnits.rows, ∀ n, d.InRound n u.id → ∀ X f, (u.slot X).FedBy f →
    ∃ m < n, d.InRound m f

theorem earlierFeeders_plainDraw (unique : (rows.flatten.map PlayUnit.id).Nodup) {event : Event}
    {participants : List Participant} :
    EarlierFeeders (plainDraw event participants rows) ↔
      ∀ r m u, At rows r m u → ∀ X f, (u.slot X).FedBy f →
        ∃ r' < r, ∃ m' v, At rows r' m' v ∧ v.id = f := by
  have own := plainDraw_rows unique event participants
  constructor
  · intro h r m u hu X f fed
    obtain ⟨r', lt, round, hr, hid⟩ := h u (own ▸ hu.mem) r
      ((plainDraw_inRound unique hu.mem).mpr ⟨m, hu⟩) X f fed
    obtain ⟨m', hm⟩ := List.getElem?_of_mem hid
    obtain ⟨v, hv, e⟩ := at_map.mp ⟨round, hr, hm⟩
    exact ⟨r', lt, m', v, hv, e⟩
  · intro h u hu n hn X f fed
    rw [own] at hu
    obtain ⟨m, hm⟩ := (plainDraw_inRound unique hu).mp hn
    obtain ⟨r', lt, m', v, hv, rfl⟩ := h n m u hm X f fed
    exact ⟨r', lt, (plainDraw_inRound unique hv.mem).mpr ⟨m', hv⟩⟩

namespace ImportedDraw

theorem place (h : ImportedDraw ev d rows) {r m r' m' : Nat} (hmu : At ev.rounds r m mu)
    (hmu' : At ev.rounds r' m' mu') (e : mu.id = mu'.id) :
    r = r' ∧ m = m' := by
  obtain ⟨u, hu, imported⟩ := h.onto r m mu hmu
  obtain ⟨u', hu', imported'⟩ := h.onto r' m' mu' hmu'
  exact hu.place h.built.unique hu' (by rw [imported.id, imported'.id, e])

theorem ids_nodup (h : ImportedDraw ev d rows) :
    (ev.rounds.flatten.map ImportPlayUnitIn.id).Nodup := by
  rw [List.map_flatten]
  refine nodup_flatten_of_at fun r m r' m' id hid hid' => ?_
  obtain ⟨mu, hmu, rfl⟩ := at_map.mp hid
  obtain ⟨mu', hmu', e⟩ := at_map.mp hid'
  exact h.place hmu hmu' e.symm

theorem entry (h : ImportedDraw ev d rows) (hu : u ∈ rows.flatten) :
    ∃ r m mu, At ev.rounds r m mu ∧ At rows r m u ∧ Imported ev r mu u := by
  obtain ⟨r, m, hu⟩ := mem_flatten_iff_at.mp hu
  obtain ⟨mu, hmu, imported⟩ := h.built.fits r m u hu
  exact ⟨r, m, mu, hmu, hu, imported⟩

theorem rows_playUnits (h : ImportedDraw ev d rows) : d.playUnits.rows = rows.flatten := by
  obtain ⟨event, participants, rfl, -⟩ := h.draw
  exact plainDraw_rows h.built.unique event participants

theorem event_id (h : ImportedDraw ev d rows) : d.event.id = ev.id := by
  obtain ⟨event, participants, rfl, he⟩ := h.draw
  exact he

theorem rounds_eq (h : ImportedDraw ev d rows) :
    d.rounds = rows.map fun row => row.map PlayUnit.id := by
  obtain ⟨event, participants, rfl, -⟩ := h.draw
  rfl

/-- **Feeders of an accepted event stand earlier exactly when no unit names its own round.** -/
theorem earlierFeeders_iff (h : ImportedDraw ev d rows) : EarlierFeeders d ↔ ev.Backward := by
  obtain ⟨event, participants, rfl, -⟩ := h.draw
  rw [earlierFeeders_plainDraw h.built.unique]
  by_cases hist : ev.HistoricalRecords
  · refine iff_of_true ?_ (.inl hist)
    intro r m u hu X f fed
    obtain ⟨mu, hmu, imported⟩ := h.built.fits r m u hu
    obtain ⟨-, -, sides⟩ := imported.completed hist
    rcases (sides X).2.2 with ⟨-, slot⟩ | ⟨f', -, -, slot, ⟨r', lt, m', mu', -, hmu', e, -⟩⟩
    · rw [slot] at fed
      exact absurd fed (BracketSlot.fedBy_participant _ _)
    · rw [slot, BracketSlot.fedBy_feeder] at fed
      obtain ⟨v, hv, imported'⟩ := h.onto r' m' mu' hmu'
      exact ⟨r', lt, m', v, hv, by rw [imported'.id, e, fed]⟩
  · constructor
    · refine fun earlier => .inr fun round hround mu hmu mu' hmu' => ?_
      obtain ⟨r, m, hr, pos, stands⟩ := exists_at_of_tail hround hmu
      obtain ⟨m', hm'⟩ := List.getElem?_of_mem hmu'
      obtain ⟨u, hu, imported⟩ := h.onto r m mu stands
      obtain ⟨u', hu', imported'⟩ := h.onto r m' mu' ⟨round, hr, hm'⟩
      obtain ⟨f, -, slots⟩ := imported.later hist pos
      have apart : ∀ X, mu.feeder X ≠ some mu'.id := by
        intro X names
        have named := (slots X).1.symm.trans names
        obtain ⟨r', lt, m'', v, hv, e⟩ := earlier r m u hu X (f X) (by
          rw [(slots X).2.2]
          exact (BracketSlot.fedBy_feeder _ _ _).mpr rfl)
        have := (hv.place h.built.unique hu' (by
          rw [e, imported'.id]
          exact Option.some.inj named)).1
        omega
      exact ⟨apart .A, apart .B⟩
    · intro backward r m u hu X f fed
      obtain ⟨mu, hmu, imported⟩ := h.built.fits r m u hu
      by_cases first : r = 0
      · rw [((imported.first hist first).2 X).2] at fed
        exact absurd fed (BracketSlot.fedBy_participant _ _)
      · obtain ⟨g, deps, slots⟩ := imported.later hist first
        rw [(slots X).2.2, BracketSlot.fedBy_feeder] at fed
        subst fed
        have hd : g X ∈ u.dependencies := by
          rw [deps]
          cases X <;> simp
        obtain ⟨round, hround, hin⟩ := hmu.tail first
        have own := hmu
        obtain ⟨round, hr, hm⟩ := hmu
        have htail : round ∈ ev.rounds.tail := by
          obtain ⟨x, hx, -⟩ := own.tail first
          rw [List.mem_iff_getElem?]
          exact ⟨r - 1, by rw [List.getElem?_tail, Nat.sub_add_cancel (Nat.pos_of_ne_zero first), hr]⟩
        rcases h.built.depends r m u hu (g X) hd with e | ⟨r', m', v, lt | ⟨rfl, -⟩, hv, e⟩
        · exact absurd (by rw [(slots X).1, e, imported.id]) (backward.feeder hist htail
            (List.mem_of_getElem? hm) (List.mem_of_getElem? hm) X)
        · exact ⟨r', lt, m', v, hv, e⟩
        · obtain ⟨mu', hmu', imported'⟩ := h.built.fits r' m' v hv
          obtain ⟨round', hr', hm'⟩ := hmu'
          rw [hr] at hr'
          cases hr'
          exact absurd (by rw [(slots X).1, ← e, imported'.id]) (backward.feeder hist htail
            (List.mem_of_getElem? hm) (List.mem_of_getElem? hm') X)

theorem liveRows (h : ImportedDraw ev d rows) (live : ¬ ev.HistoricalRecords)
    (noSelf : ev.NoSelf) : LiveRows ev.id rows where
  unique := h.built.unique
  event := by
    intro r m u hu
    obtain ⟨mu, -, imported⟩ := h.built.fits r m u hu
    exact imported.event
  shape := by
    intro r m u hu
    obtain ⟨mu, -, imported⟩ := h.built.fits r m u hu
    by_cases first : r = 0
    · obtain ⟨deps, slots⟩ := imported.first live first
      exact .inl ⟨deps, ⟨_, (slots .A).2⟩, _, (slots .B).2⟩
    · obtain ⟨f, deps, slots⟩ := imported.later live first
      exact .inr ⟨(slots .A).2.1, (slots .B).2.1, ⟨f .A, by simp [deps], _, (slots .A).2.2⟩,
        f .B, by simp [deps], _, (slots .B).2.2⟩
  before := by
    intro r m u hu d hd
    refine (h.built.depends r m u hu d hd).resolve_left ?_
    rintro rfl
    obtain ⟨mu, hmu, imported⟩ := h.built.fits r m u hu
    by_cases first : r = 0
    · rw [(imported.first live first).1] at hd
      cases hd
    · obtain ⟨f, deps, slots⟩ := imported.later live first
      obtain ⟨round, hround, hin⟩ := hmu.tail first
      rw [deps] at hd
      simp only [List.mem_cons, List.not_mem_nil, or_false] at hd
      rcases hd with e | e
      · exact noSelf.feeder live hround hin .A (by rw [(slots .A).1, ← e, imported.id])
      · exact noSelf.feeder live hround hin .B (by rw [(slots .B).1, ← e, imported.id])
  free := by
    intro r m u hu
    obtain ⟨mu, -, imported⟩ := h.built.fits r m u hu
    constructor
    · intro deps
      by_contra first
      obtain ⟨f, deps', -⟩ := imported.later live first
      rw [deps'] at deps
      cases deps
    · exact fun first => (imported.first live first).1

end ImportedDraw

/-! ## One event in a state -/

theorem ImportedDraw.before (h : ImportedDraw ev d rows) (noSelf : ev.NoSelf) :
    ∀ r m u, At rows r m u → ∀ x ∈ u.dependencies, Before rows r m x := by
  intro r m u hu x hx
  by_cases hist : ev.HistoricalRecords
  · obtain ⟨mu, hmu, imported⟩ := h.built.fits r m u hu
    obtain ⟨-, named, sides⟩ := imported.completed hist
    obtain ⟨X, names⟩ := named x hx
    rcases (sides X).2.2 with ⟨none, -⟩ | ⟨f, -, names', -, ⟨r', lt, m', mu', -, hmu', e, -⟩⟩
    · rw [none] at names
      cases names
    · rw [names] at names'
      cases names'
      obtain ⟨v, hv, imported'⟩ := h.onto r' m' mu' hmu'
      exact ⟨r', m', v, .inl lt, hv, by rw [imported'.id, e]⟩
  · exact (h.liveRows hist noSelf).before r m u hu x hx

theorem ImportedDraw.ordered (h : ImportedDraw ev d rows) (noSelf : ev.NoSelf) :
    Ordered PlayUnit.id PlayUnit.dependencies [] rows.flatten :=
  Ordered.flatten_of_before fun r m u hu x hx => .inr (h.before noSelf r m u hu x hx)

theorem ImportedDraw.full (h : ImportedDraw ev d rows) (hist : ev.HistoricalRecords) :
    ∀ u ∈ rows.flatten, u.sideA ≠ [] ∧ u.sideB ≠ [] := by
  intro u hu
  obtain ⟨r, m, mu, -, -, imported⟩ := h.entry hu
  obtain ⟨-, -, sides⟩ := imported.completed hist
  have side : ∀ X, u.side X ≠ [] := fun X => by
    rw [(sides X).2.1]
    exact (sides X).1
  exact ⟨side .A, side .B⟩

/-- An imported event in a state: a live one is carried forward from its walkovers, completed
matches stand as they were given, and every stored result is the imported one or a walkover. -/
structure EventState (ev : ImportEventIn) (rows : List (List PlayUnit))
    (wres res : PlayUnitId → Option Result) (done : List PlayUnitId) (s : TournamentState) :
    Prop where
  live : ¬ ev.HistoricalRecords → Carried rows.flatten wres s.result res done s.playUnits
  full : ev.HistoricalRecords → ∀ u ∈ rows.flatten,
    s.playUnits.get u.id = some u ∧ wres u.id = none
  given : ∀ mu ∈ ev.rounds.flatten, s.result mu.id =
    match mu.result with
    | some r => some r.toResult
    | none => wres mu.id

section

variable {wres res : PlayUnitId → Option Result} {done : List PlayUnitId} {s s' : TournamentState}
  {w : TournamentState × List PlayUnitId}

theorem EventState.congr (draw : ImportedDraw ev d rows) (noSelf : ev.NoSelf)
    (h : EventState ev rows wres res done s) (same : ∀ u ∈ rows.flatten, SameAt u.id s s') :
    EventState ev rows wres res done s' where
  live := fun live => (h.live live).congr (draw.liveRows live noSelf).wellFormed
    (fun u hu => (same u hu).1.symm) (fun u hu => (same u hu).2.symm) fun _ _ => .rfl
  full := by
    intro hist u hu
    rw [← (same u hu).1]
    exact h.full hist u hu
  given := by
    intro mu hmu
    obtain ⟨r, m, hat⟩ := mem_flatten_iff_at.mp hmu
    obtain ⟨u, hu, imported⟩ := draw.onto r m mu hat
    rw [← imported.id, ← (same u hu.mem).2, imported.id]
    exact h.given mu hmu

theorem EventState.get (draw : ImportedDraw ev d rows) (h : EventState ev rows wres res done s)
    (hu : u ∈ rows.flatten) : ∃ v, s.playUnits.get u.id = some v ∧
      v.dependencies = u.dependencies ∧ v.eventId = d.event.id := by
  obtain ⟨r, m, mu, -, -, imported⟩ := draw.entry hu
  have event : u.eventId = d.event.id := imported.event.trans draw.event_id.symm
  by_cases hist : ev.HistoricalRecords
  · exact ⟨u, (h.full hist u hu).1, rfl, event⟩
  · exact ⟨_, (h.live hist).settled u hu, rfl, event⟩

theorem reconcile_full {ids : List PlayUnitId} {id : PlayUnitId}
    (stored : w.1.playUnits.get id = some u) (full : u.sideA ≠ [] ∧ u.sideB ≠ []) :
    (ids.foldl reconcileUnit w).1.playUnits.get id = some u := by
  induction ids generalizing w with
  | nil => exact stored
  | cons f ids ih =>
    apply ih
    rcases reconcileUnit_get w f id with same | ⟨recorded, r, -, filled⟩
    · rw [same, stored]
    · rw [filled, stored, Option.map_some, fill_of_full r full]

theorem reconcile_result (ids : List PlayUnitId) (w : TournamentState × List PlayUnitId) :
    (ids.foldl reconcileUnit w).1.result = w.1.result := by
  induction ids generalizing w with
  | nil => rfl
  | cons f ids ih => exact (ih _).trans (reconcileUnit_result w f)

theorem reconcile_sameUnits (ids : List PlayUnitId) (w : TournamentState × List PlayUnitId) :
    SameUnits w.1 (ids.foldl reconcileUnit w).1 := by
  induction ids generalizing w with
  | nil => exact .refl _
  | cons f ids ih => exact (reconcileUnit_sameUnits w f).trans (ih _)

theorem EventState.reconciled (draw : ImportedDraw ev d rows) (noSelf : ev.NoSelf)
    (h : EventState ev rows wres res [] w.1) {ids : List PlayUnitId} (nodup : ids.Nodup)
    (order : ∀ pre f post, ids = pre ++ f :: post → ∀ v ∈ rows.flatten, v.id = f →
      ∀ x ∈ v.dependencies, x ∈ pre) :
    ∃ res', EventState ev rows wres res' ids (ids.foldl reconcileUnit w).1 := by
  have full : ev.HistoricalRecords → ∀ u ∈ rows.flatten,
      (ids.foldl reconcileUnit w).1.playUnits.get u.id = some u ∧ wres u.id = none := by
    intro hist u hu
    exact ⟨reconcile_full (h.full hist u hu).1 (draw.full hist u hu), (h.full hist u hu).2⟩
  have given : ∀ mu ∈ ev.rounds.flatten, (ids.foldl reconcileUnit w).1.result mu.id =
      match mu.result with
      | some r => some r.toResult
      | none => wres mu.id := by
    rw [reconcile_result]
    exact h.given
  by_cases hist : ev.HistoricalRecords
  · exact ⟨res, fun live => absurd hist live, full, given⟩
  · obtain ⟨res', carried⟩ := (h.live hist).visits (draw.liveRows hist noSelf).wellFormed nodup
      order
    exact ⟨res', fun _ => carried, full, given⟩

end

/-! ## The events one after the other -/

@[simp] theorem storeResult_playUnits (s : TournamentState) (mu : ImportPlayUnitIn) :
    (storeResult s mu).playUnits = s.playUnits := by
  unfold storeResult
  split <;> rfl

@[simp] theorem foldl_storeResult_playUnits (l : List ImportPlayUnitIn) (s : TournamentState) :
    (l.foldl storeResult s).playUnits = s.playUnits := by
  induction l generalizing s with
  | nil => rfl
  | cons mu l ih => rw [List.foldl_cons, ih, storeResult_playUnits]

theorem storeResult_result (s : TournamentState) (mu : ImportPlayUnitIn) (id : PlayUnitId) :
    (storeResult s mu).result id =
      if mu.id = id then (mu.result.map ImportResultIn.toResult).or (s.result id)
      else s.result id := by
  unfold storeResult
  cases mu.result with
  | none => simp
  | some r => simp [TournamentState.result, Assoc.get_set]

theorem foldl_storeResult_result {l : List ImportPlayUnitIn}
    (nodup : (l.map ImportPlayUnitIn.id).Nodup) (s : TournamentState) :
    (∀ id, id ∉ l.map ImportPlayUnitIn.id → (l.foldl storeResult s).result id = s.result id) ∧
      ∀ mu ∈ l, (l.foldl storeResult s).result mu.id =
        match mu.result with
        | some r => some r.toResult
        | none => s.result mu.id := by
  induction l generalizing s with
  | nil => simp
  | cons mu l ih =>
    rw [List.map_cons, List.nodup_cons] at nodup
    obtain ⟨others, own⟩ := ih nodup.2 (storeResult s mu)
    rw [List.foldl_cons]
    refine ⟨fun id hid => ?_, fun mu' hmu' => ?_⟩
    · rw [List.map_cons, List.mem_cons, not_or] at hid
      rw [others id hid.2, storeResult_result, if_neg (Ne.symm hid.1)]
    · rcases List.mem_cons.mp hmu' with rfl | hmu'
      · rw [others _ nodup.1, storeResult_result, if_pos rfl]
        cases mu'.result <;> rfl
      · have apart : mu.id ≠ mu'.id := fun e => nodup.1 (e ▸ List.mem_map_of_mem hmu')
        rw [own mu' hmu', storeResult_result, if_neg apart]

/-- The loop over the events, as far as the draws go. -/
structure Drafted (evs : List ImportEventIn) (st : Parsing) : Prop where
  draws : ∀ d ∈ st.draws, ∃ ev ∈ evs, ∃ rows, ImportedDraw ev d rows
  events : ∀ ev ∈ evs, ∃ d ∈ st.draws, ∃ rows, ImportedDraw ev d rows

/-- The loop over the events, with the state. -/
structure PayloadLoaded (evs : List ImportEventIn) (st : Parsing) : Prop where
  known : Known st.state
  ids : st.state.playUnits.rows.map PlayUnit.id = (origin st.draws).map PlayUnit.id
  draws : ∀ d ∈ st.draws, ∃ ev ∈ evs, ∃ rows wres, ImportedDraw ev d rows ∧
    EventState ev rows wres wres [] st.state
  all : ∀ ev ∈ evs, ∃ d ∈ st.draws, ∃ rows wres, ImportedDraw ev d rows ∧
    EventState ev rows wres wres [] st.state

section

variable {evs : List ImportEventIn} {st st' : Parsing} {rosterIds : Option (List ParticipantId)}
  {l : List ImportEventIn}

theorem importEvent_eq_ok (h : importEvent rosterIds st ev = .ok st') :
    ∃ d s rows, ImportedDraw ev d rows ∧ ev.id ∉ eventIds st.draws ∧
      registerDraw st.state d = .ok s ∧ st'.draws = st.draws ++ [d] ∧
      st'.state = ev.rounds.flatten.foldl storeResult s := by
  simp only [importEvent, bind_eq_ok, reject_eq_ok, mapError_eq_ok] at h
  obtain ⟨-, new, d, built, -, -, participants, -, s, registered, h⟩ := h
  cases h
  obtain ⟨rows, draw⟩ := buildDrawFromImport_eq_ok built
  exact ⟨d, s, rows, draw, new, registered, rfl, rfl⟩

theorem Drafted.event (h : Drafted evs st) (done : importEvent rosterIds st ev = .ok st') :
    Drafted (evs ++ [ev]) st' := by
  obtain ⟨d, s, rows, draw, -, -, draws, -⟩ := importEvent_eq_ok done
  refine ⟨fun x hx => ?_, fun x hx => ?_⟩
  · rw [draws] at hx
    rcases List.mem_append.mp hx with hx | hx
    · obtain ⟨ev', hev, rest⟩ := h.draws x hx
      exact ⟨ev', List.mem_append_left _ hev, rest⟩
    · rw [List.mem_singleton.mp hx]
      exact ⟨ev, by simp, rows, draw⟩
  · rw [draws]
    rcases List.mem_append.mp hx with hx | hx
    · obtain ⟨d', hd', rest⟩ := h.events x hx
      exact ⟨d', List.mem_append_left _ hd', rest⟩
    · rw [List.mem_singleton.mp hx]
      exact ⟨d, by simp, rows, draw⟩

theorem PayloadLoaded.standsOn (h : PayloadLoaded evs st) : StandsOn st.draws st.state where
  ids := h.ids
  get := by
    intro d hd v hv
    obtain ⟨ev, -, rows, wres, draw, state⟩ := h.draws d hd
    exact state.get draw (draw.rows_playUnits ▸ hv)

/-- **One event.** -/
theorem PayloadLoaded.event (h : PayloadLoaded evs st) (noSelf : ev.NoSelf)
    (earlier : ∀ ev ∈ evs, ev.NoSelf) (done : importEvent rosterIds st ev = .ok st') : PayloadLoaded (evs ++ [ev]) st' := by
  obtain ⟨d, s, rows, draw, new, registered, draws, state⟩ := importEvent_eq_ok done
  have events : ∀ u ∈ st.state.playUnits.rows, u.eventId ≠ d.event.id := by
    intro u hu e
    exact new (draw.event_id ▸ e ▸ h.standsOn.events u hu)
  obtain ⟨results, own⟩ := foldl_storeResult_result draw.ids_nodup s
  obtain ⟨event, participants, hd, he⟩ := draw.draw
  have facts : Registered st.state s d ∧ ∃ wres, EventState ev rows wres wres [] st'.state := by
    by_cases hist : ev.HistoricalRecords
    · rw [hd] at registered events ⊢
      obtain ⟨reg, stands⟩ := registerDraw_full draw.built.unique (draw.full hist) h.known events
        registered
      refine ⟨reg, s.result, fun live => absurd hist live, fun _ u hu => ?_, ?_⟩
      · rw [state, foldl_storeResult_playUnits]
        exact stands u hu
      · rw [state]
        exact own
    · rw [hd] at registered events ⊢
      obtain ⟨reg, walked, ready⟩ := registerDraw_walkedOver (draw.liveRows hist noSelf) he
        h.known (fun u hu => he ▸ events u hu) registered
      refine ⟨reg, s.result, fun _ => ?_, fun live => absurd live hist, ?_⟩
      · rw [state, foldl_storeResult_playUnits]
        exact walked.carried ready
      · rw [state]
        exact own
  obtain ⟨reg, wres, current⟩ := facts
  have ids : ∀ mu ∈ ev.rounds.flatten, ∃ u ∈ rows.flatten, u.id = mu.id := by
    intro mu hmu
    obtain ⟨r, m, hat⟩ := mem_flatten_iff_at.mp hmu
    obtain ⟨u, hu, imported⟩ := draw.onto r m mu hat
    exact ⟨u, hu.mem, imported.id⟩
  have kept : ∀ {ev' d' rows' wres'}, ev' ∈ evs → d' ∈ st.draws → ImportedDraw ev' d' rows' →
      EventState ev' rows' wres' wres' [] st.state →
      EventState ev' rows' wres' wres' [] st'.state := by
    intro ev' d' rows' wres' hev hd' draw' state'
    refine state'.congr draw' (earlier ev' hev) fun u hu => ?_
    have has : st.state.playUnits.Has u.id := by
      rw [Table.Has, h.ids]
      exact List.mem_map_of_mem (List.mem_flatMap.mpr ⟨d', hd', draw'.rows_playUnits ▸ hu⟩)
    refine (reg.others u.id has).trans ⟨by rw [state, foldl_storeResult_playUnits], ?_⟩
    rw [state, results]
    intro mine
    obtain ⟨mu, hmu, e⟩ := List.mem_map.mp mine
    obtain ⟨v, hv, e'⟩ := ids mu hmu
    exact reg.new v (draw.rows_playUnits ▸ hv) (e'.trans e ▸ has)
  refine ⟨?_, ?_, ?_, ?_⟩
  · intro id resulted
    rw [Table.Has, state, foldl_storeResult_playUnits]
    by_cases mine : id ∈ ev.rounds.flatten.map ImportPlayUnitIn.id
    · obtain ⟨mu, hmu, rfl⟩ := List.mem_map.mp mine
      obtain ⟨u, hu, e⟩ := ids mu hmu
      rw [reg.ids, ← e, draw.rows_playUnits]
      exact List.mem_append_right _ (List.mem_map_of_mem hu)
    · rw [TournamentState.Resulted, state, results id mine] at resulted
      exact reg.known id resulted
  · rw [state, foldl_storeResult_playUnits, reg.ids, h.ids, draws]
    simp [origin]
  · intro x hx
    rw [draws] at hx
    rcases List.mem_append.mp hx with hx | hx
    · obtain ⟨ev', hev, rows', wres', draw', state'⟩ := h.draws x hx
      exact ⟨ev', List.mem_append_left _ hev, rows', wres', draw', kept hev hx draw' state'⟩
    · rw [List.mem_singleton.mp hx]
      exact ⟨ev, by simp, rows, wres, draw, current⟩
  · intro x hx
    rw [draws]
    rcases List.mem_append.mp hx with hx | hx
    · obtain ⟨d', hd', rows', wres', draw', state'⟩ := h.all x hx
      exact ⟨d', List.mem_append_left _ hd', rows', wres', draw', kept hx hd' draw' state'⟩
    · rw [List.mem_singleton.mp hx]
      exact ⟨d, by simp, rows, wres, draw, current⟩

theorem foldlM_importEvent (h : l.foldlM (importEvent rosterIds) st = .ok st')
    (drafted : Drafted evs st) : Drafted (evs ++ l) st' := by
  induction l generalizing st evs with
  | nil =>
    cases h
    simpa using drafted
  | cons ev l ih =>
    rw [List.foldlM_cons, bind_eq_ok] at h
    obtain ⟨st₁, first, h⟩ := h
    simpa using ih h (drafted.event first)

theorem foldlM_importEvent_loaded (h : l.foldlM (importEvent rosterIds) st = .ok st')
    (loaded : PayloadLoaded evs st) (noSelf : ∀ ev ∈ evs ++ l, ev.NoSelf) :
    PayloadLoaded (evs ++ l) st' := by
  induction l generalizing st evs with
  | nil =>
    cases h
    simpa using loaded
  | cons ev l ih =>
    rw [List.foldlM_cons, bind_eq_ok] at h
    obtain ⟨st₁, first, h⟩ := h
    have next := loaded.event (noSelf ev (by simp))
      (fun ev hev => noSelf ev (List.mem_append_left _ hev)) first
    simpa using ih h next (by simpa using noSelf)

end

/-! ## The session -/

theorem importAssignment_eq_ok {body : ImportTournamentIn} {s s' : TournamentState}
    {a : BracketAssignmentIn} (h : importAssignment body s a = .ok s') :
    s'.playUnits = s.playUnits ∧ s'.results = s.results := by
  simp only [importAssignment, bind_eq_ok, reject_eq_ok] at h
  obtain ⟨-, -, -, -, -, -, -, -, h⟩ := h
  cases h
  exact ⟨rfl, rfl⟩

theorem parseJsonPayload_eq_ok {body : ImportTournamentIn} {session : BracketSession}
    (h : parseJsonPayload body = .ok session) :
    ∃ st, body.events.foldlM (importEvent body.roster) {} = .ok st ∧ session.draws = st.draws ∧
      session.state.playUnits =
        (reconcileRecordedResults st.state (st.draws.map Draw.rounds)).1.playUnits ∧
      session.state.results =
        (reconcileRecordedResults st.state (st.draws.map Draw.rounds)).1.results := by
  simp only [parseJsonPayload, bind_eq_ok, reject_eq_ok] at h
  obtain ⟨-, -, -, -, st, loaded, s, assigned, h⟩ := h
  cases h
  obtain ⟨units, results⟩ := foldlM_keeps (I := fun s => s.playUnits =
      (reconcileRecordedResults st.state (st.draws.map Draw.rounds)).1.playUnits ∧ s.results =
      (reconcileRecordedResults st.state (st.draws.map Draw.rounds)).1.results)
    (fun s a s' hs h => by
      obtain ⟨units, results⟩ := importAssignment_eq_ok h
      exact ⟨units.trans hs.1, results.trans hs.2⟩) ⟨rfl, rfl⟩ assigned
  exact ⟨st, loaded, rfl, units, results⟩

theorem Drafted.start : Drafted [] {} := ⟨by simp, by simp⟩

theorem PayloadLoaded.start : PayloadLoaded [] {} :=
  ⟨fun _ h => absurd h (by simp [TournamentState.Resulted, TournamentState.result]), rfl, by simp,
    by simp⟩

/-- **The draws of a session are those of its events.** -/
theorem parseJsonPayload_drafted {body : ImportTournamentIn} {session : BracketSession}
    (h : parseJsonPayload body = .ok session) :
    (∀ d ∈ session.draws, ∃ ev ∈ body.events, ∃ rows, ImportedDraw ev d rows) ∧
      ∀ ev ∈ body.events, ∃ d ∈ session.draws, ∃ rows, ImportedDraw ev d rows := by
  obtain ⟨st, loaded, draws, -, -⟩ := parseJsonPayload_eq_ok h
  obtain ⟨each, all⟩ := foldlM_importEvent loaded Drafted.start
  rw [draws]
  exact ⟨each, all⟩

/-- What an imported session is: a state over the units of its draws, in which every event has
been carried forward. -/
structure ImportedSession (evs : List ImportEventIn) (session : BracketSession) : Prop where
  ids : session.state.playUnits.rows.map PlayUnit.id = (origin session.draws).map PlayUnit.id
  ordered : Ordered PlayUnit.id PlayUnit.dependencies [] (origin session.draws)
  draws : ∀ d ∈ session.draws, ∃ ev ∈ evs, ∃ rows wres res, ImportedDraw ev d rows ∧
    EventState ev rows wres res ((origin session.draws).map PlayUnit.id) session.state
  all : ∀ ev ∈ evs, ∃ d ∈ session.draws, ∃ rows wres res, ImportedDraw ev d rows ∧
    EventState ev rows wres res ((origin session.draws).map PlayUnit.id) session.state

theorem rounds_flatten (each : ∀ d ∈ ds, d.rounds.flatten = d.playUnits.rows.map PlayUnit.id) :
    (ds.map Draw.rounds).flatten.flatten = (origin ds).map PlayUnit.id := by
  induction ds with
  | nil => rfl
  | cons d ds ih =>
    rw [List.map_cons, List.flatten_cons, List.flatten_append, each d List.mem_cons_self,
      ih fun d hd => each d (List.mem_cons_of_mem _ hd)]
    simp [origin]

theorem ordered_units
    (each : ∀ d ∈ ds, Ordered PlayUnit.id PlayUnit.dependencies [] d.playUnits.rows) :
    Ordered PlayUnit.id PlayUnit.dependencies [] (origin ds) := by
  induction ds with
  | nil => trivial
  | cons d ds ih =>
    have rest := ih fun d hd => each d (List.mem_cons_of_mem _ hd)
    refine Ordered.append (each d List.mem_cons_self) (rest.mono ?_)
    exact fun _ hk => absurd hk List.not_mem_nil

/-- **Importing.** -/
theorem parseJsonPayload_imported {body : ImportTournamentIn} {session : BracketSession}
    (noSelf : ∀ ev ∈ body.events, ev.NoSelf) (h : parseJsonPayload body = .ok session) :
    ImportedSession body.events session := by
  obtain ⟨st, loaded, draws, units, results⟩ := parseJsonPayload_eq_ok h
  have load := foldlM_importEvent_loaded loaded PayloadLoaded.start (by simpa using noSelf)
  rw [List.nil_append] at load
  set ids := (origin st.draws).map PlayUnit.id with hids
  have rounds : (st.draws.map Draw.rounds).flatten.flatten = ids := by
    apply rounds_flatten
    intro d hd
    obtain ⟨ev, -, rows, wres, draw, -⟩ := load.draws d hd
    rw [draw.rounds_eq, draw.rows_playUnits, List.map_flatten]
  rw [reconcileRecordedResults_eq, rounds] at units results
  have nodup : ids.Nodup := by
    rw [hids, ← load.ids]
    exact st.state.playUnits.unique
  have ordered : Ordered PlayUnit.id PlayUnit.dependencies [] (origin st.draws) := by
    apply ordered_units
    intro d hd
    obtain ⟨ev, hev, rows, wres, draw, -⟩ := load.draws d hd
    rw [draw.rows_playUnits]
    exact draw.ordered (noSelf ev hev)
  have order : ∀ pre f post, ids = pre ++ f :: post → ∀ v ∈ origin st.draws, v.id = f →
      ∀ x ∈ v.dependencies, x ∈ pre := by
    intro pre f post split v hv e x hx
    exact (ordered.before nodup split hv e hx).resolve_left List.not_mem_nil
  have same := (reconcile_sameUnits ids (st.state, [])).1
  have final : ∀ {ev d rows wres}, ev ∈ body.events → d ∈ st.draws → ImportedDraw ev d rows →
      EventState ev rows wres wres [] st.state →
      ∃ res, EventState ev rows wres res ids session.state := by
    intro ev d rows wres hev hd draw state
    obtain ⟨res, final⟩ := state.reconciled draw (noSelf ev hev) (w := (st.state, [])) nodup
      fun pre f post split v hv => order pre f post split v
        (List.mem_flatMap.mpr ⟨d, hd, draw.rows_playUnits ▸ hv⟩)
    refine ⟨res, final.congr draw (noSelf ev hev) fun u _ => ⟨?_, ?_⟩⟩
    · rw [units]
    · simp [TournamentState.result, results]
  refine ⟨?_, by rw [draws]; exact ordered, ?_, ?_⟩
  · rw [units, same, draws]
    exact load.ids
  · rw [draws]
    intro d hd
    obtain ⟨ev, hev, rows, wres, draw, state⟩ := load.draws d hd
    obtain ⟨res, state⟩ := final hev hd draw state
    exact ⟨ev, hev, rows, wres, res, draw, state⟩
  · rw [draws]
    intro ev hev
    obtain ⟨d, hd, rows, wres, draw, state⟩ := load.all ev hev
    obtain ⟨res, state⟩ := final hev hd draw state
    exact ⟨d, hd, rows, wres, res, draw, state⟩

end Brackets
