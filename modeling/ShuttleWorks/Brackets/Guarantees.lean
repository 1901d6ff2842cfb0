import ShuttleWorks.Brackets.Formats.Registry
import ShuttleWorks.Brackets.Reopening
import ShuttleWorks.Brackets.Seating

/-! What holds of every generated draw: where its outcomes go, that the order of
recording does not matter, and that reloading rebuilds the state. -/

namespace Brackets
open Lib

def IsGenerated (d : Draw) : Prop :=
  ∃ formatId participants eventId options, generateDraw formatId participants eventId options = .ok d

variable {d : Draw} {ds : List Draw} {s : TournamentState}

theorem IsGenerated.drawn (h : IsGenerated d) : Drawn d := by
  obtain ⟨formatId, participants, eventId, options, h⟩ := h
  exact (generateDraw_ok h).drawn.1

def quartet : List Participant :=
  [{ id := "ann", name := "Ann" }, { id := "bea", name := "Bea" }, { id := "cem", name := "Cem" },
    { id := "dan", name := "Dan" }]

def quartetDraw : Draw :=
  match generateDraw "se" quartet "MS" {} with
  | .ok d => d
  | .error _ => plainDraw { id := "MS" } [] []

theorem quartetDraw_eq : generateDraw "se" quartet "MS" {} = .ok quartetDraw := rfl

theorem quartetDraw_generated : ∀ d ∈ [quartetDraw], IsGenerated d := by
  intro d hd
  rw [List.mem_singleton.mp hd]
  exact ⟨_, _, _, _, quartetDraw_eq⟩

def semifinals : List (PlayUnitId × Result) :=
  [("MS-R0-0", { winnerSide := .A }), ("MS-R0-1", { winnerSide := .A, reason := some "retired" })]

def quartetRegistered : TournamentState := (registerDraws [quartetDraw]).toOption.getD {}

theorem quartet_registered : registerDraws [quartetDraw] = .ok quartetRegistered := rfl

def semifinalsPlayed : TournamentState := (replay ["MS"] quartetRegistered semifinals).getD {}

theorem semifinals_replayed :
    replay ["MS"] quartetRegistered semifinals = some semifinalsPlayed := rfl

theorem semifinals_reached : SessionReached [quartetDraw] semifinalsPlayed :=
  Reachable.run (.init quartet_registered) (replay_eq_some.mp semifinals_replayed)

/-! ## Outcomes and seats -/

/-- Nobody sits on both sides of a unit of the draw, or on sides of two units without a result. -/
structure SeatedOnce (d : Draw) (s : TournamentState) : Prop where
  both : ∀ u ∈ s.playUnits.rows, d.playUnits.Has u.id → ∀ x ∈ u.sideA, x ∉ u.sideB
  pending : ∀ u ∈ s.playUnits.rows, d.playUnits.Has u.id → ∀ v ∈ s.playUnits.rows,
    d.playUnits.Has v.id → ¬ s.Resulted u.id → ¬ s.Resulted v.id →
      ∀ i j x, x ∈ u.side i → x ∈ v.side j → u = v ∧ i = j

theorem Session.seatedOnce {allowed : PlayUnitId → Result → Prop} (hs : Session ds allowed s)
    (hd : d ∈ ds) (drawn : Drawn d) {participants : List Participant}
    (routed : Routed participants d.playUnits.rows)
    (distinct : (participants.map Participant.id).Nodup) : SeatedOnce d s := by
  have sub : ∀ u ∈ d.playUnits.rows, u ∈ origin ds := fun u hu => List.mem_flatMap.mpr ⟨d, hd, hu⟩
  have closed : ∀ u ∈ d.playUnits.rows, ∀ v ∈ origin ds, v.id ∈ u.dependencies →
      v ∈ d.playUnits.rows := by
    intro u hu v hv hdep
    obtain ⟨w, hw, e⟩ := drawn.units.closed hu hdep
    exact hs.wf.eq_of_id_eq (sub w hw) hv e ▸ hw
  have apart := hs.sound.consistent.apart hs.wf sub closed routed distinct
  have back : ∀ u ∈ s.playUnits.rows, d.playUnits.Has u.id → ∃ u₀ ∈ d.playUnits.rows,
      u₀.id = u.id ∧ u = settleUnit s.playUnits s.result u₀ := by
    intro u hu has
    obtain ⟨u₀, hu₀, e, settled⟩ := hs.sound.consistent.of_mem hu
    obtain ⟨w, hw, e'⟩ := Table.has_iff.mp has
    exact ⟨u₀, hs.wf.eq_of_id_eq (sub w hw) hu₀ (e'.trans e.symm) ▸ hw, e, settled⟩
  constructor
  · intro u hu has x hx
    obtain ⟨u₀, hu₀, -, rfl⟩ := back u hu has
    exact apart.both u₀ hu₀ x hx
  · intro u hu has v hv has' nu nv i j x hx hy
    obtain ⟨u₀, hu₀, eu, rfl⟩ := back u hu has
    obtain ⟨v₀, hv₀, ev, rfl⟩ := back v hv has'
    have none : ∀ {id}, ¬ s.Resulted id → s.result id = none := fun h => by
      simpa [TournamentState.Resulted] using h
    obtain ⟨rfl, rfl⟩ := apart.pending u₀ hu₀ v₀ hv₀ (none nu) (none nv) i j x hx hy
    exact ⟨rfl, rfl⟩

/-- **Outcomes lead to one slot and participants sit once.** In a generated single or double
elimination, Monrad or compass draw every outcome feeds one slot at most, units depend on exactly
what feeds them, and every unit is in one wave, later than all it depends on; in every state of a
session with the draw nobody sits twice. -/
theorem knockouts_route {formatId : String} (hf : formatId ∈ ["se", "de", "monrad", "compass"])
    {participants : List Participant} {eventId : EventId} {options : DrawOptions} {d : Draw}
    (h : generateDraw formatId participants eventId options = .ok d) :
    FedOnce d.playUnits.rows ∧ (∀ u ∈ d.playUnits.rows, u.DependsOnFeeders) ∧
    (∀ u ∈ d.playUnits.rows, d.rounds.flatten.count u.id = 1 ∧
      ∀ n, d.InRound n u.id → ∀ x ∈ u.dependencies, ∃ m < n, d.InRound m x) ∧
    ((participants.map Participant.id).Nodup → ∀ ds, d ∈ ds → (∀ d ∈ ds, IsGenerated d) →
      ∀ s, SessionReached ds s → SeatedOnce d s) := by
  have generated := generateDraw_ok h
  obtain ⟨drawn, -⟩ := generated.drawn
  have routed := generated.routed hf
  refine ⟨routed.once, routed.feeders, fun u hu => ⟨?_, drawn.earlier u hu⟩, ?_⟩
  · rw [drawn.rounds.count_eq]
    exact List.count_eq_one_of_mem drawn.units.unique (List.mem_map_of_mem hu)
  · intro distinct ds hd all s hs
    exact (hs.session (fun d hd => (all d hd).drawn)).seatedOnce hd drawn routed distinct

theorem knockouts_route_quartet : "se" ∈ ["se", "de", "monrad", "compass"] ∧
    FedOnce quartetDraw.playUnits.rows ∧ (∀ u ∈ quartetDraw.playUnits.rows, u.DependsOnFeeders ∧
      quartetDraw.rounds.flatten.count u.id = 1) ∧ SeatedOnce quartetDraw semifinalsPlayed := by
  obtain ⟨once, feeders, waves, seated⟩ := knockouts_route (by decide) quartetDraw_eq
  exact ⟨by decide, once, fun u hu => ⟨feeders u hu, (waves u hu).1⟩, seated (by decide) _
    (List.mem_singleton_self _) quartetDraw_generated _ semifinals_reached⟩

/-! ## The order of recording -/

/-- **The order of recording does not matter, and recording ends.** Two runs over generated draws
that record the same outcomes, each on a unit that can be played then, end in the same slots,
sides and results; every sweep ends, and every call on a unit that can be played succeeds. -/
theorem recording_confluent (hd : ∀ d ∈ ds, IsGenerated d) {s₀ s₁ s₂ : TournamentState}
    (h₀ : registerDraws ds = .ok s₀) {calls₁ calls₂ : List (PlayUnitId × Result)}
    (r₁ : Run (RecordStep (eventIds ds)) s₀ calls₁ s₁)
    (r₂ : Run (RecordStep (eventIds ds)) s₀ calls₂ s₂) (same : calls₁.Perm calls₂) :
    (s₁.playUnits = s₂.playUnits ∧ s₁.result = s₂.result) ∧
      (∀ s draws, ∃ out, sweepWalkovers draws (s.playUnits.rows.length + 1) s = some out) ∧
      ∀ unit r, Playable s₁ unit → ∃ out, recordResult s₁ (eventIds ds) unit.id r = .ok out := by
  have drawn : ∀ d ∈ ds, Drawn d := fun d h => (hd d h).drawn
  refine ⟨confluent drawn h₀ r₁ r₂ same, fun s draws => ?_, fun unit r hp => ?_⟩
  · have := pending_le s
    exact sweepWalkovers_ends draws (by omega)
  · have reached : SessionReached ds s₁ := Reachable.run (.init h₀) r₁
    have sess := reached.session drawn
    obtain ⟨u, hu, e, settled⟩ := sess.sound.consistent.of_get hp.stored
    have draw : unit.eventId ∈ eventIds ds := by
      rw [settled]
      exact sess.events u hu
    obtain ⟨s', affected, ok, -⟩ := recordResult_ok (hp.recordable draw r)
    exact ⟨_, ok⟩

theorem recording_confluent_semifinals :
    ∃ s₀ s₁ s₂, registerDraws [quartetDraw] = .ok s₀ ∧ replay ["MS"] s₀ semifinals = some s₁ ∧
      replay ["MS"] s₀ semifinals.reverse = some s₂ ∧ s₁.playUnits = s₂.playUnits := by
  obtain ⟨s₂, r₂⟩ : ∃ s, replay ["MS"] quartetRegistered semifinals.reverse = some s := ⟨_, rfl⟩
  exact ⟨_, _, s₂, quartet_registered, semifinals_replayed, r₂,
    (recording_confluent quartetDraw_generated quartet_registered
      (replay_eq_some.mp semifinals_replayed) (replay_eq_some.mp r₂)
      (List.reverse_perm _).symm).1.1⟩

/-! ## Reloading -/

/-- **Reconciliation agrees with propagation.** In every state of a session over generated draws
it changes nothing, and from the draws as generated with the state's results alone it rebuilds the
state's slots and sides. -/
theorem reconcile_rebuilds (hd : ∀ d ∈ ds, IsGenerated d) (h : SessionReached ds s) :
    reconcileRecordedResults s (ds.map Draw.rounds) = (s, []) ∧
      ∀ fresh : PlayUnits, fresh.rows = origin ds →
        (reconcileRecordedResults { playUnits := fresh, results := s.results }
          (ds.map Draw.rounds)).1.playUnits = s.playUnits := by
  have drawn : ∀ d ∈ ds, Drawn d := fun d h => (hd d h).drawn
  exact (h.session drawn).reconcile drawn

theorem reconcile_rebuilds_semifinals :
    quartetDraw.playUnits.get "MS-R1-0" ≠ semifinalsPlayed.playUnits.get "MS-R1-0" ∧
      reconcileRecordedResults semifinalsPlayed [quartetDraw.rounds] = (semifinalsPlayed, []) ∧
      (reconcileRecordedResults
        { playUnits := quartetDraw.playUnits, results := semifinalsPlayed.results }
        [quartetDraw.rounds]).1.playUnits = semifinalsPlayed.playUnits := by
  obtain ⟨settled, rebuilt⟩ := reconcile_rebuilds quartetDraw_generated semifinals_reached
  exact ⟨by decide, settled, rebuilt quartetDraw.playUnits rfl⟩

/-! ## Storing -/

/-- A result is recorded, and what recording it affected is written. -/
inductive WriteStep (draws : List EventId) :
    TournamentState × BracketStore → PlayUnitId × Result → TournamentState × BracketStore → Prop
  | record {s s' : TournamentState} {store store' : BracketStore} {unit : PlayUnit} {r : Result}
    {affected : List PlayUnitId} :
    Playable s unit → recordResult s draws unit.id r = .ok (s', affected) →
    persistResultAdvancement store s' draws unit.id affected = .ok store' →
    WriteStep draws (s, store) (unit.id, r) (s', store')

/-- The sessions and the tables kept beside them, from their creation on. -/
def Kept (ds : List (Draw × EventMeta)) : TournamentState × BracketStore → Prop :=
  Reachable (fun w => registerDraws (ds.map Prod.fst) = .ok w.1 ∧ persistDraws ds w.1 = .ok w.2)
    (WriteStep (eventIds (ds.map Prod.fst)))

theorem Kept.holds {ds : List (Draw × EventMeta)} (drawn : ∀ d ∈ ds.map Prod.fst, Drawn d)
    (distinct : (eventIds (ds.map Prod.fst)).Nodup) {w : TournamentState × BracketStore}
    (h : Kept ds w) :
    Session (ds.map Prod.fst) (fun _ _ => True) w.1 ∧ Holds (ds.map Prod.fst) w.1 w.2 [] := by
  refine h.invariant (I := fun w => Session (ds.map Prod.fst) (fun _ _ => True) w.1 ∧
    Holds (ds.map Prod.fst) w.1 w.2 []) ?_ ?_
  · rintro ⟨s, store⟩ ⟨registered, persisted⟩
    have hs : Session (ds.map Prod.fst) (fun _ _ => True) s := registerDraws_session drawn registered
    obtain ⟨store', h', held⟩ := persistDraws_ok hs drawn (registerDraws_keyed drawn registered)
      distinct
    obtain rfl : store' = store := Except.ok.inj (h'.symm.trans persisted)
    exact ⟨hs, held⟩
  · rintro _ _ _ - ⟨hs, held⟩ ⟨hp, recorded, written⟩
    have step := recorded_of_ok hp recorded
    obtain ⟨store', h', held'⟩ := persistResultAdvancement_ok held hs drawn hp trivial step
    obtain rfl := Except.ok.inj (h'.symm.trans written)
    exact ⟨hs.recorded hp trivial step, held'⟩

/-- **What is written is enough.** The tables of a bracket over generated draws can be created,
each recorded result can be written into them by its own unit and the units it affected, and
reading them back at any time gives the slots, the sides and the results of the session. -/
theorem kept_hydrates {ds : List (Draw × EventMeta)} (hd : ∀ p ∈ ds, IsGenerated p.1)
    (distinct : (eventIds (ds.map Prod.fst)).Nodup) (some : ds ≠ [])
    (participants : EventId → Participants) :
    (∀ s, registerDraws (ds.map Prod.fst) = .ok s → ∃ store, persistDraws ds s = .ok store) ∧
    ∀ w, Kept ds w →
      (∃ draws t, hydrateSession w.2 participants = .ok (Option.some (draws, t)) ∧
        ∀ id, t.playUnits.get id = w.1.playUnits.get id ∧ t.result id = w.1.result id) ∧
      ∀ unit r s' affected, Playable w.1 unit →
        recordResult w.1 (eventIds (ds.map Prod.fst)) unit.id r = .ok (s', affected) →
        ∃ store', persistResultAdvancement w.2 s' (eventIds (ds.map Prod.fst)) unit.id affected =
          .ok store' := by
  have drawn : ∀ d ∈ ds.map Prod.fst, Drawn d := by
    intro d hmem
    obtain ⟨p, hp, rfl⟩ := List.mem_map.mp hmem
    exact (hd p hp).drawn
  refine ⟨?_, ?_⟩
  · intro s registered
    have hs : Session (ds.map Prod.fst) (fun _ _ => True) s := registerDraws_session drawn registered
    obtain ⟨store, h, -⟩ := persistDraws_ok hs drawn (registerDraws_keyed drawn registered) distinct
    exact ⟨store, h⟩
  · intro w kept
    obtain ⟨hs, held⟩ := kept.holds drawn distinct
    refine ⟨hydrateSession_ok held hs drawn distinct (by simpa using some) participants, ?_⟩
    intro unit r s' affected hp recorded
    obtain ⟨store', h, -⟩ := persistResultAdvancement_ok held hs drawn hp trivial
      (recorded_of_ok hp recorded)
    exact ⟨store', h⟩

theorem kept_hydrates_quartet : ∃ store s affected store',
    persistDraws [(quartetDraw, { format := "se" })] quartetRegistered = .ok store ∧
    recordResult quartetRegistered ["MS"] "MS-R0-0" { winnerSide := .A } = .ok (s, affected) ∧
    persistResultAdvancement store s ["MS"] "MS-R0-0" affected = .ok store' ∧
    ∃ draws t, hydrateSession store' (fun _ => Table.empty) = .ok (some (draws, t)) ∧
      t.playUnits.get "MS-R1-0" = s.playUnits.get "MS-R1-0" ∧
      t.result "MS-R0-0" = s.result "MS-R0-0" := by
  obtain ⟨creates, keeps⟩ := @kept_hydrates [(quartetDraw, { format := "se" })]
    (fun p hp => quartetDraw_generated p.1 (by
      rw [List.mem_singleton.mp hp]
      exact List.mem_singleton_self _)) (by decide) (by simp) (fun _ => Table.empty)
  obtain ⟨store, created⟩ := creates quartetRegistered quartet_registered
  obtain ⟨unit, named, playable⟩ : ∃ unit,
      quartetRegistered.playUnits.get "MS-R0-0" = some unit ∧ Playable quartetRegistered unit :=
    ⟨_, rfl, by decide⟩
  have key : unit.id = "MS-R0-0" := Table.key_of_get named
  obtain ⟨⟨s, affected⟩, recorded⟩ :
      ∃ out, recordResult quartetRegistered ["MS"] "MS-R0-0" { winnerSide := .A } = .ok out :=
    ⟨_, rfl⟩
  have start : Kept [(quartetDraw, { format := "se" })] (quartetRegistered, store) :=
    .init ⟨quartet_registered, created⟩
  rw [← key] at recorded
  obtain ⟨store', written⟩ := (keeps _ start).2 unit _ s affected playable recorded
  obtain ⟨⟨draws, t, read, same⟩, -⟩ := keeps _ (.step start (.record playable recorded written))
  rw [key] at recorded written
  exact ⟨store, s, affected, store', created, recorded, written, draws, t, read,
    (same "MS-R1-0").1, (same "MS-R0-0").2⟩

/-- **A stored draw comes back.** Written with its units as they were generated and read back, a
generated draw has the same units, the same segments and the same waves in their order, but for
waves that hold no unit. -/
theorem stored_draw_returns {formatId : String} {participants : List Participant}
    {eventId : EventId} {options : DrawOptions} {d : Draw}
    (h : generateDraw formatId participants eventId options = .ok d) (info : EventMeta)
    (format : info.format = formatId) (shown : ∀ u ∈ d.playUnits.rows, s.playUnits.get u.id = some u)
    {store : BracketStore} (new : ¬ store.events.Has eventId)
    (none : store.listMatches eventId = []) (entrants : Participants) (t : TournamentState) :
    ∃ store' row d' t', persistEvent store d info s = .ok store' ∧
      store'.events.get eventId = some row ∧
      hydrateDraw row entrants (store'.listMatches eventId) t = .ok (d', t') ∧
      d'.event.id = d.event.id ∧ (∀ id, d'.playUnits.get id = d.playUnits.get id) ∧
      d'.rounds = (d.rounds.filter fun round => round ≠ []) ∧ d'.segments = d.segments := by
  have generated := generateDraw_ok h
  obtain ⟨drawn, event⟩ := generated.drawn
  have all : ∀ u ∈ d.playUnits.rows, u.id ∈ d.rounds.flatten := fun u hu =>
    drawn.rounds.mem_iff.mpr (List.mem_map_of_mem hu)
  subst event
  obtain ⟨store', written, events, rendered, -, -⟩ := persistEvent_ok (s := s) (d := d) info new none
    (drawn.rounds.nodup_iff.mpr drawn.units.unique) (by
      intro id hid
      obtain ⟨u, hu, rfl⟩ := List.mem_map.mp (drawn.rounds.mem_iff.mp hid)
      exact ⟨u, shown u hu, drawn.event u hu⟩)
  -- the rows show the draw's own units
  have own : Rendered d.event.id d.rounds d.playUnits (store'.listMatches d.event.id) := by
    refine ⟨rendered.unique, ?_, rendered.place⟩
    intro x hx
    obtain ⟨u, hu, he, same⟩ := rendered.unit x hx
    have place : x.id ∈ d.rounds.flatten :=
      ((rendered.place x.roundIndex x.matchIndex x.id).mpr ⟨x, hx, rfl, rfl, rfl⟩).mem
    obtain ⟨v, hv, e⟩ := List.mem_map.mp (drawn.rounds.mem_iff.mp place)
    have : u = v := by
      rw [← e, shown v hv] at hu
      exact (Option.some.inj hu).symm
    subst this
    exact ⟨u, Table.get_eq_some_iff.mpr ⟨hv, e⟩, he, same⟩
  obtain ⟨row, hrow, e, named⟩ : ∃ row ∈ store'.events.rows, row.id = d.event.id ∧
      row.format = info.format := by
    have mem : (d.event.id, info.format) ∈
        store'.events.rows.map (fun row => (row.id, row.format)) := by simp [events]
    obtain ⟨row, hrow, e⟩ := List.mem_map.mp mem
    exact ⟨row, hrow, congrArg Prod.fst e, congrArg Prod.snd e⟩
  obtain ⟨us, hus, ids, stored⟩ := own.units_ok
  have segments : segmentsFromMatchMeta row.format (store'.listMatches d.event.id) = d.segments := by
    rw [named, format]
    cases generated with
    | plain event rows he rounds routed =>
      refine own.segments_none formatId (fun u hu => ?_)
      rw [rounds.rows_playUnits] at hu
      obtain ⟨r, m, hu⟩ := mem_flatten_iff_at.mp hu
      exact rounds.segment r m u hu
    | segments _ event built he layout routed assembled =>
      obtain ⟨d'', ha, -, -, rows, segs, -, -⟩ := layout.assemble_ok he participants
      obtain rfl : d'' = d := Except.ok.inj (ha.symm.trans assembled)
      rw [segs]
      have segmented := layout.segmented
      rw [← rows] at segmented
      exact (own.named segmented all).segments_eq segmented
  have read : hydrateDraw row entrants (store'.listMatches d.event.id) t = .ok ({
        event := { id := row.id, formatPluginName := row.format, parameters := row.config }
        participants := entrants
        playUnits := Table.ofRows us
        rounds := regroup ((store'.listMatches d.event.id).map fun row =>
          (row.roundIndex, row.matchIndex, row.id))
        segments := segmentsFromMatchMeta row.format (store'.listMatches d.event.id) },
      { t with playUnits := us.foldl Table.put t.playUnits }) := by
    rw [hydrateDraw, e, hus]
    rfl
  refine ⟨store', row, _, _, written, Table.get_eq_some_iff.mpr ⟨hrow, e⟩, read, e, ?_,
    own.regroup_rounds, segments⟩
  · intro id
    show (us.foldl Table.put Table.empty : PlayUnits).get id = _
    rw [Table.get_foldl_put stored]
    split
    · rfl
    · next absent =>
      rw [Table.get_empty, eq_comm, Table.get_eq_none_iff]
      intro has
      obtain ⟨u, hu, rfl⟩ := Table.has_iff.mp has
      obtain ⟨r, m, place⟩ := mem_flatten_iff_at.mp (all u hu)
      obtain ⟨x, hx, -, -, e'⟩ := (own.place r m u.id).mp place
      exact absent (ids ▸ e' ▸ List.mem_map_of_mem hx)

theorem stored_draw_returns_quartet : ∃ store' row d' t',
    persistEvent {} quartetDraw { format := "se" } { playUnits := quartetDraw.playUnits } =
      .ok store' ∧
    store'.events.get "MS" = some row ∧
    hydrateDraw row Table.empty (store'.listMatches "MS") {} = .ok (d', t') ∧
    d'.rounds = [["MS-R0-0", "MS-R0-1"], ["MS-R1-0"]] := by
  obtain ⟨store', row, d', t', written, hrow, read, -, -, rounds, -⟩ :=
    stored_draw_returns quartetDraw_eq { format := "se" } rfl
      (s := { playUnits := quartetDraw.playUnits }) (by decide)
      (show ¬ (BracketStore.events {}).Has "MS" from by decide) rfl
      Table.empty {}
  exact ⟨store', row, d', t', written, hrow, read, rounds.trans (by decide)⟩

/-- Two entrants one of whom has the id of the bye: the one round is drawn without a match, and it
does not come back. -/
theorem empty_wave_lost : ∃ d store' row d' t',
    generateDraw "rr" [{ id := "ann", name := "Ann" }, { id := BYE, name := "Bye" }] "MS" {} = .ok d ∧
    persistEvent {} d { format := "rr" } { playUnits := d.playUnits } = .ok store' ∧
    store'.events.get "MS" = some row ∧
    hydrateDraw row Table.empty (store'.listMatches "MS") {} = .ok (d', t') ∧
    d.rounds = [[]] ∧ d'.rounds = [] :=
  ⟨_, _, _, _, _, rfl, rfl, rfl, rfl, rfl, rfl⟩

end Brackets
