import ShuttleWorks.Brackets.Registration

/-! Whether every unit's turn comes. A session is played by recording a result for some unit
that can be played, as long as there is one. When what units depend on is ranked, a state in
which no walkover is due and nothing can be played has a result for every unit. -/

namespace Brackets
open Lib

variable {draws : List EventId} {s s' : TournamentState} {rank : PlayUnitId → Nat} {u : PlayUnit}
  {I : TournamentState → Prop}

def Ranked (rank : PlayUnitId → Nat) (s : TournamentState) : Prop :=
  ∀ u ∈ s.playUnits.rows, ∀ d ∈ u.dependencies, s.playUnits.Has d ∧ rank d < rank u.id

/-- **Every unit's turn comes.** A run that records a result while some unit can be played comes
to an end; there every unit has a result, which it came with, was walked over with or got when
it could be played. -/
structure EventuallyReady (draws : List EventId) (s : TournamentState) : Prop where
  ends : ∀ {calls s'}, Run (RecordStep draws) s calls s' → calls.length ≤ pending s
  recordable : ∀ {calls s' u}, Run (RecordStep draws) s calls s' → Playable s' u →
    ∀ r, ∃ s'', RecordStep draws s' (u.id, r) s''
  decided : ∀ {calls s'}, Run (RecordStep draws) s calls s' → (∀ u, ¬ Playable s' u) →
    ∀ u ∈ s'.playUnits.rows, ∃ r, s'.result u.id = some r ∧
      (s.result u.id = some r ∨ (u.id, r) ∈ calls ∨ r.walkover)

/-- The state is over the units of the draws, in their events and with their dependencies. -/
structure StandsOn (ds : List Draw) (s : TournamentState) : Prop where
  ids : s.playUnits.rows.map PlayUnit.id = (origin ds).map PlayUnit.id
  get : ∀ d ∈ ds, ∀ v ∈ d.playUnits.rows, ∃ u, s.playUnits.get v.id = some u ∧
    u.dependencies = v.dependencies ∧ u.eventId = d.event.id

namespace StandsOn

variable {ds : List Draw}

theorem unit (h : StandsOn ds s) (hu : u ∈ s.playUnits.rows) :
    ∃ d ∈ ds, ∃ v ∈ d.playUnits.rows, v.id = u.id ∧ v.dependencies = u.dependencies ∧
      u.eventId = d.event.id := by
  have mem : u.id ∈ (origin ds).map PlayUnit.id := h.ids ▸ List.mem_map_of_mem hu
  obtain ⟨v, hv, e⟩ := List.mem_map.mp mem
  obtain ⟨d, hd, hv⟩ := List.mem_flatMap.mp hv
  obtain ⟨w, stored, deps, event⟩ := h.get d hd v hv
  rw [e, Table.get_eq_some_iff.mpr ⟨hu, rfl⟩] at stored
  cases stored
  exact ⟨d, hd, v, hv, e, deps.symm, event⟩

theorem events (h : StandsOn ds s) : ∀ u ∈ s.playUnits.rows, u.eventId ∈ eventIds ds := by
  intro u hu
  obtain ⟨d, hd, -, -, -, -, event⟩ := h.unit hu
  exact event ▸ List.mem_map_of_mem hd

theorem ranked (h : StandsOn ds s)
    (ordered : Ordered PlayUnit.id PlayUnit.dependencies [] (origin ds)) :
    Ranked (fun id => ((origin ds).map PlayUnit.id).idxOf id) s := by
  intro u hu x hx
  obtain ⟨d, hd, v, hv, e, deps, -⟩ := h.unit hu
  have unique : ((origin ds).map PlayUnit.id).Nodup := h.ids ▸ s.playUnits.unique
  obtain ⟨has, lt⟩ := ordered.idxOf_lt unique (List.mem_flatMap.mpr ⟨d, hd, hv⟩) (deps ▸ hx)
  exact ⟨by rw [Table.Has, h.ids]; exact has, e ▸ lt⟩

end StandsOn

/-! ## One state -/

theorem playable_of_ready (hu : u ∈ s.playUnits.rows) (sides : u.sideA ≠ [] ∧ u.sideB ≠ [])
    (new : ¬ s.Resulted u.id) (ready : ∀ d ∈ u.dependencies, s.Resulted d) : Playable s u where
  stored := Table.get_eq_some_iff.mpr ⟨hu, rfl⟩
  sides := sides
  new := by simpa [TournamentState.Resulted] using new
  ready := ready

theorem Ranked.decided (ranked : Ranked rank s)
    (step : ∀ u ∈ s.playUnits.rows, (∀ d ∈ u.dependencies, s.Resulted d) → s.Resulted u.id) :
    ∀ u ∈ s.playUnits.rows, s.Resulted u.id := by
  intro u
  induction hn : rank u.id using Nat.strong_induction_on generalizing u with
  | _ n ih =>
    intro hu
    apply step u hu
    intro d hd
    obtain ⟨has, lt⟩ := ranked u hu d hd
    obtain ⟨v, hv, rfl⟩ := Table.has_iff.mp has
    exact ih (rank v.id) (hn ▸ lt) v rfl hv

theorem Swept.decided (swept : Swept draws s) (ranked : Ranked rank s)
    (events : ∀ u ∈ s.playUnits.rows, u.eventId ∈ draws) (stuck : ∀ u, ¬ Playable s u) :
    ∀ u ∈ s.playUnits.rows, s.Resulted u.id := by
  apply ranked.decided
  intro u hu ready
  by_contra new
  cases hw : walkoverSide u with
  | none => exact stuck u (playable_of_ready hu (walkoverSide_eq_none_iff.mp hw) new ready)
  | some side =>
    have due := dueWalkover_eq_some.mpr ⟨Table.get_eq_some_iff.mpr ⟨hu, rfl⟩,
      (by simpa [TournamentState.Resulted] using new), ready, events u hu, hw⟩
    rw [swept] at due
    cases due

/-! ## Steps -/

/-- The units of the later state are those of the earlier one, in the same events and with the
same dependencies. -/
def SameUnits (s s' : TournamentState) : Prop :=
  s'.playUnits.rows.map PlayUnit.id = s.playUnits.rows.map PlayUnit.id ∧
    ∀ u' ∈ s'.playUnits.rows, ∃ u ∈ s.playUnits.rows, u.id = u'.id ∧
      u.dependencies = u'.dependencies ∧ u.eventId = u'.eventId

theorem SameUnits.refl (s : TournamentState) : SameUnits s s :=
  ⟨rfl, fun u hu => ⟨u, hu, rfl, rfl, rfl⟩⟩

theorem SameUnits.trans {s'' : TournamentState} (h : SameUnits s s') (h' : SameUnits s' s'') :
    SameUnits s s'' := by
  refine ⟨h'.1.trans h.1, fun u'' hu'' => ?_⟩
  obtain ⟨u', hu', id', deps', event'⟩ := h'.2 u'' hu''
  obtain ⟨u, hu, id, deps, event⟩ := h.2 u' hu'
  exact ⟨u, hu, id.trans id', deps.trans deps', event.trans event'⟩

theorem SameUnits.ranked (h : SameUnits s s') (ranked : Ranked rank s) : Ranked rank s' := by
  intro u' hu' d hd
  obtain ⟨u, hu, id, deps, -⟩ := h.2 u' hu'
  rw [← deps] at hd
  rw [← id, Table.Has, h.1]
  exact ranked u hu d hd

theorem SameUnits.events (h : SameUnits s s') (events : ∀ u ∈ s.playUnits.rows, u.eventId ∈ draws) :
    ∀ u ∈ s'.playUnits.rows, u.eventId ∈ draws := by
  intro u' hu'
  obtain ⟨u, hu, -, -, event⟩ := h.2 u' hu'
  exact event ▸ events u hu

theorem receive_kept (recorded unit : PlayUnit) (r : Result) :
    (receive recorded r unit).dependencies = unit.dependencies ∧
      (receive recorded r unit).eventId = unit.eventId := by
  unfold receive
  split
  · exact ⟨rfl, rfl⟩
  · exact ⟨rfl, rfl⟩

theorem recordAndPropagate_sameUnits (s : TournamentState) (unit : PlayUnit) (r : Result) :
    SameUnits s (recordAndPropagate s unit r).1 := by
  refine ⟨recordAndPropagate_ids s unit r, fun u' hu' => ?_⟩
  obtain ⟨u, hu, rfl⟩ := List.mem_map.mp hu'
  obtain ⟨deps, event⟩ := receive_kept unit u r
  exact ⟨u, hu, (receive_id unit r u).symm, deps.symm, event.symm⟩

theorem Sweeps.sameUnits {touched : List PlayUnitId} (h : Sweeps draws s s' touched) :
    SameUnits s s' := by
  obtain ⟨steps, run⟩ := h.run
  refine run.closed SameUnits.refl (fun _ _ _ => SameUnits.trans) ?_
  rintro t _ _ ⟨-, -, -, -⟩
  exact recordAndPropagate_sameUnits _ _ _

theorem Sweeps.result {touched : List PlayUnitId} (h : Sweeps draws s s' touched)
    {id : PlayUnitId} {r : Result} (hr : s'.result id = some r) :
    s.result id = some r ∨ r.walkover := by
  obtain ⟨steps, run⟩ := h.run
  refine run.closed (R := fun s s' => s'.result id = some r → s.result id = some r ∨ r.walkover)
    (fun s h => .inl h) ?_ ?_ hr
  · intro t t' t'' h h' hr
    rcases h' hr with hr | walkover
    · exact h hr
    · exact .inr walkover
  · rintro t _ _ ⟨-, -, -, decides⟩ hr
    rw [recordAndPropagate_result, Function.update_apply] at hr
    split at hr
    · next same =>
      cases hr
      obtain ⟨side, -, rfl⟩ | ⟨-, never⟩ := decides
      · exact .inr rfl
      · exact never.elim
    · exact .inl hr

theorem pending_le_of_keeps (ids : s'.playUnits.rows.map PlayUnit.id = s.playUnits.rows.map PlayUnit.id)
    (keeps : ∀ id, s.Resulted id → s'.Resulted id) : pending s' ≤ pending s := by
  unfold pending
  rw [ids]
  apply List.countP_mono_left
  intro id _ open'
  simp only [decide_eq_true_eq] at open' ⊢
  exact fun resulted => open' (keeps id resulted)

theorem RecordStep.facts {call : PlayUnitId × Result} (h : RecordStep draws s call s') :
    Swept draws s' ∧ SameUnits s s' ∧ pending s' < pending s ∧
      ∀ id r, s'.result id = some r → s.result id = some r ∨ (id, r) = call ∨ r.walkover := by
  obtain ⟨playable, done⟩ := h
  next unit r affected =>
  have recorded := recorded_of_ok playable done
  obtain ⟨touched, sweeps, -⟩ := recorded.sweeps
  refine ⟨recorded.swept, (recordAndPropagate_sameUnits _ _ _).trans sweeps.sameUnits, ?_, ?_⟩
  · refine Nat.lt_of_le_of_lt (pending_le_of_keeps sweeps.ids fun id resulted => ?_)
      (pending_recordAndPropagate r playable.stored playable.new)
    obtain ⟨r', hr'⟩ := Option.isSome_iff_exists.mp resulted
    exact Option.isSome_iff_exists.mpr ⟨r', sweeps.keeps hr'⟩
  · intro id r' hr'
    rcases sweeps.result hr' with hr' | walkover
    · rw [recordAndPropagate_result, Function.update_apply] at hr'
      split at hr'
      · next same =>
        cases hr'
        exact .inr (.inl (by rw [same]))
      · exact .inl hr'
    · exact .inr (.inr walkover)

theorem RecordStep.invariant (keeps : ∀ s a s', I s → Advance (fun _ _ => True) s a s' → I s')
    {call : PlayUnitId × Result} (h : RecordStep draws s call s') (start : I s) : I s' := by
  obtain ⟨playable, done⟩ := h
  obtain ⟨touched, sweeps, -⟩ := (recorded_of_ok playable done).sweeps
  obtain ⟨steps, run⟩ := sweeps.run
  refine run.invariant (fun t a t' hI step => keeps t a t' hI (step.mono fun _ _ never => never.elim)) ?_
  exact keeps _ _ _ start (.store playable.stored playable.new playable.ready
    (.inr ⟨walkoverSide_eq_none_iff.mpr playable.sides, trivial⟩))

/-! ## Runs -/

theorem run_invariant (keeps : ∀ s a s', I s → Advance (fun _ _ => True) s a s' → I s')
    {calls : List (PlayUnitId × Result)} (h : Run (RecordStep draws) s calls s') (start : I s) :
    I s' :=
  h.invariant (fun _ _ _ hI step => step.invariant keeps hI) start

theorem run_waits_for_itself {id : PlayUnitId} {calls : List (PlayUnitId × Result)}
    (h : Run (RecordStep draws) s calls s')
    (self : ∀ u ∈ s.playUnits.rows, u.id = id → id ∈ u.dependencies) (open' : ¬ s.Resulted id) :
    ¬ s'.Resulted id := by
  refine (run_invariant (I := fun s => (∀ u ∈ s.playUnits.rows, u.id = id → id ∈ u.dependencies) ∧
    ¬ s.Resulted id) ?_ h ⟨self, open'⟩).2
  rintro t _ _ ⟨self, open'⟩ ⟨stored, -, ready, -⟩
  next unit r =>
  have other : unit.id ≠ id := by
    rintro rfl
    exact open' (ready unit.id (self unit (Table.mem_of_get stored) rfl))
  refine ⟨fun u' hu' e => ?_, ?_⟩
  · obtain ⟨u, hu, key, deps, -⟩ := (recordAndPropagate_sameUnits t unit r).2 u' hu'
    exact deps ▸ self u hu (key.trans e)
  · rw [TournamentState.Resulted, recordAndPropagate_result, Function.update_of_ne (Ne.symm other)]
    exact open'


theorem run_facts {calls : List (PlayUnitId × Result)} (h : Run (RecordStep draws) s calls s') :
    (calls = [] ∧ s' = s ∨ Swept draws s') ∧ SameUnits s s' ∧
      calls.length + pending s' ≤ pending s ∧
      ∀ id r, s'.result id = some r → s.result id = some r ∨ (id, r) ∈ calls ∨ r.walkover := by
  induction h with
  | nil s => exact ⟨.inl ⟨rfl, rfl⟩, .refl s, by simp, fun id r hr => .inl hr⟩
  | cons step _ ih =>
    obtain ⟨swept, units, less, results⟩ := step.facts
    obtain ⟨swept', units', less', results'⟩ := ih
    refine ⟨.inr ?_, units.trans units', ?_, ?_⟩
    · rcases swept' with ⟨-, rfl⟩ | swept'
      · exact swept
      · exact swept'
    · rw [List.length_cons]
      omega
    · intro id r hr
      rcases results' id r hr with hr | called | walkover
      · rcases results id r hr with hr | rfl | walkover
        · exact .inl hr
        · exact .inr (.inl List.mem_cons_self)
        · exact .inr (.inr walkover)
      · exact .inr (.inl (List.mem_cons_of_mem _ called))
      · exact .inr (.inr walkover)

/-- **Turns come** when dependencies are ranked and the first state is not stuck. -/
theorem EventuallyReady.of_ranked (ranked : Ranked rank s)
    (events : ∀ u ∈ s.playUnits.rows, u.eventId ∈ draws)
    (start : (∀ u, ¬ Playable s u) → ∀ u ∈ s.playUnits.rows, s.Resulted u.id) :
    EventuallyReady draws s where
  ends := by
    intro calls s' run
    have := (run_facts run).2.2.1
    omega
  recordable := by
    intro calls s' u run playable r
    have event := (run_facts run).2.1.events events u (Table.mem_of_get playable.stored)
    obtain ⟨s'', affected, done, -⟩ := recordResult_ok (playable.recordable event r)
    exact ⟨s'', .record playable done⟩
  decided := by
    intro calls s' run stuck u hu
    obtain ⟨swept, units, -, results⟩ := run_facts run
    have resulted : s'.Resulted u.id := by
      rcases swept with ⟨-, rfl⟩ | swept
      · exact start stuck u hu
      · exact swept.decided (units.ranked ranked) (units.events events) stuck u hu
    obtain ⟨r, hr⟩ := Option.isSome_iff_exists.mp resulted
    exact ⟨r, hr, results u.id r hr⟩

end Brackets
