import ShuttleWorks.Brackets.SwissRounds

/-! Runs of a Swiss event: it is generated and registered, then results come in and are corrected,
other events go on, and rounds are appended. In every state of such a run each round has everyone
once, an odd field one bye a round, and nobody a second bye. -/

namespace Brackets
open Lib

variable {s s' : TournamentState} {draws : List EventId} {u : PlayUnit} {touched : List PlayUnitId}
  {r : Result} {affected : List PlayUnitId} {ρ : Type}

/-! ## What recording leaves alone -/

theorem recordAndPropagate_fixed (free : u.dependencies = []) (hu : s.playUnits.get u.id = some u)
    (unit : PlayUnit) (r : Result) :
    (recordAndPropagate s unit r).1.playUnits.get u.id = some u := by
  have other : ¬ Receives unit u := fun h => by simp [Receives, free] at h
  rw [recordAndPropagate_playUnits, Table.get_update, hu, Option.map_some, receive, if_neg other]

theorem Sweeps.quiet (h : Sweeps draws s s' touched) (free : u.dependencies = [])
    (hu : s.playUnits.get u.id = some u) (done : s.Resulted u.id ∨ walkoverSide u = none) :
    SameAt u.id s s' := by
  obtain ⟨steps, run⟩ := h.run
  have kept := run.invariant
    (I := fun t => t.playUnits.get u.id = some u ∧ t.result u.id = s.result u.id) ?_ ⟨hu, rfl⟩
  · exact ⟨by rw [kept.1, hu], kept.2.symm⟩
  rintro t _ t' ⟨stored, same⟩ ⟨hunit, new, -, decides⟩
  next unit r =>
  refine ⟨recordAndPropagate_fixed free stored unit r, ?_⟩
  rw [recordAndPropagate_result]
  by_cases here : u.id = unit.id
  · -- the unit itself would be walked over
    rw [here, hunit] at stored
    cases stored
    rw [same] at new
    rcases decides with ⟨side, due, -⟩ | ⟨-, impossible⟩
    · rcases done with resulted | sides
      · simp [TournamentState.Resulted, new] at resulted
      · rw [sides] at due
        cases due
    · exact impossible.elim
  · rw [Function.update_of_ne here]
    exact same

theorem Sweeps.absent (h : Sweeps draws s s' touched) {id : PlayUnitId}
    (none : s.playUnits.get id = none) : SameAt id s s' :=
  h.frame id fun mem => Table.get_eq_none_iff.mp none (h.known id mem)

theorem Recorded.quiet {unit : PlayUnit} (h : Recorded s draws unit r s' affected)
    (ne : u.id ≠ unit.id) (free : u.dependencies = []) (hu : s.playUnits.get u.id = some u)
    (done : s.Resulted u.id ∨ walkoverSide u = none) : SameAt u.id s s' := by
  obtain ⟨touched, sweeps, -⟩ := h.sweeps
  have first : SameAt u.id s (recordAndPropagate s unit r).1 :=
    ⟨by rw [recordAndPropagate_fixed free hu, hu],
      by rw [recordAndPropagate_result, Function.update_of_ne ne]⟩
  refine first.trans (sweeps.quiet free (recordAndPropagate_fixed free hu unit r) ?_)
  rw [TournamentState.Resulted, ← first.2]
  exact done

theorem Recorded.absent {unit : PlayUnit} (h : Recorded s draws unit r s' affected)
    (stored : s.playUnits.get unit.id = some unit) {id : PlayUnitId}
    (none : s.playUnits.get id = none) : SameAt id s s' := by
  obtain ⟨touched, sweeps, -⟩ := h.sweeps
  have ne : id ≠ unit.id := by
    rintro rfl
    rw [none] at stored
    cases stored
  have first : SameAt id s (recordAndPropagate s unit r).1 := by
    refine ⟨?_, by rw [recordAndPropagate_result, Function.update_of_ne ne]⟩
    rw [recordAndPropagate_playUnits, Table.get_update, none]
    rfl
  exact first.trans (sweeps.absent (first.1.symm.trans none))

theorem Recorded.self {unit : PlayUnit} (h : Recorded s draws unit r s' affected)
    (stored : s.playUnits.get unit.id = some unit) (free : unit.dependencies = []) :
    s'.playUnits.get unit.id = some unit ∧ s'.result unit.id = some r := by
  obtain ⟨touched, sweeps, -⟩ := h.sweeps
  have first := recordAndPropagate_fixed free stored unit r
  have resulted : (recordAndPropagate s unit r).1.result unit.id = some r := by simp
  have same := sweeps.quiet free first
    (Or.inl (by rw [TournamentState.Resulted, resulted]; rfl))
  exact ⟨same.1.symm.trans first, same.2.symm.trans resulted⟩

theorem recorded_of_stored {unit : PlayUnit} (stored : s.playUnits.get unit.id = some unit)
    (h : recordResult s draws unit.id r = .ok (s', affected)) :
    Recorded s draws unit r s' affected := by
  obtain ⟨unit', same, recordable, recorded⟩ := recordResult_eq_ok h
  have there := recordable.stored
  rw [same, stored] at there
  cases there
  exact recorded

/-- What a walkover of one unit leaves of others that nothing is due for. -/
theorem Recorded.spares {us : List PlayUnit} {unit : PlayUnit}
    (h : Recorded s draws unit r s' affected) (mem : unit ∈ us)
    (stored : ∀ u ∈ us, s.playUnits.get u.id = some u) (free : ∀ u ∈ us, u.dependencies = [])
    (done : ∀ u ∈ us, u.id ≠ unit.id → s.Resulted u.id ∨ walkoverSide u = none) :
    (∀ u ∈ us, s'.playUnits.get u.id = some u) ∧ s'.result unit.id = some r ∧
      (∀ u ∈ us, u.id ≠ unit.id → s'.result u.id = s.result u.id) ∧
      ∀ id, s.playUnits.get id = none → SameAt id s s' := by
  have self := h.self (stored unit mem) (free unit mem)
  have quiet : ∀ u ∈ us, u.id ≠ unit.id → SameAt u.id s s' := fun u hu ne =>
    h.quiet ne (free u hu) (stored u hu) (done u hu ne)
  refine ⟨fun u hu => ?_, self.2, fun u hu ne => (quiet u hu ne).2.symm,
    fun id none => h.absent (stored unit mem) none⟩
  by_cases same : u.id = unit.id
  · have eq : u = unit := by
      have there := stored u hu
      rw [same, stored unit mem] at there
      exact (Option.some.inj there).symm
    rw [eq]
    exact self.1
  · rw [← (quiet u hu same).1]
    exact stored u hu

/-! ## The run -/

/-- The entrants of a Swiss event: at least two, none twice, none a bye. -/
structure SwissField where
  participants : List Participant
  least : 2 ≤ participants.length
  distinct : (participants.map Participant.id).Nodup
  real : BYE ∉ participants.map Participant.id

def SwissField.ids (field : SwissField) : List ParticipantId := field.participants.map Participant.id

/-- Nothing is stored under a unit id of this event's round `r`. -/
def UnusedFrom (eventId : EventId) (r : Nat) (s : TournamentState) : Prop :=
  ∀ r' m, r ≤ r' → s.playUnits.get (roundUnitId eventId r' m) = none ∧
    s.result (roundUnitId eventId r' m) = none

/-- The draw is generated and registered in a session that has nothing of the event. -/
def SwissStart (field : SwissField) (eventId : EventId) (x : SwissSession) : Prop :=
  ∃ s durationSlots config, UnusedFrom eventId 0 s ∧
    generateSwiss field.participants eventId eventId durationSlots config = .ok x.draw ∧
    registerDraw s x.draw = .ok x.state

inductive SwissAction
  | nextRound
  | result (id : PlayUnitId) (r : Result)
  | correction (id : PlayUnitId) (r : Result)
  | elsewhere

def popResult (s : TournamentState) (id : PlayUnitId) : TournamentState :=
  { s with results := Assoc.erase id s.results }

/-- One accepted request. Results are only taken for a unit whose sides are both known; a result is
corrected while no later round is paired, or repeated as it is. -/
inductive SwissStep {ρ : Type} [LinearOrder ρ] (ratio : Int → Int → ρ) :
    SwissSession → SwissAction → SwissSession → Prop
  | nextRound {x x' : SwissSession} {info : EventMeta} {draws : List EventId} :
    generateNextRound ratio info draws x = .ok x' → SwissStep ratio x .nextRound x'
  | result {x : SwissSession} {unit : PlayUnit} {r : Result} {draws : List EventId}
      {s' : TournamentState} {affected : List PlayUnitId} :
    unit ∈ x.draw.playUnits.rows → unit.sideA ≠ [] → unit.sideB ≠ [] →
    recordResult x.state draws unit.id r = .ok (s', affected) →
    SwissStep ratio x (.result unit.id r) { x with state := s' }
  | correction {x : SwissSession} {unit : PlayUnit} {r : Result} {draws : List EventId}
      {s' : TournamentState} {affected : List PlayUnitId} :
    unit ∈ x.draw.playUnits.rows → unit.sideA ≠ [] → unit.sideB ≠ [] →
    x.state.Resulted unit.id →
    (x.state.result unit.id = some r ∨
      ∀ v ∈ x.draw.playUnits.rows, v.metadata.round ≤ unit.metadata.round) →
    recordResult (popResult x.state unit.id) draws unit.id r = .ok (s', affected) →
    SwissStep ratio x (.correction unit.id r) { x with state := s' }
  | elsewhere {x : SwissSession} {s' : TournamentState} :
    (∀ r m, SameAt (roundUnitId x.draw.event.id r m) x.state s') →
    SwissStep ratio x .elsewhere { x with state := s' }

def SwissReached {ρ : Type} [LinearOrder ρ] (ratio : Int → Int → ρ) (field : SwissField)
    (eventId : EventId) : SwissSession → Prop :=
  Reachable (SwissStart field eventId) (SwissStep ratio)

/-! ## The rounds so far -/

/-- The draw is these rounds, each a full one, and every bye in them is taken and fresh. -/
structure SwissRounds (field : SwissField) (eventId : EventId) (x : SwissSession)
    (rows : List (List PlayUnit)) : Prop where
  event : x.draw.event.id = eventId
  participants : x.draw.participants.rows = field.participants
  units : x.draw.playUnits.rows = rows.flatten
  rounds : x.draw.rounds = rows.map fun row => row.map PlayUnit.id
  built : ∀ r row, rows[r]? = some row → ∃ pairs bye durationSlots,
    row = buildSwissRound pairs bye eventId eventId r durationSlots ∧
      (bye.toList ++ pairMembers pairs).Perm field.ids ∧
      (bye.isSome = true ↔ field.ids.length % 2 = 1)
  stored : ∀ u ∈ rows.flatten, x.state.playUnits.get u.id = some u
  walked : ∀ u ∈ rows.flatten, u.sideB = [] → x.state.result u.id = some (walkover .A)
  fresh : (rowByes rows.flatten).Nodup
  later : UnusedFrom eventId rows.length x.state
  few : rows.length < field.ids.length

variable {info : EventMeta} {totalRounds : Nat} {a : SwissAction}

namespace SwissRounds

variable {field : SwissField} {eventId : EventId} {x : SwissSession} {rows : List (List PlayUnit)}
  {bye : Option ParticipantId} {x' : SwissSession}

theorem unit_spec (h : SwissRounds field eventId x rows) (hu : u ∈ rows.flatten) :
    u.dependencies = [] ∧ u.eventId = eventId ∧ u.metadata.round < rows.length ∧
      (∃ a, u.sideA = [a]) ∧ (u.sideB = [] ∨ ∃ b, u.sideB = [b]) ∧
      u.id = roundUnitId eventId u.metadata.round u.metadata.matchIndex := by
  obtain ⟨row, hrow, hu⟩ := List.mem_flatten.mp hu
  obtain ⟨r, hr⟩ := List.mem_iff_getElem?.mp hrow
  obtain ⟨pairs, bye, durationSlots, rfl, -, -⟩ := h.built r row hr
  obtain ⟨free, event, round, a, b, id⟩ := mem_buildSwissRound_spec hu
  have lt := (List.getElem?_eq_some_iff.mp hr).1
  exact ⟨free, event, by omega, a, b, by rw [round]; exact id⟩

theorem done (h : SwissRounds field eventId x rows) (hu : u ∈ rows.flatten) :
    x.state.Resulted u.id ∨ walkoverSide u = none := by
  obtain ⟨-, -, -, ⟨a, sideA⟩, sideB, -⟩ := h.unit_spec hu
  rcases sideB with empty | ⟨b, sideB⟩
  · exact Or.inl (by rw [TournamentState.Resulted, h.walked u hu empty]; rfl)
  · exact Or.inr (walkoverSide_eq_none_iff.mpr (by simp [sideA, sideB]))

/-- **Only what the state shows of the event's units matters.** -/
theorem of_sameAt (h : SwissRounds field eventId x rows) {s' : TournamentState}
    (stored : ∀ u ∈ rows.flatten, s'.playUnits.get u.id = some u)
    (walked : ∀ u ∈ rows.flatten, u.sideB = [] → s'.result u.id = some (walkover .A))
    (later : UnusedFrom eventId rows.length s') :
    SwissRounds field eventId { x with state := s' } rows :=
  ⟨h.event, h.participants, h.units, h.rounds, h.built, stored, walked, h.fresh, later, h.few⟩

theorem recorded (h : SwissRounds field eventId x rows) {t : TournamentState} {unit : PlayUnit}
    (hunit : unit ∈ rows.flatten) (both : unit.sideB ≠ []) (units : t.playUnits = x.state.playUnits)
    (others : ∀ id, id ≠ unit.id → t.result id = x.state.result id)
    (rec : Recorded t draws unit r s' affected) :
    SwissRounds field eventId { x with state := s' } rows := by
  have stored : ∀ u ∈ rows.flatten, t.playUnits.get u.id = some u := fun u hu => by
    rw [units]
    exact h.stored u hu
  have done : ∀ u ∈ rows.flatten, u.id ≠ unit.id → t.Resulted u.id ∨ walkoverSide u = none := by
    intro u hu ne
    rw [TournamentState.Resulted, others u.id ne]
    exact h.done hu
  obtain ⟨after, -, kept, absent⟩ :=
    rec.spares hunit stored (fun u hu => (h.unit_spec hu).1) done
  refine h.of_sameAt after (fun u hu empty => ?_) (fun r' m hr' => ?_)
  · have ne : u.id ≠ unit.id := by
      intro same
      have stored' := stored u hu
      rw [same, stored unit hunit] at stored'
      cases stored'
      exact both empty
    rw [kept u hu ne, others u.id ne]
    exact h.walked u hu empty
  · obtain ⟨noUnit, noResult⟩ := h.later r' m hr'
    have same := absent _ (by rw [units]; exact noUnit)
    have ne : roundUnitId eventId r' m ≠ unit.id := by
      intro same
      have stored' := h.stored unit hunit
      rw [← same, noUnit] at stored'
      cases stored'
    exact ⟨by rw [← same.1, units]; exact noUnit, by rw [← same.2, others _ ne]; exact noResult⟩

theorem byeHistory_eq (h : SwissRounds field eventId x rows) :
    byeHistory x = rowByes rows.flatten := by
  have each : ∀ l : List PlayUnit, (∀ u ∈ l, u ∈ rows.flatten) →
      l.filterMap (byeOf x.state) = rowByes l := by
    intro l
    induction l with
    | nil => intro _; rfl
    | cons u l ih =>
      intro inside
      have rest := ih fun v hv => inside v (List.mem_cons_of_mem _ hv)
      have hu := inside u List.mem_cons_self
      obtain ⟨-, -, -, ⟨a, sideA⟩, sideB, -⟩ := h.unit_spec hu
      rcases sideB with empty | ⟨b, sideB⟩
      · have here : byeOf x.state u = some a := by
          simp [byeOf, h.walked u hu empty, walkover, sideA, empty]
        rw [List.filterMap_cons_some here, rest]
        simp [rowByes, empty, sideA]
      · have here : byeOf x.state u = none := by
          unfold byeOf
          split
          · rfl
          · split
            · rfl
            · simp [sideA, sideB]
        rw [List.filterMap_cons_none here, rest]
        simp [rowByes, sideB]
  rw [byeHistory, h.units]
  exact each _ fun _ hu => hu

theorem length_byes_le (h : SwissRounds field eventId x rows) :
    (rowByes rows.flatten).length ≤ rows.length := by
  have each : ∀ l : List (List PlayUnit), (∀ row ∈ l, row ∈ rows) →
      (rowByes l.flatten).length ≤ l.length := by
    intro l
    induction l with
    | nil => intro _; simp [rowByes]
    | cons row l ih =>
      intro inside
      have rest := ih fun row' hr => inside row' (List.mem_cons_of_mem _ hr)
      obtain ⟨r, hr⟩ := List.mem_iff_getElem?.mp (inside row List.mem_cons_self)
      obtain ⟨pairs, bye, durationSlots, rfl, -, -⟩ := h.built r row hr
      rw [List.flatten_cons, rowByes_append, List.length_append, rowByes_buildSwissRound,
        List.length_cons]
      have one : bye.toList.length ≤ 1 := by cases bye <;> simp
      omega
  exact each rows fun _ hr => hr

/-! ## Appending a round -/

def withUnits (s : TournamentState) (row : List PlayUnit) : TournamentState :=
  { s with playUnits := row.foldl Table.put s.playUnits }

/-- The units of the round `r`, whose ids are still unused. -/
theorem insert_units {row : List PlayUnit} (unique : (row.map PlayUnit.id).Nodup)
    (named : ∀ u ∈ row, ∃ m, u.id = roundUnitId eventId rows.length m)
    (h : SwissRounds field eventId x rows) :
    (row.foldl Table.put x.draw.playUnits).rows = (rows ++ [row]).flatten ∧
      (∀ u ∈ (rows ++ [row]).flatten, (withUnits x.state row).playUnits.get u.id = some u) ∧
      UnusedFrom eventId (rows.length + 1) (withUnits x.state row) ∧
      ∀ u ∈ row, x.state.result u.id = none := by
  have newState : ∀ u ∈ row, ¬ x.state.playUnits.Has u.id := by
    intro u hu
    obtain ⟨m, id⟩ := named u hu
    rw [id]
    exact Table.get_eq_none_iff.mp (h.later _ m (Nat.le_refl _)).1
  have newDraw : ∀ u ∈ row, ¬ x.draw.playUnits.Has u.id := by
    intro u hu has
    obtain ⟨v, hv, same⟩ := Table.has_iff.mp has
    rw [h.units] at hv
    refine newState u hu ?_
    rw [← same]
    exact Table.has_iff.mpr ⟨v, Table.mem_of_get (h.stored v hv), rfl⟩
  have stateRows : (withUnits x.state row).playUnits.rows = x.state.playUnits.rows ++ row :=
    Table.foldl_put_rows unique newState
  have flat : (rows ++ [row]).flatten = rows.flatten ++ row := by simp
  refine ⟨?_, fun u hu => ?_, fun r m hr => ?_, fun u hu => ?_⟩
  · rw [Table.foldl_put_rows unique newDraw, h.units, flat]
  · rw [flat] at hu
    rcases List.mem_append.mp hu with old | new
    · exact Table.get_of_rows_append stateRows (h.stored u old)
    · exact Table.get_eq_some_iff.mpr ⟨by rw [stateRows]; exact List.mem_append_right _ new, rfl⟩
  · obtain ⟨noUnit, noResult⟩ := h.later r m (by omega)
    refine ⟨Table.get_eq_none_iff.mpr fun has => ?_, noResult⟩
    rw [Table.Has, stateRows, List.map_append] at has
    rcases List.mem_append.mp has with old | new
    · exact Table.get_eq_none_iff.mp noUnit old
    · obtain ⟨u, hu, same⟩ := List.mem_map.mp new
      obtain ⟨m', id⟩ := named u hu
      have := (roundUnitId_inj (id.symm.trans same)).1
      omega
  · obtain ⟨m, id⟩ := named u hu
    rw [id]
    exact (h.later _ m (Nat.le_refl _)).2

/-- **A full round with a fresh bye may be appended.** -/
theorem append_ok (h : SwissRounds field eventId x rows)
    {pairs : List (ParticipantId × ParticipantId)} (durationSlots : Nat)
    (registered : eventId ∈ draws) :
    ∃ x', appendRound draws x bye
      (buildSwissRound pairs bye eventId eventId rows.length durationSlots) = .ok x' := by
  unfold appendRound
  cases bye with
  | none => exact ⟨_, rfl⟩
  | some id =>
    obtain ⟨row, hrow⟩ : ∃ row, row =
      buildSwissRound pairs (some id) eventId eventId rows.length durationSlots := ⟨_, rfl⟩
    obtain ⟨last, hlast, mem, -⟩ : ∃ last, row.getLast? = some last ∧ last ∈ row ∧
        last.sideB = [] := by
      rw [hrow]
      exact getLast_buildSwissRound pairs id
    have unique : (row.map PlayUnit.id).Nodup := by
      rw [hrow]
      exact buildSwissRound_ids_nodup pairs (some id)
    have spec : ∀ u ∈ row, _ := fun u hu => mem_buildSwissRound_spec (hrow ▸ hu)
    obtain ⟨-, stored, -, unresulted⟩ := h.insert_units unique
      (fun u hu => ⟨_, (spec u hu).2.2.2.2.2⟩)
    obtain ⟨-, event, -, ⟨a, sideA⟩, -⟩ := spec last mem
    have recordable : Recordable (withUnits x.state row) draws last (walkover .A) := by
      refine ⟨stored last (by simp [mem]), by rwa [event], unresulted last mem, ?_⟩
      simp [Unrecoverable, walkover, sideA]
    obtain ⟨s', affected, ok, -⟩ := recordResult_ok recordable
    rw [← hrow, hlast]
    dsimp only
    rw [show recordResult { x.state with playUnits := _ } draws last.id (walkover .A) =
      .ok (s', affected) from ok]
    exact ⟨_, rfl⟩

/-- The session with one more row of units in its draw. -/
def withRow (x : SwissSession) (row : List PlayUnit) (s' : TournamentState) : SwissSession where
  draw := { x.draw with
    playUnits := row.foldl Table.put x.draw.playUnits
    rounds := x.draw.rounds ++ [row.map PlayUnit.id] }
  state := s'

/-- An appended round is either stored as it is or has its last unit walked over. -/
theorem appendRound_eq_ok {row : List PlayUnit} (ok : appendRound draws x bye row = .ok x') :
    (x' = withRow x row (withUnits x.state row) ∧ (bye = none ∨ row.getLast? = none)) ∨
      ∃ last s' affected, row.getLast? = some last ∧ x' = withRow x row s' ∧
        recordResult (withUnits x.state row) draws last.id (walkover .A) = .ok (s', affected) := by
  cases bye with
  | none =>
    cases ok
    exact Or.inl ⟨rfl, Or.inl rfl⟩
  | some id =>
    unfold appendRound at ok
    cases hlast : row.getLast? with
    | none =>
      rw [hlast] at ok
      cases ok
      exact Or.inl ⟨rfl, Or.inr rfl⟩
    | some last =>
      rw [hlast] at ok
      dsimp only at ok
      split at ok
      · cases ok
      · next s' affected recorded =>
        cases ok
        exact Or.inr ⟨last, s', affected, rfl, rfl, recorded⟩

section

variable {pairs : List (ParticipantId × ParticipantId)} {durationSlots : Nat} {row : List PlayUnit}

theorem built_append (h : SwissRounds field eventId x rows)
    (full : (bye.toList ++ pairMembers pairs).Perm field.ids)
    (odd : bye.isSome = true ↔ field.ids.length % 2 = 1)
    (hrow : row = buildSwissRound pairs bye eventId eventId rows.length durationSlots) :
    ∀ r row', (rows ++ [row])[r]? = some row' → ∃ pairs bye durationSlots,
      row' = buildSwissRound pairs bye eventId eventId r durationSlots ∧
        (bye.toList ++ pairMembers pairs).Perm field.ids ∧
        (bye.isSome = true ↔ field.ids.length % 2 = 1) := by
  intro r row' hr
  rcases Nat.lt_or_ge r rows.length with old | last
  · rw [List.getElem?_append_left old] at hr
    exact h.built r row' hr
  · rw [List.getElem?_append_right last] at hr
    obtain ⟨here, rfl⟩ := List.getElem?_eq_some_iff.mp hr
    simp only [List.length_singleton] at here
    have r_eq : r = rows.length := by omega
    subst r_eq
    refine ⟨pairs, bye, durationSlots, ?_, full, odd⟩
    simp [hrow]

theorem fresh_append (h : SwissRounds field eventId x rows)
    (new : ∀ id, bye = some id → id ∉ rowByes rows.flatten)
    (hrow : row = buildSwissRound pairs bye eventId eventId rows.length durationSlots) :
    (rowByes (rows ++ [row]).flatten).Nodup := by
  rw [List.flatten_append, List.flatten_singleton, rowByes_append, hrow, rowByes_buildSwissRound]
  cases bye with
  | none => simpa using h.fresh
  | some id =>
    refine List.nodup_append.mpr ⟨h.fresh, by simp, ?_⟩
    rintro a ha b hb rfl
    simp only [Option.toList_some, List.mem_singleton] at hb
    exact new id rfl (hb ▸ ha)

/-- The walkover of a row's bye decides that unit and leaves all others as they were. -/
theorem walkover_append (h : SwissRounds field eventId x rows) {last : PlayUnit}
    (hrow : row = buildSwissRound pairs bye eventId eventId rows.length durationSlots)
    (hlast : row.getLast? = some last)
    (recorded : recordResult (withUnits x.state row) draws last.id (walkover .A) =
      .ok (s', affected)) :
    (∀ u ∈ (rows ++ [row]).flatten, s'.playUnits.get u.id = some u) ∧
      (∀ u ∈ (rows ++ [row]).flatten, u.sideB = [] → s'.result u.id = some (walkover .A)) ∧
      UnusedFrom eventId (rows.length + 1) s' := by
  have spec : ∀ u ∈ row, _ := fun u hu => mem_buildSwissRound_spec (hrow ▸ hu)
  obtain ⟨-, stored, later, -⟩ := h.insert_units (hrow ▸ buildSwissRound_ids_nodup pairs bye)
    (fun u hu => ⟨_, (spec u hu).2.2.2.2.2⟩)
  have flat : (rows ++ [row]).flatten = rows.flatten ++ row := by simp
  have inside : last ∈ (rows ++ [row]).flatten := by
    rw [flat]
    exact List.mem_append_right _ (List.mem_of_getLast? hlast)
  have lone : ∀ u ∈ row, u.sideB = [] → u.id = last.id := by
    intro u new empty
    have only := (bye_unit_unique (hrow ▸ new) empty).2
    rw [← hrow, hlast] at only
    exact (congrArg PlayUnit.id (Option.some.inj only)).symm
  have free : ∀ u ∈ (rows ++ [row]).flatten, u.dependencies = [] := by
    intro u hu
    rw [flat] at hu
    exact (List.mem_append.mp hu).elim (fun old => (h.unit_spec old).1) fun new => (spec u new).1
  have done : ∀ u ∈ (rows ++ [row]).flatten, u.id ≠ last.id →
      (withUnits x.state row).Resulted u.id ∨ walkoverSide u = none := by
    intro u hu ne
    rw [flat] at hu
    rcases List.mem_append.mp hu with old | new
    · exact h.done old
    · obtain ⟨-, -, -, ⟨a, sideA⟩, sideB, -⟩ := spec u new
      rcases sideB with empty | ⟨b, sideB⟩
      · exact absurd (lone u new empty) ne
      · exact Or.inr (walkoverSide_eq_none_iff.mpr (by simp [sideA, sideB]))
  obtain ⟨units, decided, others, absent⟩ :=
    (recorded_of_stored (stored last inside) recorded).spares inside stored free done
  refine ⟨units, fun u hu empty => ?_, fun r m hr' => ?_⟩
  · by_cases same : u.id = last.id
    · rw [same]
      exact decided
    · rw [others u hu same]
      rw [flat] at hu
      rcases List.mem_append.mp hu with old | new
      · exact h.walked u old empty
      · exact absurd (lone u new empty) same
  · obtain ⟨noUnit, noResult⟩ := later r m hr'
    have kept := absent _ noUnit
    exact ⟨kept.1.symm.trans noUnit, kept.2.symm.trans noResult⟩

/-- **An appended round keeps the rounds full and the byes fresh.** -/
theorem append (h : SwissRounds field eventId x rows)
    (full : (bye.toList ++ pairMembers pairs).Perm field.ids)
    (odd : bye.isSome = true ↔ field.ids.length % 2 = 1)
    (new : ∀ id, bye = some id → id ∉ rowByes rows.flatten)
    (few : rows.length + 1 < field.ids.length) (ok : appendRound draws x bye
      (buildSwissRound pairs bye eventId eventId rows.length durationSlots) = .ok x') :
    SwissRounds field eventId x'
      (rows ++ [buildSwissRound pairs bye eventId eventId rows.length durationSlots]) := by
  obtain ⟨row, hrow⟩ : ∃ row, row =
    buildSwissRound pairs bye eventId eventId rows.length durationSlots := ⟨_, rfl⟩
  rw [← hrow] at ok ⊢
  obtain ⟨drawRows, stored, later, -⟩ := h.insert_units (hrow ▸ buildSwissRound_ids_nodup pairs bye)
    (fun u hu => ⟨_, (mem_buildSwissRound_spec (hrow ▸ hu)).2.2.2.2.2⟩)
  have assemble : ∀ s', (∀ u ∈ (rows ++ [row]).flatten, s'.playUnits.get u.id = some u) →
      (∀ u ∈ (rows ++ [row]).flatten, u.sideB = [] → s'.result u.id = some (walkover .A)) →
      UnusedFrom eventId (rows.length + 1) s' →
      SwissRounds field eventId (withRow x row s') (rows ++ [row]) := by
    intro s' stored walked later
    refine ⟨h.event, h.participants, drawRows, by simp [withRow, h.rounds],
      h.built_append full odd hrow, stored, walked, h.fresh_append new hrow, ?_, by simpa using few⟩
    rw [List.length_append, List.length_singleton]
    exact later
  rcases appendRound_eq_ok ok with ⟨rfl, unwalked⟩ | ⟨last, s', affected, hlast, rfl, recorded⟩
  · refine assemble _ stored (fun u hu empty => ?_) later
    rw [List.flatten_append, List.flatten_singleton] at hu
    rcases List.mem_append.mp hu with old | last
    · exact h.walked u old empty
    · -- a unit without an opponent is the last one of a row with a bye
      obtain ⟨one, final⟩ := bye_unit_unique (hrow ▸ last) empty
      rw [← hrow] at final
      rcases unwalked with none | none
      · rw [none] at one
        cases one
      · rw [none] at final
        cases final
  · obtain ⟨units, walked, later⟩ := h.walkover_append hrow hlast recorded
    exact assemble s' units walked later

end

theorem nextRound [LinearOrder ρ] {ratio : Int → Int → ρ} (h : SwissRounds field eventId x rows)
    (ok : generateNextRound ratio info draws x = .ok x') :
    ∃ row, SwissRounds field eventId x' (rows ++ [row]) := by
  obtain ⟨-, totalRounds, pairs, bye, config, more, paired, appended⟩ :=
    generateNextRound_eq_ok ratio ok
  rw [h.participants] at config paired
  have players : field.participants.length = field.ids.length := by simp [SwissField.ids]
  have below := normalizeSwissConfig_lt field.least config
  have rounds : x.draw.rounds.length = rows.length := by rw [h.rounds, List.length_map]
  rw [rounds] at more appended
  -- the standings list the field
  have standings := standingRows_perm ratio x.draw.playUnits x.state.results field.ids
  rw [startRows_ids (show field.ids.Nodup from field.distinct)] at standings
  have everyone : field.ids.filter (· ≠ BYE) = field.ids := by
    refine List.filter_eq_self.mpr fun id hid => decide_eq_true ?_
    rintro rfl
    exact field.real hid
  rw [everyone] at standings
  obtain ⟨pairs', bye', paired', rfl, perm⟩ := pairSwissRound_perfect
    (standings.nodup_iff.mpr field.distinct) (priorPairings x) (byeHistory x)
  rw [show standingRows ratio x.draw.playUnits x.state.results
    (field.participants.map Participant.id) =
    standingRows ratio x.draw.playUnits x.state.results field.ids from rfl, paired'] at paired
  cases paired
  rw [h.event] at appended
  have odd : ∀ {order : List ParticipantId}, order.Perm field.ids →
      ((swissBye order (byeHistory x)).isSome = true ↔ field.ids.length % 2 = 1) := by
    intro order same
    rw [swissBye_isSome, same.length_eq]
  -- somebody never had a bye: there were fewer rounds than players
  have someone : ∃ id ∈ field.ids, id ∉ byeHistory x := by
    by_contra all
    have inside : field.ids ⊆ byeHistory x := fun id hid => by
      by_contra new
      exact all ⟨id, hid, new⟩
    have count : field.ids.length ≤ (byeHistory x).length :=
      (List.Nodup.subperm field.distinct inside).length_le
    rw [h.byeHistory_eq] at count
    have few := h.length_byes_le
    have less := h.few
    omega
  refine ⟨_, h.append (perm.trans standings) (odd standings) (fun id hid => ?_) (by omega)
    appended⟩
  obtain ⟨fresh, there, new⟩ := someone
  rw [← h.byeHistory_eq]
  exact swissBye_fresh hid ⟨fresh, standings.mem_iff.mpr there, new⟩

/-- **The next round can be generated** as soon as every unit has a result, up to the last. -/
theorem nextRound_ok [LinearOrder ρ] (ratio : Int → Int → ρ) (h : SwissRounds field eventId x rows)
    (format : info.format = "swiss") (started : info.status ≠ "draft" ∧ info.status ≠ "")
    (complete : pendingUnits x = [])
    (config : normalizeSwissConfig info.config field.participants.length = .ok totalRounds)
    (more : rows.length < totalRounds) (registered : eventId ∈ draws) :
    ∃ x', generateNextRound ratio info draws x = .ok x' := by
  have rounds : x.draw.rounds.length = rows.length := by rw [h.rounds, List.length_map]
  have standings := standingRows_perm ratio x.draw.playUnits x.state.results field.ids
  rw [startRows_ids (show field.ids.Nodup from field.distinct)] at standings
  obtain ⟨pairs, bye, paired, -, -⟩ := pairSwissRound_perfect
    (standings.nodup_iff.mpr (field.distinct.filter _)) (priorPairings x) (byeHistory x)
  obtain ⟨x', ok⟩ : ∃ x', appendRound draws x bye
      (buildSwissRound pairs bye eventId eventId rows.length info.durationSlots) = .ok x' :=
    h.append_ok info.durationSlots registered
  refine ⟨x', ?_⟩
  rw [generateNextRound, if_neg (not_not.mpr format), if_neg (not_or.mpr started),
    if_neg (not_not.mpr complete), h.participants, config]
  dsimp only
  rw [if_neg (by omega), show standingRows ratio x.draw.playUnits x.state.results
    (field.participants.map Participant.id) =
    standingRows ratio x.draw.playUnits x.state.results field.ids from rfl, paired, h.event,
    rounds]
  exact ok

/-! ## The first round -/

theorem start (h : SwissStart field eventId x) : ∃ row, SwissRounds field eventId x [row] := by
  obtain ⟨s, durationSlots, config, unused, generated, registered⟩ := h
  obtain ⟨event, he, draw⟩ := generateSwiss_ok generated
  obtain ⟨row, hrow⟩ : ∃ row, row = buildSwissRound (seedFold field.participants).1
    (seedFold field.participants).2 eventId eventId 0 durationSlots := ⟨_, rfl⟩
  have spec : ∀ u ∈ row, _ := fun u hu => mem_buildSwissRound_spec (hrow ▸ hu)
  obtain ⟨full, odd⟩ := seedFold_perm field.participants
  have plain : PlainRounds eventId eventId [row] := hrow ▸ swissRounds_plain _ _
  rw [← hrow] at draw
  have units : x.draw.playUnits.rows = [row].flatten := by
    rw [draw]
    exact plain.rows_playUnits event field.participants
  have flat : [row].flatten = row := by simp
  obtain ⟨s₁, round, rest, inserted, rounds, walked⟩ := registerDraw_eq_ok registered
  obtain ⟨-, stateRows, results, -⟩ := foldlM_insertPlayUnit inserted
  rw [units, flat] at stateRows
  have drawRounds : x.draw.rounds = [row.map PlayUnit.id] := by rw [draw]; rfl
  rw [drawRounds] at rounds
  cases rounds
  have result : s₁.result = s.result := by
    funext id
    simp [TournamentState.result, results]
  have stored : ∀ u ∈ row, s₁.playUnits.get u.id = some u := fun u hu =>
    Table.get_eq_some_iff.mpr ⟨by rw [stateRows]; exact List.mem_append_right _ hu, rfl⟩
  have unresulted : ∀ u ∈ row, s₁.result u.id = none := by
    intro u hu
    rw [result, (spec u hu).2.2.2.2.2]
    exact (unused 0 _ (Nat.le_refl 0)).2
  have byId : ∀ id ∈ row.map PlayUnit.id, ∀ u, s₁.playUnits.get id = some u → u ∈ row := by
    intro id hid u hu
    obtain ⟨v, hv, rfl⟩ := List.mem_map.mp hid
    rw [stored v hv] at hu
    exact Option.some.inj hu ▸ hv
  obtain ⟨⟨touched, sweeps⟩, ended⟩ := foldlM_autoWalkover
    (fun id hid u hu => (spec u (byId id hid u hu)).1) walked
  have absent : UnusedFrom eventId 1 s₁ := by
    intro r m hr
    obtain ⟨noUnit, noResult⟩ := unused r m (Nat.zero_le r)
    refine ⟨Table.get_eq_none_iff.mpr fun has => ?_, by rw [result]; exact noResult⟩
    rw [Table.Has, stateRows, List.map_append] at has
    rcases List.mem_append.mp has with old | new
    · exact Table.get_eq_none_iff.mp noUnit old
    · obtain ⟨u, hu, same⟩ := List.mem_map.mp new
      have := (roundUnitId_inj ((spec u hu).2.2.2.2.2.symm.trans same)).1
      omega
  refine ⟨row, ⟨?_, ?_, units, by simpa using drawRounds, ?_, ?_, ?_, ?_, ?_, ?_⟩⟩
  · rw [draw]
    exact he
  · rw [draw]
    exact Table.rows_ofRows field.distinct
  · intro r row' hr
    cases r with
    | zero =>
      simp only [List.getElem?_cons_zero, Option.some.injEq] at hr
      exact ⟨_, _, durationSlots, hr ▸ hrow, full, by simpa [SwissField.ids] using odd⟩
    | succ r => simp at hr
  · rw [flat]
    intro u hu
    obtain ⟨steps, run⟩ := sweeps.run
    exact run.invariant (I := fun t => t.playUnits.get u.id = some u)
      (fun t _ t' stored step => by
        obtain ⟨-, -, -, -⟩ := step
        next unit r => exact recordAndPropagate_fixed (spec u hu).1 stored unit r) (stored u hu)
  · rw [flat]
    intro u hu empty
    obtain ⟨free, event, -, ⟨a, sideA⟩, -, -⟩ := spec u hu
    have side : walkoverSide u = some .A := by simp [walkoverSide, sideA, empty]
    -- the only result a sweep gives the unit is its walkover
    obtain ⟨steps, run⟩ := sweeps.run
    have only := run.invariant
      (I := fun t => t.playUnits.get u.id = some u ∧
        (t.result u.id = none ∨ t.result u.id = some (walkover .A)))
      (by
        rintro t _ t' ⟨there, res⟩ ⟨hunit, new, -, decides⟩
        next unit r =>
        refine ⟨recordAndPropagate_fixed free there unit r, ?_⟩
        rw [recordAndPropagate_result]
        by_cases here : u.id = unit.id
        · rw [here, hunit] at there
          cases there
          rcases decides with ⟨side', due, rfl⟩ | ⟨-, impossible⟩
          · rw [side] at due
            cases due
            exact Or.inr (by simp)
          · exact impossible.elim
        · rw [Function.update_of_ne here]
          exact res) ⟨stored u hu, Or.inl (unresulted u hu)⟩
    rcases only.2 with none | some
    · rcases ended with swept | ⟨-, idle⟩
      · have due : dueWalkover x.state [x.draw.event.id] u.id = some (u, .A) :=
          dueWalkover_eq_some.mpr ⟨only.1, none, by simp [free], by
            rw [draw]
            simp [plainDraw, he, event], side⟩
        rw [swept] at due
        cases due
      · rcases idle u.id (List.mem_map_of_mem hu) u (stored u hu) with resulted | sides
        · simp [TournamentState.Resulted, unresulted u hu] at resulted
        · rw [side] at sides
          cases sides
    · exact some
  · rw [flat, hrow, rowByes_buildSwissRound]
    cases (seedFold field.participants).2 <;> simp
  · intro r m hr
    obtain ⟨noUnit, noResult⟩ := absent r m (by simpa using hr)
    have same := sweeps.absent noUnit
    exact ⟨same.1.symm.trans noUnit, same.2.symm.trans noResult⟩
  · have := field.least
    simp only [List.length_singleton, SwissField.ids, List.length_map]
    omega

theorem step [LinearOrder ρ] {ratio : Int → Int → ρ} (h : SwissRounds field eventId x rows)
    (hstep : SwissStep ratio x a x') :
    ∃ rows', SwissRounds field eventId x' rows' := by
  cases hstep with
  | nextRound ok =>
    obtain ⟨row, next⟩ := h.nextRound ok
    exact ⟨_, next⟩
  | @result unit r draws s' affected mem _ both ok =>
    rw [h.units] at mem
    exact ⟨rows, h.recorded mem both rfl (fun _ _ => rfl) (recorded_of_stored (h.stored unit mem) ok)⟩
  | @correction unit r draws s' affected mem _ both _ _ ok =>
    rw [h.units] at mem
    refine ⟨rows, h.recorded (t := popResult x.state unit.id) mem both rfl (fun id ne => ?_)
      (recorded_of_stored (h.stored unit mem) ok)⟩
    exact Assoc.get_erase_of_ne (Ne.symm ne) _
  | elsewhere same =>
    have others : ∀ u ∈ rows.flatten, SameAt u.id x.state _ := fun u hu => by
      rw [(h.unit_spec hu).2.2.2.2.2, ← h.event]
      exact same _ _
    refine ⟨rows, h.of_sameAt (fun u hu => ?_) (fun u hu empty => ?_) fun r m hr => ?_⟩
    · rw [← (others u hu).1]
      exact h.stored u hu
    · rw [← (others u hu).2]
      exact h.walked u hu empty
    · obtain ⟨noUnit, noResult⟩ := h.later r m hr
      have there := same r m
      rw [h.event] at there
      exact ⟨there.1.symm.trans noUnit, there.2.symm.trans noResult⟩

end SwissRounds

/-- **In every session of the event its draw is full rounds with fresh byes.** -/
theorem SwissReached.rounds [LinearOrder ρ] {ratio : Int → Int → ρ} {field : SwissField}
    {eventId : EventId} {x : SwissSession} (h : SwissReached ratio field eventId x) :
    ∃ rows, SwissRounds field eventId x rows := by
  refine h.invariant (I := fun x => ∃ rows, SwissRounds field eventId x rows) ?_ ?_
  · intro x start
    obtain ⟨row, rounds⟩ := SwissRounds.start start
    exact ⟨_, rounds⟩
  · rintro x a x' - ⟨rows, rounds⟩ hstep
    exact rounds.step hstep

/-! ## Playing on -/

/-- A step of somebody who plays the event out: an open unit gets its chosen result, the route is
called with the event's settings. -/
inductive SwissPlays {ρ : Type} [LinearOrder ρ] (ratio : Int → Int → ρ) (info : EventMeta)
    (draws : List EventId) (choice : PlayUnitId → Result) :
    SwissSession → SwissAction → SwissSession → Prop
  | nextRound {x x' : SwissSession} :
    generateNextRound ratio info draws x = .ok x' →
    SwissPlays ratio info draws choice x .nextRound x'
  | result {x : SwissSession} {unit : PlayUnit} {s' : TournamentState}
      {affected : List PlayUnitId} :
    unit ∈ x.draw.playUnits.rows → ¬ x.state.Resulted unit.id → unit.sideA ≠ [] →
    unit.sideB ≠ [] → recordResult x.state draws unit.id (choice unit.id) = .ok (s', affected) →
    SwissPlays ratio info draws choice x (.result unit.id (choice unit.id)) { x with state := s' }

theorem SwissPlays.step {ρ : Type} [LinearOrder ρ] {ratio : Int → Int → ρ}
    {choice : PlayUnitId → Result} {x x' : SwissSession}
    (h : SwissPlays ratio info draws choice x a x') : SwissStep ratio x a x' := by
  cases h with
  | nextRound ok => exact .nextRound ok
  | result mem _ first second ok => exact .result mem first second ok

namespace SwissRounds

variable [LinearOrder ρ] {field : SwissField} {eventId : EventId} {x : SwissSession}
  {rows : List (List PlayUnit)}

theorem mem_pendingUnits (h : SwissRounds field eventId x rows) :
    u ∈ pendingUnits x ↔ u ∈ rows.flatten ∧ ¬ x.state.Resulted u.id := by
  rw [pendingUnits, List.mem_filter, decide_eq_true_eq, h.units]

/-- **Every round can be played.** An open unit has both its sides and takes any result. -/
theorem finishes (ratio : Int → Int → ρ) (info : EventMeta) (choice : PlayUnitId → Result)
    (h : SwissRounds field eventId x rows) (registered : eventId ∈ draws) :
    ∃ acts x', Run (SwissPlays ratio info draws choice) x acts x' ∧
      SwissRounds field eventId x' rows ∧ pendingUnits x' = [] := by
  obtain ⟨n, hn⟩ : ∃ n, n = rows.flatten.countP fun u => ¬ x.state.Resulted u.id := ⟨_, rfl⟩
  induction n using Nat.strong_induction_on generalizing x with
  | h n ih =>
    by_cases done : pendingUnits x = []
    · exact ⟨[], x, .nil x, h, done⟩
    obtain ⟨u, hu⟩ := List.exists_mem_of_ne_nil _ done
    obtain ⟨inside, unresulted⟩ := h.mem_pendingUnits.mp hu
    have both := walkoverSide_eq_none_iff.mp ((h.done inside).resolve_left unresulted)
    obtain ⟨free, event, -⟩ := h.unit_spec inside
    have stored := h.stored u inside
    have recordable : Recordable x.state draws u (choice u.id) := by
      refine ⟨stored, event ▸ registered, by simpa [TournamentState.Resulted] using unresulted, ?_⟩
      rintro (⟨-, empty⟩ | ⟨-, empty⟩)
      · exact both.1 empty
      · exact both.2 empty
    obtain ⟨s', affected, ok, rec⟩ := recordResult_ok recordable
    have next := h.recorded inside both.2 rfl (fun _ _ => rfl) rec
    have fewer : rows.flatten.countP (fun v => ¬ s'.Resulted v.id) < n := by
      rw [hn]
      refine countP_lt_countP ?_ inside (by simpa using unresulted) ?_
      · intro v hv
        rw [decide_eq_true_eq, decide_eq_true_eq]
        intro open'
        by_cases same : v.id = u.id
        · rw [same]
          exact unresulted
        · rw [TournamentState.Resulted,
            (rec.quiet same (h.unit_spec hv).1 (h.stored v hv) (h.done hv)).2]
          exact open'
      · rw [decide_eq_true_eq, not_not, TournamentState.Resulted, (rec.self stored free).2]
        rfl
    obtain ⟨acts, x', run, rounds, all⟩ := ih _ fewer next rfl
    have mem : u ∈ x.draw.playUnits.rows := by
      rw [h.units]
      exact inside
    exact ⟨_, x', .cons (.result mem unresulted both.1 both.2 ok) run, rounds, all⟩

/-- **The event can be played to its last round.** -/
theorem playsOut (ratio : Int → Int → ρ) (choice : PlayUnitId → Result)
    (h : SwissRounds field eventId x rows) (format : info.format = "swiss")
    (started : info.status ≠ "draft" ∧ info.status ≠ "")
    (config : normalizeSwissConfig info.config field.participants.length = .ok totalRounds)
    (within : rows.length ≤ totalRounds) (registered : eventId ∈ draws) :
    ∃ acts x' rows', Run (SwissPlays ratio info draws choice) x acts x' ∧
      SwissRounds field eventId x' rows' ∧ pendingUnits x' = [] ∧ rows'.length = totalRounds := by
  obtain ⟨n, hn⟩ : ∃ n, n = totalRounds - rows.length := ⟨_, rfl⟩
  induction n generalizing x rows with
  | zero =>
    obtain ⟨acts, x', run, rounds, all⟩ := h.finishes ratio info choice registered
    exact ⟨acts, x', rows, run, rounds, all, by omega⟩
  | succ n ih =>
    obtain ⟨acts, y, run, rounds, all⟩ := h.finishes ratio info choice registered
    obtain ⟨z, ok⟩ := rounds.nextRound_ok ratio format started all config (by omega) registered
    obtain ⟨row, longer⟩ := rounds.nextRound ok
    obtain ⟨acts', x', rows', run', rounds', all', length⟩ :=
      ih longer (by rw [List.length_append, List.length_singleton]; omega)
        (by rw [List.length_append, List.length_singleton]; omega)
    exact ⟨_, x', rows', run.append (.cons (.nextRound ok) run'), rounds', all', length⟩

end SwissRounds

/-! ## The guarantee -/

/-- Each round has every participant once and one bye exactly when the field is odd, nobody has two
byes, and no id is used twice. -/
structure FairRounds (ids : List ParticipantId) (x : SwissSession) (rows : List (List PlayUnit)) :
    Prop where
  units : x.draw.playUnits.rows = rows.flatten
  rounds : x.draw.rounds = rows.map fun row => row.map PlayUnit.id
  once : ∀ row ∈ rows, (rowMembers row).Perm ids
  bye : ∀ row ∈ rows, (rowByes row).length = ids.length % 2
  fresh : (rowByes rows.flatten).Nodup
  distinct : (rows.flatten.map PlayUnit.id).Nodup

/-- What a Swiss draw with these rounds promises: they are fair, the next round waits for the
results of this one, and once they are in, one more fair round is appended. -/
structure FairSwiss {ρ : Type} [LinearOrder ρ] (ratio : Int → Int → ρ) (ids : List ParticipantId)
    (x : SwissSession) (rows : List (List PlayUnit)) : Prop extends FairRounds ids x rows where
  waits : pendingUnits x ≠ [] → ∀ info draws x', generateNextRound ratio info draws x ≠ .ok x'
  goesOn : pendingUnits x = [] → ∀ info draws totalRounds, info.format = "swiss" →
    info.status ≠ "draft" ∧ info.status ≠ "" → x.draw.event.id ∈ draws →
    normalizeSwissConfig info.config ids.length = .ok totalRounds → rows.length < totalRounds →
    ∃ x' row, generateNextRound ratio info draws x = .ok x' ∧ FairRounds ids x' (rows ++ [row])

theorem SwissRounds.fair {field : SwissField} {eventId : EventId} {x : SwissSession}
    {rows : List (List PlayUnit)} (h : SwissRounds field eventId x rows) :
    FairRounds field.ids x rows := by
  have row_spec : ∀ row ∈ rows, (rowMembers row).Perm field.ids ∧
      (rowByes row).length = field.ids.length % 2 := by
    intro row hrow
    obtain ⟨r, hr⟩ := List.mem_iff_getElem?.mp hrow
    obtain ⟨pairs, bye, durationSlots, rfl, full, odd⟩ := h.built r row hr
    rw [rowMembers_buildSwissRound, rowByes_buildSwissRound]
    refine ⟨List.perm_append_comm.trans full, ?_⟩
    cases bye with
    | none =>
      have even : ¬ field.ids.length % 2 = 1 := fun one => by simpa using odd.mpr one
      simp only [Option.toList_none, List.length_nil]
      omega
    | some id =>
      have one := odd.mp rfl
      simp [one]
  refine ⟨h.units, h.rounds, fun row hrow => (row_spec row hrow).1,
    fun row hrow => (row_spec row hrow).2, h.fresh, ?_⟩
  rw [← h.units]
  exact x.draw.playUnits.unique

/-- **Every Swiss run is fair**, whatever the results, their corrections, and how the ratios
compare. -/
theorem swissReached_fair {ρ : Type} [LinearOrder ρ] {ratio : Int → Int → ρ} {field : SwissField}
    {eventId : EventId} {x : SwissSession} (h : SwissReached ratio field eventId x) :
    ∃ rows, FairSwiss ratio field.ids x rows := by
  obtain ⟨rows, rounds⟩ := h.rounds
  refine ⟨rows, rounds.fair, fun pending info draws => generateNextRound_incomplete ratio pending, ?_⟩
  intro complete info draws totalRounds format started registered config more
  rw [rounds.event] at registered
  rw [show field.ids.length = field.participants.length by simp [SwissField.ids]] at config
  obtain ⟨x', ok⟩ := rounds.nextRound_ok ratio format started complete config more registered
  obtain ⟨row, next⟩ := rounds.nextRound ok
  exact ⟨x', row, ok, next.fair⟩

def trio : SwissField where
  participants := [{ id := "ann", name := "Ann" }, { id := "bea", name := "Bea" },
    { id := "cem", name := "Cem" }]
  least := by decide
  distinct := by decide
  real := by decide

def trioDraw : Draw :=
  match generateSwiss trio.participants "SW" "SW" 1 [] with
  | .ok d => d
  | .error _ => plainDraw { id := "SW" } [] []

theorem trio_start : ∃ s, SwissStart trio "SW" { draw := trioDraw, state := s } := by
  obtain ⟨s, h⟩ := exists_ok_of_toOption
    (show (registerDraw {} trioDraw).toOption.isSome by decide)
  exact ⟨s, {}, 1, [], fun _ _ _ => ⟨rfl, rfl⟩, rfl, h⟩

def trioInfo : EventMeta := { format := "swiss", status := "started" }

/-- The first round is played, the second one is drawn. -/
theorem swissReached_fair_trio : ∃ x x' rows, pendingUnits x = [] ∧
    generateNextRound winRatio trioInfo ["SW"] x = .ok x' ∧ rows.length = 2 ∧
    FairSwiss winRatio trio.ids x' rows := by
  obtain ⟨s, start⟩ := trio_start
  obtain ⟨row₀, first⟩ := SwissRounds.start start
  obtain ⟨acts, x, run, played, complete⟩ := first.finishes winRatio trioInfo
    (fun _ => { winnerSide := .A }) (List.mem_singleton_self "SW")
  have reached : SwissReached winRatio trio "SW" x :=
    Reachable.run (.init start) (run.mono fun _ _ _ => SwissPlays.step)
  obtain ⟨rows₁, fair₁⟩ := swissReached_fair reached
  have one : rows₁.length = 1 := by
    have := congrArg List.length (fair₁.rounds.symm.trans played.rounds)
    simpa using this
  obtain ⟨x', row, ok, drawn⟩ := fair₁.goesOn complete trioInfo ["SW"] 2 rfl (by decide)
    (played.event ▸ List.mem_singleton_self "SW") rfl (by omega)
  obtain ⟨rows, fair⟩ := swissReached_fair (reached.step (.nextRound ok))
  have two : rows.length = (rows₁ ++ [row]).length := by
    have := congrArg List.length (fair.rounds.symm.trans drawn.rounds)
    simpa only [List.length_map] using this
  exact ⟨x, x', rows, complete, ok, by simpa [one] using two, fair⟩

/-! ## The last round -/

/-- **A Swiss event comes to its end.** From every session of a started event within its number of
rounds, and whatever each match is to be decided with, results for the open units and calls of the
route lead to that number of rounds, each with everyone once and with a result for every unit; there
the route answers that all rounds are generated. -/
theorem swissReached_playsOut {ρ : Type} [LinearOrder ρ] {ratio : Int → Int → ρ}
    {field : SwissField} {eventId : EventId} {x : SwissSession}
    (h : SwissReached ratio field eventId x) (choice : PlayUnitId → Result) {info : EventMeta}
    {totalRounds : Nat} (format : info.format = "swiss")
    (started : info.status ≠ "draft" ∧ info.status ≠ "")
    (config : normalizeSwissConfig info.config field.participants.length = .ok totalRounds)
    (within : x.draw.rounds.length ≤ totalRounds) (registered : eventId ∈ draws) :
    ∃ acts x' rows, Run (SwissPlays ratio info draws choice) x acts x' ∧
      SwissReached ratio field eventId x' ∧ SwissRounds field eventId x' rows ∧
      rows.length = totalRounds ∧ pendingUnits x' = [] ∧
      generateNextRound ratio info draws x' = .error (.allGenerated totalRounds) := by
  obtain ⟨rows, rounds⟩ := h.rounds
  have here : x.draw.rounds.length = rows.length := by rw [rounds.rounds, List.length_map]
  obtain ⟨acts, x', rows', run, rounds', all, length⟩ :=
    rounds.playsOut ratio choice format started config (here ▸ within) registered
  refine ⟨acts, x', rows', run, h.run (run.mono fun _ _ _ => SwissPlays.step), rounds', length, all,
    ?_⟩
  have there : x'.draw.rounds.length = totalRounds := by
    rw [rounds'.rounds, List.length_map, length]
  rw [generateNextRound, if_neg (not_not.mpr format), if_neg (not_or.mpr started),
    if_neg (not_not.mpr all), rounds'.participants, config]
  dsimp only
  rw [if_pos there.ge]

theorem swissReached_playsOut_trio : ∃ s acts x', Run (SwissPlays winRatio trioInfo ["SW"]
      fun _ => { winnerSide := .A }) { draw := trioDraw, state := s } acts x' ∧
    x'.draw.rounds.length = 2 ∧ pendingUnits x' = [] := by
  obtain ⟨s, start⟩ := trio_start
  have reached : SwissReached winRatio trio "SW" { draw := trioDraw, state := s } := .init start
  obtain ⟨acts, x', rows, run, -, rounds, length, all, -⟩ :=
    swissReached_playsOut reached (fun _ => { winnerSide := .A })
      (show trioInfo.format = "swiss" from rfl) (by decide)
      (show normalizeSwissConfig trioInfo.config 3 = .ok 2 from rfl)
      (show trioDraw.rounds.length ≤ 2 by decide) (List.mem_singleton_self "SW")
  exact ⟨s, acts, x', run, by rw [rounds.rounds, List.length_map, length], all⟩

end Brackets
