import ShuttleWorks.Brackets.Sweep

/-! Runs of a bracket: draws are registered, then results are recorded one by
one. In every state of a run the units are what the draw settles to, every
result is a walkover or one that was recorded, and no walkover is due. Such a
state is determined by the recorded results. -/

namespace Brackets
open Lib

variable {o : List PlayUnit} {allowed allowed' : PlayUnitId → Result → Prop} {draws : List EventId}
  {s s' : TournamentState} {a : PlayUnitId × Result} {r : Result}
  {touched affected : List PlayUnitId}

/-! ## Sound states -/

/-- The units are settled and every result is the unit's walkover or an allowed one. -/
structure Sound (o : List PlayUnit) (allowed : PlayUnitId → Result → Prop)
    (s : TournamentState) : Prop where
  consistent : Consistent o s.playUnits s.result
  explained : ∀ id u r, s.playUnits.get id = some u → s.result id = some r → Decides allowed u r

theorem Sound.advance (wf : WellFormed o) (hs : Sound o allowed s) (h : Advance allowed s a s') :
    Sound o allowed s' := by
  obtain ⟨hu, new, ready, decides⟩ := h
  next unit r =>
  refine ⟨?_, ?_⟩
  · rw [recordAndPropagate_result, recordAndPropagate_playUnits]
    exact hs.consistent.record wf hu new ready r
  · intro id u r' hu' hr'
    rw [recordAndPropagate_playUnits] at hu'
    rw [recordAndPropagate_result] at hr'
    by_cases e : id = unit.id
    · subst e
      have self := hs.consistent.get_receive new r (Or.inr (by
        intro u hu'' d hd
        rw [hu] at hu''
        cases hu''
        exact ready d hd))
      rw [self, hu] at hu'
      rw [Function.update_self] at hr'
      cases hu'
      cases hr'
      exact decides
    · rw [Function.update_of_ne e] at hr'
      rw [hs.consistent.get_receive new r (Or.inl (by simp [hr']))] at hu'
      exact hs.explained id u r' hu' hr'

theorem Advance.keeps (h : Advance allowed s a s') {id : PlayUnitId} (hr : s.result id = some r) :
    s'.result id = some r := by
  obtain ⟨hu, new, ready, decides⟩ := h
  next unit r' =>
  have : id ≠ unit.id := by
    rintro rfl
    simp [new] at hr
  rw [recordAndPropagate_result, Function.update_of_ne this]
  exact hr

theorem Sound.run (wf : WellFormed o) {steps : List (PlayUnitId × Result)} (hs : Sound o allowed s)
    (h : Run (Advance allowed) s steps s') : Sound o allowed s' :=
  h.invariant (fun _ _ _ hs ha => hs.advance wf ha) hs

theorem Sound.sweeps (wf : WellFormed o) (hs : Sound o allowed s) (h : Sweeps draws s s' touched) :
    Sound o allowed s' := by
  obtain ⟨steps, hrun⟩ := h.run
  refine hs.run wf (?_ : Run (Advance allowed) s steps s')
  clear hs h
  induction hrun with
  | nil s => exact .nil s
  | cons ha _ ih => exact .cons (ha.mono (fun _ _ h => h.elim)) ih

theorem Sweeps.keeps (h : Sweeps draws s s' touched) {id : PlayUnitId} (hr : s.result id = some r) :
    s'.result id = some r := by
  obtain ⟨steps, hrun⟩ := h.run
  exact hrun.invariant (I := fun s => s.result id = some r) (fun _ _ _ hs ha => ha.keeps hs) hr

/-! ## Recording one result -/

/-- The unit can be played: both sides are known, its feeders are done and it has no result. -/
structure Playable (s : TournamentState) (unit : PlayUnit) : Prop where
  stored : s.playUnits.get unit.id = some unit
  sides : unit.sideA ≠ [] ∧ unit.sideB ≠ []
  new : s.result unit.id = none
  ready : ∀ d ∈ unit.dependencies, s.Resulted d

/-- A call of `record_result` on a unit that can be played. -/
inductive RecordStep (draws : List EventId) :
    TournamentState → PlayUnitId × Result → TournamentState → Prop
  | record {s s' : TournamentState} {unit : PlayUnit} {r : Result} {affected : List PlayUnitId} :
    Playable s unit → recordResult s draws unit.id r = .ok (s', affected) →
    RecordStep draws s (unit.id, r) s'

instance (s : TournamentState) (unit : PlayUnit) : Decidable (Playable s unit) :=
  decidable_of_iff (s.playUnits.get unit.id = some unit ∧ (unit.sideA ≠ [] ∧ unit.sideB ≠ []) ∧
      s.result unit.id = none ∧ ∀ d ∈ unit.dependencies, s.Resulted d)
    ⟨fun ⟨a, b, c, d⟩ => ⟨a, b, c, d⟩, fun h => ⟨h.stored, h.sides, h.new, h.ready⟩⟩

/-- One call, refused unless the unit can be played. -/
def recordNext (draws : List EventId) (s : TournamentState) (call : PlayUnitId × Result) :
    Option TournamentState :=
  match s.playUnits.get call.1 with
  | none => none
  | some unit =>
    if Playable s unit then (recordResult s draws call.1 call.2).toOption.map Prod.fst else none

def replay (draws : List EventId) (s : TournamentState) (calls : List (PlayUnitId × Result)) :
    Option TournamentState :=
  calls.foldlM (recordNext draws) s

theorem recordNext_step {call : PlayUnitId × Result} (h : recordNext draws s call = some s') :
    RecordStep draws s call s' := by
  unfold recordNext at h
  split at h
  · cases h
  next unit hu =>
  split at h
  · next playable =>
    obtain ⟨⟨out, affected⟩, hout, rfl⟩ := Option.map_eq_some_iff.mp h
    have key : unit.id = call.1 := Table.key_of_get hu
    have ok : recordResult s draws unit.id call.2 = .ok (out, affected) := by
      rw [key]
      cases hr : recordResult s draws call.1 call.2 with
      | error e =>
        rw [hr] at hout
        cases hout
      | ok o =>
        rw [hr] at hout
        cases hout
        rfl
    have step := RecordStep.record playable ok
    rw [key] at step
    exact step
  · cases h

theorem recordNext_of_step {call : PlayUnitId × Result} (h : RecordStep draws s call s') :
    recordNext draws s call = some s' := by
  obtain ⟨playable, ok⟩ := h
  simp only [recordNext, playable.stored, if_pos playable, ok]
  rfl

theorem replay_eq_some {calls : List (PlayUnitId × Result)} :
    replay draws s calls = some s' ↔ Run (RecordStep draws) s calls s' := by
  induction calls generalizing s with
  | nil =>
    constructor
    · intro h
      cases h
      exact .nil _
    · intro h
      cases h
      rfl
  | cons call calls ih =>
    rw [replay, List.foldlM_cons]
    constructor
    · intro h
      cases hn : recordNext draws s call with
      | none =>
        rw [hn] at h
        cases h
      | some s₁ =>
        rw [hn] at h
        exact .cons (recordNext_step hn) (ih.mp h)
    · intro h
      cases h with
      | cons step rest =>
        rw [recordNext_of_step step]
        exact ih.mpr rest

theorem recorded_of_ok {unit : PlayUnit} (hp : Playable s unit)
    (h : recordResult s draws unit.id r = .ok (s', affected)) :
    Recorded s draws unit r s' affected := by
  obtain ⟨unit', key, hr, hrec⟩ := recordResult_eq_ok h
  have : unit' = unit := by
    have stored := hr.stored
    rw [key, hp.stored] at stored
    exact (Option.some.inj stored).symm
  exact this ▸ hrec

theorem Playable.recordable {unit : PlayUnit} (hp : Playable s unit) (draw : unit.eventId ∈ draws)
    (r : Result) : Recordable s draws unit r where
  stored := hp.stored
  draw := draw
  new := hp.new
  winner := by
    rintro (⟨-, h⟩ | ⟨-, h⟩)
    · exact hp.sides.1 h
    · exact hp.sides.2 h

theorem Playable.advance {unit : PlayUnit} (hp : Playable s unit) (ha : allowed unit.id r) :
    Advance allowed s (unit.id, r) (recordAndPropagate s unit r).1 :=
  .store hp.stored hp.new hp.ready (Or.inr ⟨walkoverSide_eq_none_iff.mpr hp.sides, ha⟩)

theorem Sound.recorded (wf : WellFormed o) {unit : PlayUnit} (hs : Sound o allowed s)
    (hp : Playable s unit) (ha : allowed unit.id r) (h : Recorded s draws unit r s' affected) :
    Sound o allowed s' := by
  obtain ⟨touched, sweeps, -⟩ := h.sweeps
  exact (hs.advance wf (hp.advance ha)).sweeps wf sweeps

theorem Recorded.result {unit : PlayUnit} {r : Result} {affected : List PlayUnitId}
    (h : Recorded s draws unit r s' affected) : s'.result unit.id = some r := by
  obtain ⟨touched, sweeps, -⟩ := h.sweeps
  exact sweeps.keeps (by simp)

theorem Recorded.keeps {unit : PlayUnit} (h : Recorded s draws unit r s' affected)
    (new : s.result unit.id = none) {id : PlayUnitId} {r' : Result} (hr : s.result id = some r') :
    s'.result id = some r' := by
  obtain ⟨touched, sweeps, -⟩ := h.sweeps
  refine sweeps.keeps ?_
  have : id ≠ unit.id := by
    rintro rfl
    simp [new] at hr
  rw [recordAndPropagate_result, Function.update_of_ne this]
  exact hr

theorem Sound.advance_kept (hs : Sound o allowed s) (h : Advance allowed s a s') {id : PlayUnitId}
    (resulted : s.Resulted id) :
    s'.playUnits.get id = s.playUnits.get id := by
  obtain ⟨hu, new, ready, decides⟩ := h
  rw [recordAndPropagate_playUnits]
  exact hs.consistent.get_receive new _ (Or.inl resulted)

theorem Sound.recorded_self (wf : WellFormed o) {unit : PlayUnit} (hs : Sound o allowed s)
    (hp : Playable s unit) (ha : allowed unit.id r) (h : Recorded s draws unit r s' affected) :
    s'.playUnits.get unit.id = some unit := by
  obtain ⟨touched, sweeps, -⟩ := h.sweeps
  obtain ⟨steps, hrun⟩ := sweeps.run
  have first : (recordAndPropagate s unit r).1.playUnits.get unit.id = some unit := by
    rw [recordAndPropagate_playUnits, hs.consistent.get_receive hp.new r (Or.inr ?_), hp.stored]
    intro u hu d hd
    rw [hp.stored] at hu
    cases hu
    exact hp.ready d hd
  refine (hrun.invariant (I := fun t => Sound o allowed t ∧ t.result unit.id = some r ∧
    t.playUnits.get unit.id = some unit) ?_ ⟨hs.advance wf (hp.advance ha), by simp, first⟩).2.2
  rintro t a t' ⟨sound, res, stored⟩ hstep
  have step : Advance allowed t a t' := hstep.mono (fun _ _ h => h.elim)
  refine ⟨sound.advance wf step, step.keeps res, ?_⟩
  rw [sound.advance_kept step (by rw [TournamentState.Resulted, res]; rfl), stored]

theorem Recorded.known {unit : PlayUnit} (h : Recorded s draws unit r s' affected) {id : PlayUnitId}
    (hid : id ∈ affected) :
    s'.playUnits.Has id := by
  obtain ⟨touched, sweeps, rfl⟩ := h.sweeps
  have there : (recordAndPropagate s unit r).1.playUnits.Has id := by
    rcases mem_dedupe.mp hid with hid | hid
    · have has := recordAndPropagate_known hid
      rw [Table.Has, ← recordAndPropagate_ids s unit r] at has
      exact has
    · exact sweeps.known id hid
  rw [Table.Has, sweeps.ids]
  exact there

/-! ## Recorded results determine the state -/

/-- **A settled state is determined by what was recorded.** On a set of units closed under
dependencies, two sound and swept states whose recorded results agree show every unit alike. -/
theorem Sound.unique (wf : WellFormed o) {S : PlayUnitId → Prop}
    (closed : ∀ u ∈ o, S u.id → ∀ d ∈ u.dependencies, S d)
    (events : ∀ u ∈ o, u.eventId ∈ draws) (hs : Sound o allowed s) (hs' : Sound o allowed' s')
    (swept : Swept draws s) (swept' : Swept draws s')
    (agree : ∀ id r, S id → allowed id r → s'.result id = some r)
    (agree' : ∀ id r, S id → allowed' id r → s.result id = some r) :
    ∀ u ∈ o, S u.id → SameAt u.id s s' := by
  refine wf.ordered.induction (P := fun id => S id → SameAt id s s') (by simp) ?_
  intro u hu ih hS
  have units : s.playUnits.get u.id = s'.playUnits.get u.id := by
    rw [hs.consistent.get hu, hs'.consistent.get hu]
    refine congrArg some (settleUnit_congr (wf.shape u hu) (fun d hd => ?_))
    obtain ⟨same, res⟩ := ih d hd (closed u hu hS d hd)
    exact ⟨res, same⟩
  -- a result of the one state is a result of the other
  have carry : ∀ {t t' : TournamentState} {al al' : PlayUnitId → Result → Prop},
      Sound o al t → Sound o al' t' → Swept draws t' →
      t.playUnits.get u.id = t'.playUnits.get u.id →
      (∀ d ∈ u.dependencies, t.result d = t'.result d) →
      (∀ r, al u.id r → t'.result u.id = some r) →
      ∀ r, t.result u.id = some r → t'.result u.id = some r := by
    intro t t' al al' ht ht' hsw same deps given r hr
    have stored := ht.consistent.get hu
    rcases ht.explained u.id _ r stored hr with ⟨side, hw, rfl⟩ | ⟨-, ha⟩
    · rw [same] at stored
      cases hr' : t'.result u.id with
      | some r' =>
        rcases ht'.explained u.id _ r' stored hr' with ⟨side', hw', rfl⟩ | ⟨hn, -⟩
        · rw [hw] at hw'
          cases hw'
          rfl
        · rw [hw] at hn
          cases hn
      | none =>
        have due : dueWalkover t' draws u.id = some (settleUnit t.playUnits t.result u, side) := by
          refine dueWalkover_eq_some.mpr ⟨stored, hr', ?_, events u hu, hw⟩
          intro d hd
          rw [TournamentState.Resulted, ← deps d hd]
          exact ht.consistent.supported u hu (by simp [hr]) d hd
        rw [hsw] at due
        cases due
    · exact given r ha
  refine ⟨units, ?_⟩
  have deps : ∀ d ∈ u.dependencies, s.result d = s'.result d := fun d hd =>
    (ih d hd (closed u hu hS d hd)).2
  have there := carry hs hs' swept' units deps (fun r => agree u.id r hS)
  have back := carry hs' hs swept units.symm (fun d hd => (deps d hd).symm)
    (fun r => agree' u.id r hS)
  ext r
  exact ⟨there r, back r⟩

end Brackets
