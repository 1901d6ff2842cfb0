import ShuttleWorks.Brackets.ImportedRows

/-! Registering a draw beside others. Whatever else the state holds, the units of the new draw
are settled by the walkovers of its byes, no further walkover is due among them, and nothing
else changed. -/

namespace Brackets
open Lib

variable {o : List PlayUnit} {s s' : TournamentState} {units units' : PlayUnits}
  {res res' : PlayUnitId → Option Result} {u : PlayUnit} {touched : List PlayUnitId}

/-- Rounds of one event in which every unit stands behind those it depends on, and those of
round 0 depend on none. -/
structure LiveRows (eventId : EventId) (rows : List (List PlayUnit)) : Prop where
  unique : (rows.flatten.map PlayUnit.id).Nodup
  event : ∀ r m u, At rows r m u → u.eventId = eventId
  shape : ∀ r m u, At rows r m u → u.Concrete ∨ u.Waiting
  before : ∀ r m u, At rows r m u → ∀ d ∈ u.dependencies, Before rows r m d
  free : ∀ r m u, At rows r m u → (u.dependencies = [] ↔ r = 0)

variable {rows : List (List PlayUnit)}

theorem LiveRows.wellFormed {eventId : EventId} (h : LiveRows eventId rows) :
    WellFormed rows.flatten where
  unique := h.unique
  shape := by
    intro u hu
    obtain ⟨r, m, hu⟩ := mem_flatten_iff_at.mp hu
    exact h.shape r m u hu
  sameEvent := by
    intro u hu v hv _
    obtain ⟨r, m, hu⟩ := mem_flatten_iff_at.mp hu
    obtain ⟨r', m', hv⟩ := mem_flatten_iff_at.mp hv
    rw [h.event r m u hu, h.event r' m' v hv]
  ordered := Ordered.flatten_of_before fun r m u hu d hd => .inr (h.before r m u hu d hd)

theorem mem_dependencies_of_slot (shape : u.Concrete ∨ u.Waiting) {X : PlayUnit.Place}
    {f : PlayUnitId} {take : FeederTake} (slot : u.slot X = .feeder f take) :
    f ∈ u.dependencies := by
  rcases shape with ⟨-, ⟨p, hp⟩, q, hq⟩ | ⟨-, -, ⟨f', hf, t, ha⟩, g, hg, t', hb⟩
  · cases X
    · rw [PlayUnit.slot, hp] at slot
      cases slot
    · rw [PlayUnit.slot, hq] at slot
      cases slot
  · cases X
    · rw [PlayUnit.slot, ha] at slot
      cases slot
      exact hf
    · rw [PlayUnit.slot, hb] at slot
      cases slot
      exact hg

/-! ## Settled by walkovers -/

/-- The units are settled by these results, which are walkovers that had everything they depend
on. -/
structure WalkedOver (o : List PlayUnit) (units : PlayUnits) (res : PlayUnitId → Option Result) :
    Prop where
  settled : ∀ u ∈ o, units.get u.id = some (settleUnit units res u)
  supported : ∀ u ∈ o, (res u.id).isSome → ∀ d ∈ u.dependencies, (res d).isSome
  walkovers : ∀ u ∈ o, ∀ r, res u.id = some r → IsWalkover (settleUnit units res u) r

namespace WalkedOver

theorem congr (wf : WellFormed o) (h : WalkedOver o units res)
    (same : ∀ u ∈ o, units'.get u.id = units.get u.id ∧ res' u.id = res u.id) :
    WalkedOver o units' res' := by
  have closed : ∀ u ∈ o, ∀ d ∈ u.dependencies, units'.get d = units.get d ∧ res' d = res d := by
    intro u hu d hd
    obtain ⟨v, hv, rfl⟩ := wf.closed hu hd
    exact same v hv
  have settles : ∀ u ∈ o, settleUnit units' res' u = settleUnit units res u := fun u hu =>
    settleUnit_congr (wf.shape u hu) fun d hd =>
      ⟨(closed u hu d hd).2, (closed u hu d hd).1⟩
  refine ⟨fun u hu => ?_, fun u hu hr d hd => ?_, fun u hu r hr => ?_⟩
  · rw [(same u hu).1, settles u hu]
    exact h.settled u hu
  · rw [(same u hu).2] at hr
    rw [(closed u hu d hd).2]
    exact h.supported u hu hr d hd
  · rw [(same u hu).2] at hr
    rw [settles u hu]
    exact h.walkovers u hu r hr

theorem fresh (wf : WellFormed o) (stored : ∀ u ∈ o, units.get u.id = some u)
    (none : ∀ u ∈ o, res u.id = none) : WalkedOver o units res := by
  have base := Consistent.fresh wf (show (⟨o, wf.unique⟩ : PlayUnits).rows = o from rfl)
  have plain : WalkedOver o ⟨o, wf.unique⟩ fun _ => Option.none :=
    ⟨fun u hu => base.get hu, fun _ _ hr => absurd hr (by simp), fun _ _ _ hr => nomatch hr⟩
  refine plain.congr wf fun u hu => ⟨?_, none u hu⟩
  rw [stored u hu]
  exact (Table.get_eq_some_iff.mpr ⟨hu, rfl⟩).symm

theorem receive_eq {recorded : PlayUnit} (r : Result) (new : res recorded.id = none)
    (deps : ∀ d ∈ u.dependencies, (res d).isSome) :
    receive recorded r (settleUnit units res u) = settleUnit units res u := by
  unfold receive
  rw [if_neg]
  rintro ⟨-, hd, -⟩
  have := deps recorded.id hd
  rw [new] at this
  cases this

theorem advance (wf : WellFormed o) (h : WalkedOver o s.playUnits s.result)
    {a : PlayUnitId × Result} (step : Advance (fun _ _ => False) s a s') :
    WalkedOver o s'.playUnits s'.result := by
  obtain ⟨hu, new, ready, decides⟩ := step
  next unit r =>
  have walkover : IsWalkover unit r := by
    rcases decides with walkover | ⟨-, never⟩
    · exact walkover
    · exact never.elim
  rw [recordAndPropagate_playUnits, recordAndPropagate_result]
  by_cases mem : unit.id ∈ o.map PlayUnit.id
  · obtain ⟨v, hv, key⟩ := List.mem_map.mp mem
    have own : settleUnit s.playUnits s.result v = unit := by
      have stored := h.settled v hv
      rw [key, hu] at stored
      exact (Option.some.inj stored).symm
    have kept : ∀ u ∈ o, (∀ d ∈ u.dependencies, (s.result d).isSome) →
        (s.playUnits.update (receive unit r) (receive_id unit r)).get u.id =
          s.playUnits.get u.id := by
      intro u hu' deps
      rw [Table.get_update, h.settled u hu', Option.map_some, receive_eq r new deps]
    have self : (s.playUnits.update (receive unit r) (receive_id unit r)).get unit.id =
        some unit := by
      rw [← hu, ← key]
      apply kept v hv
      intro d hd
      exact ready d (own ▸ hd)
    have settled : ∀ u ∈ o, (s.playUnits.update (receive unit r) (receive_id unit r)).get u.id =
        some (settleUnit (s.playUnits.update (receive unit r) (receive_id unit r))
          (Function.update s.result unit.id (some r)) u) := by
      intro u hu'
      rw [Table.get_update, h.settled u hu', Option.map_some]
      refine congrArg some (receive_settleUnit (wf.shape u hu') (fun hd => ?_) new self ?_)
      · rw [← own, settleUnit_eventId]
        exact (wf.sameEvent u hu' v hv (key ▸ hd)).symm
      · intro X id take result hslot hres
        obtain ⟨w, hw, rfl⟩ := wf.closed hu' (mem_dependencies_of_slot (wf.shape u hu') hslot)
        rw [kept w hw fun d hd => h.supported w hw (by simp [hres]) d hd]
    refine ⟨settled, ?_, ?_⟩
    · intro u hu' hr d hd
      rw [Function.update_apply] at hr ⊢
      split
      · rfl
      · split at hr
        · next same =>
          obtain rfl := wf.eq_of_id_eq hu' hv (same.trans key.symm)
          exact ready d (own ▸ hd)
        · exact h.supported u hu' hr d hd
    · intro u hu' r' hr
      have stored := settled u hu'
      rw [Function.update_apply] at hr
      split at hr
      · next same =>
        cases hr
        rw [same, self] at stored
        rw [← Option.some.inj stored]
        exact walkover
      · rw [kept u hu' fun d hd => h.supported u hu' (by simp [hr]) d hd, h.settled u hu'] at stored
        rw [← Option.some.inj stored]
        exact h.walkovers u hu' r' hr
  · refine h.congr wf fun u hu' => ⟨?_, ?_⟩
    · rw [Table.get_update, h.settled u hu', Option.map_some, receive, if_neg]
      rintro ⟨-, hd, -⟩
      obtain ⟨v, hv, e⟩ := wf.closed hu' hd
      exact mem (e ▸ List.mem_map_of_mem hv)
    · rw [Function.update_of_ne]
      exact fun e => mem (e ▸ List.mem_map_of_mem hu')

end WalkedOver

/-! ## Registration -/

def Known (s : TournamentState) : Prop := ∀ id, s.Resulted id → s.playUnits.Has id

theorem Known.recordAndPropagate (h : Known s) {unit : PlayUnit} (r : Result)
    (stored : s.playUnits.get unit.id = some unit) : Known (recordAndPropagate s unit r).1 := by
  intro id resulted
  rw [Table.Has, recordAndPropagate_ids]
  rw [TournamentState.Resulted, recordAndPropagate_result, Function.update_apply] at resulted
  split at resulted
  · next same =>
    subst same
    exact Table.has_iff.mpr ⟨unit, Table.mem_of_get stored, rfl⟩
  · exact h id resulted

theorem Known.sweeps {draws : List EventId} (h : Known s) (sweeps : Sweeps draws s s' touched) :
    Known s' := by
  obtain ⟨steps, run⟩ := sweeps.run
  refine run.invariant (I := Known) ?_ h
  rintro t _ _ known ⟨stored, -, -, -⟩
  exact known.recordAndPropagate _ stored

/-- What registering a draw leaves of the rest and of itself. -/
structure Registered (s s' : TournamentState) (d : Draw) : Prop where
  ids : s'.playUnits.rows.map PlayUnit.id =
    s.playUnits.rows.map PlayUnit.id ++ d.playUnits.rows.map PlayUnit.id
  new : ∀ u ∈ d.playUnits.rows, ¬ s.playUnits.Has u.id
  others : ∀ id, s.playUnits.Has id → SameAt id s s'
  known : Known s'
  assignments : s'.assignments = s.assignments

section

variable {d : Draw} {round : List PlayUnitId} {participants : List Participant}

theorem registered_of_sweeps {s₁ : TournamentState} (known : Known s)
    (events : ∀ u ∈ s.playUnits.rows, u.eventId ≠ d.event.id)
    (inserted : d.playUnits.rows.foldlM insertPlayUnit s = .ok s₁)
    (sweeps : Sweeps [d.event.id] s₁ s' touched) : Registered s s' d := by
  obtain ⟨new, rows, results, assigned⟩ := foldlM_insertPlayUnit inserted
  have same : ∀ id, s.playUnits.Has id → SameAt id s s₁ := by
    intro id has
    obtain ⟨u, hu, rfl⟩ := Table.has_iff.mp has
    have stored := Table.get_eq_some_iff.mpr ⟨hu, rfl⟩
    refine ⟨by rw [stored, Table.get_of_rows_append rows stored], ?_⟩
    simp [TournamentState.result, results]
  refine ⟨by rw [sweeps.ids, rows, List.map_append], new, ?_, ?_, ?_⟩
  · intro id has
    obtain ⟨u, hu, rfl⟩ := Table.has_iff.mp has
    have stored := Table.get_eq_some_iff.mpr ⟨hu, rfl⟩
    refine (same u.id has).trans (sweeps.others u.id u (Table.get_of_rows_append rows stored) ?_)
    simpa using events u hu
  · refine Known.sweeps ?_ sweeps
    intro id resulted
    rw [TournamentState.Resulted, TournamentState.result, results] at resulted
    rw [Table.Has, rows, List.map_append]
    exact List.mem_append_left _ (known id resulted)
  · rw [sweeps.assignments, assigned]

/-- **A live draw beside others.** Its units are settled by walkovers and none is due. -/
theorem registerDraw_walkedOver {eventId : EventId} (live : LiveRows eventId rows) {event : Event}
    (he : event.id = eventId) (known : Known s)
    (events : ∀ u ∈ s.playUnits.rows, u.eventId ≠ eventId)
    (h : registerDraw s (plainDraw event participants rows) = .ok s') :
    Registered s s' (plainDraw event participants rows) ∧
      WalkedOver rows.flatten s'.playUnits s'.result ∧
      ∀ u ∈ rows.flatten, s'.result u.id = none → (∀ d ∈ u.dependencies, s'.Resulted d) →
        walkoverSide (settleUnit s'.playUnits s'.result u) = none := by
  subst he
  have wf := live.wellFormed
  have own := plainDraw_rows live.unique event participants
  obtain ⟨s₁, round, rest, inserted, hrounds, walked⟩ := registerDraw_eq_ok h
  obtain ⟨new, hrows, results, -⟩ := foldlM_insertPlayUnit inserted
  rw [own] at new hrows
  have stored : ∀ u ∈ rows.flatten, s₁.playUnits.get u.id = some u := by
    intro u hu
    exact Table.get_eq_some_iff.mpr ⟨by rw [hrows]; exact List.mem_append_right _ hu, rfl⟩
  have none : ∀ u ∈ rows.flatten, s₁.result u.id = none := by
    intro u hu
    by_contra resulted
    apply new u hu
    apply known
    rw [TournamentState.result, results] at resulted
    exact Option.isSome_iff_ne_none.mpr resulted
  have inFirst : ∀ {id}, id ∈ round → ∃ m u, At rows 0 m u ∧ u.id = id := by
    intro id hid
    have hr : (plainDraw event participants rows).rounds[0]? = some round := by simp [hrounds]
    obtain ⟨m, hm⟩ := List.getElem?_of_mem hid
    obtain ⟨u, hu, e⟩ := at_map.mp ⟨round, hr, hm⟩
    exact ⟨m, u, hu, e⟩
  obtain ⟨⟨touched, sweeps⟩, ended⟩ := foldlM_autoWalkover (fun id hid u hu => by
    obtain ⟨m, v, hv, rfl⟩ := inFirst hid
    rw [stored v hv.mem] at hu
    cases hu
    exact (live.free 0 m _ hv).mpr rfl) walked
  have fresh := WalkedOver.fresh wf stored none
  have settled : WalkedOver rows.flatten s'.playUnits s'.result := by
    obtain ⟨steps, run⟩ := sweeps.run
    exact run.invariant (I := fun t => WalkedOver rows.flatten t.playUnits t.result)
      (fun _ _ _ h step => h.advance wf step) fresh
  refine ⟨registered_of_sweeps known events inserted sweeps, settled, ?_⟩
  intro u hu open' ready
  obtain ⟨r, m, hu'⟩ := mem_flatten_iff_at.mp hu
  rcases ended with swept | ⟨rfl, idle⟩
  · by_contra empty
    obtain ⟨side, hside⟩ := Option.ne_none_iff_exists'.mp empty
    have due : dueWalkover s' [(plainDraw event participants rows).event.id] u.id = some (_, side) :=
      dueWalkover_eq_some.mpr ⟨settled.settled u hu, open', ready,
        List.mem_singleton.mpr (live.event r m u hu'), hside⟩
    rw [swept] at due
    cases due
  · -- nothing has a result yet, so the unit stands in round 0
    have deps : u.dependencies = [] := by
      cases hd : u.dependencies with
      | nil => rfl
      | cons x l =>
        have hx : x ∈ u.dependencies := by simp [hd]
        obtain ⟨v, hv, rfl⟩ := wf.closed hu hx
        have := ready v.id hx
        rw [TournamentState.Resulted, none v hv] at this
        cases this
    obtain rfl := (live.free r m u hu').mp deps
    have hid : u.id ∈ round := by
      obtain ⟨row, hr, hm⟩ := at_map.mpr ⟨u, hu', rfl⟩
      have hrounds : rows.map (fun row => row.map PlayUnit.id) = round :: rest := hrounds
      rw [hrounds] at hr
      cases hr
      exact List.mem_of_getElem? hm
    rcases idle u.id hid u (stored u hu) with resulted | none'
    · rw [TournamentState.Resulted, open'] at resulted
      cases resulted
    · have := settled.settled u hu
      rw [stored u hu] at this
      rw [← Option.some.inj this]
      exact none'

/-- **A draw without empty sides beside others** is only stored. -/
theorem registerDraw_full (unique : (rows.flatten.map PlayUnit.id).Nodup)
    (full : ∀ u ∈ rows.flatten, u.sideA ≠ [] ∧ u.sideB ≠ []) {event : Event} (known : Known s)
    (events : ∀ u ∈ s.playUnits.rows, u.eventId ≠ event.id)
    (h : registerDraw s (plainDraw event participants rows) = .ok s') :
    Registered s s' (plainDraw event participants rows) ∧
      ∀ u ∈ rows.flatten, s'.playUnits.get u.id = some u ∧ s'.result u.id = none := by
  have own := plainDraw_rows unique event participants
  obtain ⟨s₁, round, rest, inserted, hrounds, walked⟩ := registerDraw_eq_ok h
  obtain ⟨new, hrows, results, -⟩ := foldlM_insertPlayUnit inserted
  rw [own] at new hrows
  have stored : ∀ u ∈ rows.flatten, s₁.playUnits.get u.id = some u := by
    intro u hu
    exact Table.get_eq_some_iff.mpr ⟨by rw [hrows]; exact List.mem_append_right _ hu, rfl⟩
  have inFirst : ∀ {id}, id ∈ round → ∃ u ∈ rows.flatten, u.id = id := by
    intro id hid
    have hr : (plainDraw event participants rows).rounds[0]? = some round := by simp [hrounds]
    obtain ⟨m, hm⟩ := List.getElem?_of_mem hid
    obtain ⟨u, hu, e⟩ := at_map.mp ⟨round, hr, hm⟩
    exact ⟨u, hu.mem, e⟩
  obtain rfl : s₁ = s' := by
    clear hrounds
    induction round with
    | nil =>
      cases walked
      rfl
    | cons id round ih =>
      rw [List.foldlM_cons, bind_eq_ok] at walked
      obtain ⟨t, first, walked⟩ := walked
      obtain ⟨u, hu, rfl⟩ := inFirst List.mem_cons_self
      have idle : t = s₁ := by
        unfold autoWalkover at first
        rw [stored u hu] at first
        simp only [walkoverSide_eq_none_iff.mpr (full u hu)] at first
        split at first <;> cases first <;> rfl
      subst idle
      exact ih walked fun hid => inFirst (List.mem_cons_of_mem _ hid)
  refine ⟨registered_of_sweeps known events inserted (Sweeps.refl _ _), fun u hu => ⟨stored u hu, ?_⟩⟩
  by_contra resulted
  apply new u hu
  apply known
  rw [TournamentState.result, results] at resulted
  exact Option.isSome_iff_ne_none.mpr resulted

end

end Brackets
