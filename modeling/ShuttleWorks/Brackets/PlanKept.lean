import ShuttleWorks.Brackets.Planning
import ShuttleWorks.Brackets.Runs

/-! What is kept of a plan. Scheduled units are resolved and as long as they are meant to be, recorded
ends are of matches that were started, and the timetable is clear. A batch that starts late enough
keeps it, and so does what comes in while the matches are played. -/

namespace Brackets
open Lib Engine

/-! ## Batches -/

/-- Places for units that can be played, none before the limit, clear among each other. -/
structure Batch (s : TournamentState) (participants : Participants) (limit : Int)
    (as : List Assignment) : Prop where
  distinct : (as.map Assignment.matchId).Nodup
  unit : ∀ a ∈ as, ∃ unit, s.playUnits.get a.matchId = some unit ∧ s.Resolved unit ∧
    a.durationSlots = unit.durationSlots
  late : ∀ a ∈ as, limit ≤ a.slotId
  apart : ∀ a ∈ as, ∀ b ∈ as, a.matchId ≠ b.matchId → a.courtId = b.courtId → a.span.Apart b.span
  resting : ∀ a ∈ as, ∀ b ∈ as, a.matchId ≠ b.matchId → ∀ unit ∈ s.playUnits.get a.matchId,
    ∀ other ∈ s.playUnits.get b.matchId, ∀ pid, pid ∈ unit.players participants →
      pid ∈ other.players participants → a.span.Apart b.span

variable {s : TournamentState} {participants : Participants} {s' : TournamentState}
  {draws : List EventId} {r : Result} {affected : List PlayUnitId}

theorem mem_findReady {id : PlayUnitId} (h : id ∈ s.findReadyPlayUnits) :
    ¬ s.Resulted id ∧ ¬ s.Assigned id ∧ ∃ unit, s.playUnits.get id = some unit ∧ s.Resolved unit := by
  obtain ⟨unit, hu, rfl⟩ := List.mem_map.mp h
  obtain ⟨hu, ready⟩ := List.mem_filter.mp hu
  obtain ⟨new, free, resolved⟩ := of_decide_eq_true ready
  exact ⟨new, free, unit, Table.get_eq_some_iff.mpr ⟨hu, rfl⟩, resolved⟩

theorem Places.batch {config : ScheduleConfig} {prevs : List PreviousAssignment}
    {as : List Assignment} (h : Places s participants s.findReadyPlayUnits config prevs as)
    (day : 0 ≤ config.currentSlot) (room : config.currentSlot < config.totalSlots) :
    Batch s participants config.currentSlot as where
  distinct := h.distinct
  unit := by
    intro a ha
    obtain ⟨unit, hu, length, -⟩ := h.unit a ha
    obtain ⟨-, -, unit', hu', resolved⟩ := mem_findReady ((h.ids _).mp (List.mem_map_of_mem ha))
    obtain rfl := Option.some.inj (hu.symm.trans hu')
    exact ⟨unit, hu, resolved, length⟩
  late := h.first day room
  apart := h.apart
  resting := h.resting

/-! ## The invariant -/

namespace Plan

variable {p : Plan} {b : Booking Int}

theorem timetable_eq_some {id : PlayUnitId} :
    p.timetable id = some b ↔ ∃ a, p.state.assignment id = some a ∧
      b = ⟨a.courtId, a.slotId, p.holdsUntil id a⟩ := by
  rw [timetable, Option.map_eq_some_iff]
  exact exists_congr fun a => and_congr_right fun _ => eq_comm

theorem holdsUntil_le (id : PlayUnitId) (a : TournamentAssignment) :
    p.holdsUntil id a ≤ a.span.stop := by
  unfold holdsUntil
  split
  · exact le_refl _
  · exact min_le_right _ _

theorem holdsUntil_of_none {id : PlayUnitId} (h : p.freed id = none) (a : TournamentAssignment) :
    p.holdsUntil id a = a.span.stop := by
  rw [holdsUntil, h]

structure Kept (p : Plan) : Prop where
  keyed : (p.state.assignments.map Prod.fst).Nodup
  resolved : ∀ id, ∀ a ∈ p.state.assignment id, ∃ unit, p.state.playUnits.get id = some unit ∧
    p.state.Resolved unit ∧ a.durationSlots = unit.durationSlots
  played : ∀ id first, p.freed id = some first →
    ∃ a, p.state.assignment id = some a ∧ a.actualStartSlot.isSome
  ended : ∀ id, ∀ a ∈ p.state.assignment id, ∀ e ∈ a.actualEndSlot,
    ∃ first, p.freed id = some first ∧ first ≤ e
  offers : ∀ as ∈ p.offered, ∃ limit, Batch p.state p.driver.participants limit as ∧
    ∀ id, ∀ b ∈ p.timetable id, b.span.stop ≤ limit
  clear : p.timetable.Clear p.Shares

theorem Fresh.kept (h : p.Fresh) : p.Kept := by
  obtain ⟨none_, unplayed, unoffered⟩ := h
  have unassigned : ∀ id, p.state.assignment id = none := fun id => by
    rw [TournamentState.assignment, none_]
    rfl
  have empty : ∀ id, p.timetable id = none := fun id => by
    rw [timetable, unassigned id]
    rfl
  constructor
  case keyed =>
    rw [none_]
    exact List.nodup_nil
  case resolved =>
    intro id a ha
    rw [unassigned id] at ha
    cases ha
  case played =>
    intro id first hf
    rw [unplayed id] at hf
    cases hf
  case ended =>
    intro id a ha
    rw [unassigned id] at ha
    cases ha
  case offers =>
    intro as has
    rw [unoffered] at has
    simp at has
  case clear =>
    intro u v _ a ha
    rw [empty u] at ha
    cases ha

theorem Fresh.inOrder (h : p.Fresh) : p.timetable.InOrder p.Needs := by
  intro u d _ a ha
  obtain ⟨x, hx, -⟩ := timetable_eq_some.mp ha
  rw [TournamentState.assignment, h.1] at hx
  cases hx

theorem Kept.before_wave (h : p.Kept) {id : PlayUnitId} (hb : b ∈ p.timetable id) :
    b.span.stop ≤ p.driver.currentSlot := by
  obtain ⟨a, ha, rfl⟩ := timetable_eq_some.mp hb
  have finish := finish_le_advance (Assoc.mem_of_get ha) p.driver.config.currentSlot
    p.driver.restBetweenRounds
  refine le_trans ?_ finish
  cases e : a.actualEndSlot with
  | none =>
    rw [TournamentAssignment.finish, e]
    exact holdsUntil_le id a
  | some last =>
    obtain ⟨first, hf, le⟩ := h.ended id a ha last e
    rw [TournamentAssignment.finish, e, Option.getD_some]
    unfold holdsUntil
    rw [hf]
    exact (min_le_left _ _).trans le

/-! ## A batch is placed -/

section Units

variable {p' : Plan}

theorem shares_congr (units : p'.state.playUnits = p.state.playUnits)
    (same : p'.driver.participants = p.driver.participants) : p'.Shares = p.Shares := by
  funext u v
  rw [Shares, Shares, units, same]

theorem needs_congr (units : p'.state.playUnits = p.state.playUnits) : p'.Needs = p.Needs := by
  funext u d
  rw [Needs, Needs, units]

theorem resolved_congr (results : s'.results = s.results) (unit : PlayUnit) :
    s'.Resolved unit ↔ s.Resolved unit := by
  simp only [TournamentState.Resolved, TournamentState.Resulted, TournamentState.result, results]

end Units

section Batches

variable {limit : Int} {as : List Assignment}

theorem placed_cases (batch : Batch p.state p.driver.participants limit as) {id : PlayUnitId}
    {x : TournamentAssignment}
    (hx : (p.placed (as.foldl TournamentState.place p.state)).state.assignment id = some x) :
    (∃ a ∈ as, a.matchId = id ∧ x = newAssignment a) ∨
      (id ∉ as.map Assignment.matchId ∧ p.state.assignment id = some x) :=
  assignment_write_cases batch.distinct hx

theorem placed_extends (batch : Batch p.state p.driver.participants limit as)
    (before : ∀ id, ∀ b ∈ p.timetable id, b.span.stop ≤ limit) :
    Timetable.Extends limit (· ∈ as.map Assignment.matchId) p.timetable
      (p.placed (as.foldl TournamentState.place p.state)).timetable := by
  constructor
  · intro u not b hb
    obtain ⟨x, hx, rfl⟩ := timetable_eq_some.mp hb
    rcases placed_cases batch hx with ⟨a, ha, rfl, -⟩ | ⟨-, hx⟩
    · exact absurd (List.mem_map_of_mem ha) not
    · have old := timetable_eq_some.mpr ⟨x, hx, rfl⟩
      exact ⟨old, before u _ old⟩
  · intro u new b hb
    obtain ⟨x, hx, rfl⟩ := timetable_eq_some.mp hb
    rcases placed_cases batch hx with ⟨a, ha, -, rfl⟩ | ⟨not, -⟩
    · exact batch.late a ha
    · exact absurd new not

theorem Kept.freed_of_free (h : p.Kept) {id : PlayUnitId} (free : ¬ p.state.Assigned id) :
    p.freed id = none := by
  cases hf : p.freed id with
  | none => rfl
  | some first =>
    obtain ⟨x, hx, -⟩ := h.played id first hf
    exact absurd (Option.isSome_of_mem hx) free

/-- **A batch of ready units keeps the plan.** -/
theorem Kept.place (h : p.Kept) (batch : Batch p.state p.driver.participants limit as)
    (ready : ∀ a ∈ as, a.matchId ∈ p.state.findReadyPlayUnits)
    (before : ∀ id, ∀ b ∈ p.timetable id, b.span.stop ≤ limit) :
    (p.placed (as.foldl TournamentState.place p.state)).Kept := by
  have free : ∀ a ∈ as, p.freed a.matchId = none := fun a ha =>
    h.freed_of_free (mem_findReady (ready a ha)).2.1
  have units : (p.placed (as.foldl TournamentState.place p.state)).state.playUnits =
      p.state.playUnits := write_playUnits as p.state
  have results : (p.placed (as.foldl TournamentState.place p.state)).state.results =
      p.state.results := write_results as p.state
  constructor
  case keyed => exact write_keyed as h.keyed
  case resolved =>
    intro id x hx
    rw [units]
    simp only [resolved_congr results]
    rcases placed_cases batch hx with ⟨a, ha, rfl, rfl⟩ | ⟨-, hx⟩
    · exact batch.unit a ha
    · exact h.resolved id x hx
  case played =>
    intro id first hf
    obtain ⟨x, hx, started⟩ := h.played id first hf
    refine ⟨x, ?_, started⟩
    refine (assignment_write_of_not_mem fun mem => ?_).trans hx
    obtain ⟨a, ha, rfl⟩ := List.mem_map.mp mem
    exact absurd (free a ha) (by rw [show p.freed a.matchId = some first from hf]; simp)
  case ended =>
    intro id x hx e he
    rcases placed_cases batch hx with ⟨a, ha, rfl, rfl⟩ | ⟨-, hx⟩
    · cases he
    · exact h.ended id x hx e he
  case offers => exact fun as has => absurd has (List.not_mem_nil (a := as))
  case clear =>
    rw [shares_congr units rfl]
    refine h.clear.extend (placed_extends batch before) ?_
    intro u v nu nv ne booked hbooked other hother met
    obtain ⟨x, hx, rfl⟩ := timetable_eq_some.mp hbooked
    obtain ⟨y, hy, rfl⟩ := timetable_eq_some.mp hother
    rcases placed_cases batch hx with ⟨a, ha, rfl, rfl⟩ | ⟨not, -⟩
    · rcases placed_cases batch hy with ⟨b, hb, rfl, rfl⟩ | ⟨not, -⟩
      · rw [holdsUntil_of_none (p := p.placed _) (free a ha),
          holdsUntil_of_none (p := p.placed _) (free b hb)]
        rcases met with court | ⟨unit, hu, other, ho, pid, hp, hp'⟩
        · exact batch.apart a ha b hb ne court
        · exact batch.resting a ha b hb ne unit hu other ho pid hp hp'
      · exact absurd nv not
    · exact absurd nu not

theorem inOrder_place (h : p.Kept) (order : p.timetable.InOrder p.Needs)
    (batch : Batch p.state p.driver.participants limit as)
    (ready : ∀ a ∈ as, a.matchId ∈ p.state.findReadyPlayUnits)
    (before : ∀ id, ∀ b ∈ p.timetable id, b.span.stop ≤ limit) :
    (p.placed (as.foldl TournamentState.place p.state)).timetable.InOrder
      (p.placed (as.foldl TournamentState.place p.state)).Needs := by
  have units : (p.placed (as.foldl TournamentState.place p.state)).state.playUnits =
      p.state.playUnits := write_playUnits as p.state
  have results : (p.placed (as.foldl TournamentState.place p.state)).state.results =
      p.state.results := write_results as p.state
  rw [needs_congr units]
  refine order.extend (placed_extends batch before) fun u d need new => ?_
  cases hb : (p.placed (as.foldl TournamentState.place p.state)).timetable u with
  | none => rfl
  | some b =>
    -- what has a place has its feeders' results, and a ready unit has none
    obtain ⟨x, hx, -⟩ := timetable_eq_some.mp hb
    obtain ⟨unit, hu, resolved, -⟩ := (h.place batch ready before).resolved u x hx
    obtain ⟨a, ha, rfl⟩ := List.mem_map.mp new
    obtain ⟨unit', hu', need⟩ := need
    rw [units] at hu
    obtain rfl := Option.some.inj (hu.symm.trans hu')
    rw [resolved_congr results] at resolved
    exact absurd (resolved.2.2 _ need) (mem_findReady (ready a ha)).1

end Batches

end Plan

/-! ## Results and recorded times come in -/

/-- Results come in, and a unit whose feeders are done is left as it is. -/
structure Proceeds (s s' : TournamentState) : Prop where
  results : ∀ id, s.Resulted id → s'.Resulted id
  units : ∀ id, ∀ unit ∈ s.playUnits.get id, (∀ d ∈ unit.dependencies, s.Resulted d) →
    s'.playUnits.get id = some unit

theorem Proceeds.refl (s : TournamentState) : Proceeds s s :=
  ⟨fun _ h => h, fun _ _ hu _ => hu⟩

theorem Proceeds.trans {s'' : TournamentState} (h : Proceeds s s') (h' : Proceeds s' s'') :
    Proceeds s s'' where
  results := fun id hr => h'.results id (h.results id hr)
  units := fun id unit hu done => h'.units id unit (h.units id unit hu done)
    fun d hd => h.results d (done d hd)

theorem Proceeds.resolved (h : Proceeds s s') {unit : PlayUnit} (hr : s.Resolved unit) :
    s'.Resolved unit :=
  ⟨hr.1, hr.2.1, fun d hd => h.results d (hr.2.2 d hd)⟩

theorem recordAndPropagate_proceeds {unit : PlayUnit} (r : Result) (new : s.result unit.id = none) :
    Proceeds s (recordAndPropagate s unit r).1 where
  results := by
    intro id hr
    rw [TournamentState.Resulted, recordAndPropagate_result, Function.update_apply]
    split
    · rfl
    · exact hr
  units := by
    intro id u hu done
    rw [recordAndPropagate_playUnits, Table.get_update, hu]
    have : ¬ Receives unit u := by
      intro receives
      have := done _ receives.2.1
      simp [TournamentState.Resulted, new] at this
    simp [receive, this]

theorem recordResult_proceeds {id : PlayUnitId}
    (h : recordResult s draws id r = .ok (s', affected)) :
    Proceeds s s' ∧ s'.assignments = s.assignments := by
  obtain ⟨unit, -, recordable, recorded⟩ := recordResult_eq_ok h
  obtain ⟨touched, sweeps, -⟩ := recorded.sweeps
  obtain ⟨steps, run⟩ := sweeps.run
  refine ⟨(recordAndPropagate_proceeds r recordable.new).trans ?_, sweeps.assignments⟩
  apply run.closed Proceeds.refl (fun _ _ _ => Proceeds.trans)
  intro s a s' advance
  obtain ⟨-, new, -, -⟩ := advance
  exact recordAndPropagate_proceeds _ new

theorem Batch.proceed {limit : Int} {as : List Assignment} (h : Batch s participants limit as)
    (proceeds : Proceeds s s') :
    Batch s' participants limit as := by
  have same : ∀ a ∈ as, s'.playUnits.get a.matchId = s.playUnits.get a.matchId := by
    intro a ha
    obtain ⟨unit, hu, resolved, -⟩ := h.unit a ha
    rw [proceeds.units _ unit hu resolved.2.2, hu]
  constructor
  case distinct => exact h.distinct
  case unit =>
    intro a ha
    obtain ⟨unit, hu, resolved, length⟩ := h.unit a ha
    exact ⟨unit, (same a ha).trans hu, proceeds.resolved resolved, length⟩
  case late => exact h.late
  case apart => exact h.apart
  case resting =>
    intro a ha b hb ne
    rw [same a ha, same b hb]
    exact h.resting a ha b hb ne

namespace Plan

variable {p p' : Plan}

/-- Places stay and are held no longer than before. -/
structure Lives (p p' : Plan) : Prop where
  participants : p'.driver.participants = p.driver.participants
  offered : p'.offered = p.offered
  proceeds : Proceeds p.state p'.state
  places : ∀ id, ∀ x' ∈ p'.state.assignment id, ∃ x ∈ p.state.assignment id,
    (x'.slotId = x.slotId ∧ x'.courtId = x.courtId ∧ x'.durationSlots = x.durationSlots) ∧
      p'.holdsUntil id x' ≤ p.holdsUntil id x

theorem Lives.shortens (l : Lives p p') : Timetable.Shortens p.timetable p'.timetable := by
  intro u b hb
  obtain ⟨x', hx', rfl⟩ := timetable_eq_some.mp hb
  obtain ⟨x, hx, ⟨slot, court, -⟩, until_⟩ := l.places u x' hx'
  exact ⟨_, timetable_eq_some.mpr ⟨x, hx, rfl⟩, court, slot, until_⟩

theorem Lives.unit (h : p.Kept) (l : Lives p p') {u : PlayUnitId} (booked : (p'.timetable u).isSome) :
    p'.state.playUnits.get u = p.state.playUnits.get u := by
  obtain ⟨b, hb⟩ := Option.isSome_iff_exists.mp booked
  obtain ⟨x', hx', -⟩ := timetable_eq_some.mp hb
  obtain ⟨x, hx, -⟩ := l.places u x' hx'
  obtain ⟨unit, hu, resolved, -⟩ := h.resolved u x hx
  rw [l.proceeds.units u unit hu resolved.2.2, hu]

/-- **What comes in keeps the plan.** -/
theorem Kept.live (h : p.Kept) (l : Lives p p')
    (keyed : (p'.state.assignments.map Prod.fst).Nodup)
    (played : ∀ id first, p'.freed id = some first →
      ∃ a, p'.state.assignment id = some a ∧ a.actualStartSlot.isSome)
    (ended : ∀ id, ∀ a ∈ p'.state.assignment id, ∀ e ∈ a.actualEndSlot,
      ∃ first, p'.freed id = some first ∧ first ≤ e) : p'.Kept := by
  constructor
  case keyed => exact keyed
  case resolved =>
    intro id x' hx'
    obtain ⟨x, hx, ⟨-, -, length⟩, -⟩ := l.places id x' hx'
    obtain ⟨unit, hu, resolved, length'⟩ := h.resolved id x hx
    exact ⟨unit, l.proceeds.units id unit hu resolved.2.2, l.proceeds.resolved resolved,
      length.trans length'⟩
  case played => exact played
  case ended => exact ended
  case offers =>
    intro as has
    rw [l.offered] at has
    obtain ⟨limit, batch, before⟩ := h.offers as has
    rw [l.participants]
    refine ⟨limit, batch.proceed l.proceeds, fun id b' hb' => ?_⟩
    obtain ⟨b, hb, -, -, stop⟩ := l.shortens id b' hb'
    exact stop.trans (before id b hb)
  case clear =>
    apply h.clear.shorten l.shortens
    intro u v bu bv met
    rw [Shares, l.unit h bu, l.unit h bv, l.participants] at met
    exact met

theorem Lives.inOrder (h : p.Kept) (l : Lives p p') (order : p.timetable.InOrder p.Needs) :
    p'.timetable.InOrder p'.Needs := by
  apply order.shorten l.shortens
  intro u d bu need
  rw [Needs, l.unit h bu] at need
  exact need

/-! ### A result -/

theorem lives_record {id : PlayUnitId} (h : recordResult p.state draws id r = .ok (s', affected)) :
    Lives p (p.live s') where
  participants := rfl
  offered := rfl
  proceeds := (recordResult_proceeds h).1
  places := by
    intro id x' hx'
    have same : (p.live s').state.assignment id = p.state.assignment id := by
      show Assoc.get id s'.assignments = _
      rw [(recordResult_proceeds h).2]
      rfl
    rw [same] at hx'
    exact ⟨x', hx', ⟨rfl, rfl, rfl⟩, le_refl _⟩

theorem Kept.record (h : p.Kept) {id : PlayUnitId}
    (ok : recordResult p.state draws id r = .ok (s', affected)) : (p.live s').Kept := by
  have same : ∀ id, (p.live s').state.assignment id = p.state.assignment id := by
    intro id
    show Assoc.get id s'.assignments = _
    rw [(recordResult_proceeds ok).2]
    rfl
  refine h.live (lives_record ok) ?_ ?_ ?_
  · show (s'.assignments.map Prod.fst).Nodup
    rw [(recordResult_proceeds ok).2]
    exact h.keyed
  · intro id first hf
    rw [same]
    exact h.played id first hf
  · intro id a ha
    rw [same] at ha
    exact h.ended id a ha

/-! ### A start or an end -/

section Acts

variable {id : PlayUnitId} {action : MatchAction} {slot : Option Int}
  {a a' : TournamentAssignment} {freed : PlayUnitId → Option Int}

def acted (p : Plan) (id : PlayUnitId) (a' : TournamentAssignment) (freed : PlayUnitId → Option Int) :
    Plan :=
  { p.live (p.state.setAssignment id a') with freed := freed }

theorem acted_assignment (p : Plan) (id : PlayUnitId) (a' : TournamentAssignment)
    (freed : PlayUnitId → Option Int) (other : PlayUnitId) :
    (p.acted id a' freed).state.assignment other =
      if id = other then some a' else p.state.assignment other :=
  Assoc.get_set _ _ _ _

theorem lives_act (act : Acted p.state id action slot a a')
    (others : ∀ other, id ≠ other → freed other = p.freed other)
    (sooner : ∀ first ∈ p.freed id, ∃ first' ∈ freed id, first' ≤ first) :
    Lives p (p.acted id a' freed) where
  participants := rfl
  offered := rfl
  proceeds := ⟨fun _ h => h, fun _ _ hu _ => hu⟩
  places := by
    intro other x' hx'
    rw [acted_assignment] at hx'
    split at hx'
    · next e =>
      subst e
      obtain rfl := Option.some.inj hx'
      refine ⟨a, act.stored, act.place, ?_⟩
      have span : a'.span.stop = a.span.stop := by
        rw [TournamentAssignment.span, act.place.1, act.place.2.2]
        rfl
      cases hf : p.freed id with
      | none =>
        rw [holdsUntil_of_none hf, ← span]
        exact holdsUntil_le id a'
      | some first =>
        obtain ⟨first', hf', le⟩ := sooner first hf
        have now : (p.acted id a' freed).freed id = some first' := hf'
        unfold holdsUntil
        rw [hf, now, ← span]
        exact min_le_min le (le_refl _)
    · next ne =>
      refine ⟨x', hx', ⟨rfl, rfl, rfl⟩, ?_⟩
      have now : (p.acted id a' freed).freed other = p.freed other := others other ne
      unfold holdsUntil
      rw [now]

theorem Kept.act (h : p.Kept) (act : Acted p.state id action slot a a') (live : action ≠ .reset)
    (others : ∀ other, id ≠ other → freed other = p.freed other)
    (sooner : ∀ first ∈ p.freed id, ∃ first' ∈ freed id, first' ≤ first)
    (ended : ∀ e ∈ a'.actualEndSlot, ∃ first, freed id = some first ∧ first ≤ e) :
    (p.acted id a' freed).Kept := by
  refine h.live (lives_act act others sooner) (Assoc.nodup_keys_set h.keyed) ?_ ?_
  · intro other first hf
    rw [acted_assignment]
    split
    · exact ⟨a', rfl, act.started live⟩
    · next ne => exact h.played other first ((others other ne).symm.trans hf)
  · intro other x' hx' e he
    rw [acted_assignment] at hx'
    split at hx'
    · next same =>
      subst same
      obtain rfl := Option.some.inj hx'
      exact ended e he
    · next ne =>
      obtain ⟨first, hf, le⟩ := h.ended other x' hx' e he
      exact ⟨first, (others other ne).trans hf, le⟩

end Acts

end Plan

end Brackets
