import ShuttleWorks.Engine.Disruptions

/-! A warm restart: the engine solves again with the committed schedule as its reference. The
finished and the started matches are locked where the reference has them; the other places of it
only enter the objective and the hints, which rank the legal schedules and allow no fewer. -/

namespace Engine
open Lib

/-- A request whose config, players and matches are the engine's already. -/
structure WarmRestartRequest where
  originalSchedule : List Assignment
  config : ScheduleConfig
  intervalMinutes : Nat
  players : List Player
  games : List Match
  matchStates : List (String × MatchStateStatus) := []
  stayCloseWeight : Int := 10
  deriving DecidableEq

namespace WarmRestartRequest

variable (r : WarmRestartRequest) (locks : List LockedAssignment)

def reference : Table Assignment.matchId := Table.ofRows r.originalSchedule

def finished : List String :=
  (r.matchStates.filter (fun x => x.2 = .finished ∨ x.2 = .started)).map Prod.fst

def lockOf (ref : Assignment) : PreviousAssignment :=
  { matchId := ref.matchId, slotId := ref.slotId, courtId := ref.courtId, locked := true }

/-- `solve_warm_start` locks what is finished and has a place. -/
def previous : List PreviousAssignment :=
  r.finished.filterMap (fun id => (r.reference.get id).map lockOf)

def request : ScheduleRequest where
  config := r.config
  players := r.players
  games := r.games
  previousAssignments := r.previous
  lockedAssignments := locks

def scheduler : Scheduler := (r.request locks).scheduler

end WarmRestartRequest

/-! ## Outcomes -/

/-- How the engine's `solve` can end. What the search returns and what it collects on its way
satisfies the posted constraints. -/
inductive Outcome (s : Scheduler)
  | solved (optimal : Bool) (assignments : List Assignment) (yields : s.Yields assignments)
      (candidates : List (List Assignment)) (collected : ∀ as ∈ candidates, s.Yields as)
  | infeasible
  | unknown
  | modelInvalid
  /-- An exception, as where the validator finds a conflict. -/
  | raised

namespace Outcome

variable {s : Scheduler}

/-- `result_to_dto`: the places of the first candidate, where there are candidates; a result that
is no solution has none. -/
def places : Outcome s → Option (List Assignment)
  | solved _ assignments _ candidates _ => some (candidates.head?.getD assignments)
  | raised => none
  | _ => some []

def Solved : Outcome s → Prop
  | solved .. => True
  | _ => False

theorem places_yields (o : Outcome s) (h : o.Solved) : ∃ as, o.places = some as ∧ s.Yields as := by
  cases o with
  | solved optimal assignments yields candidates collected =>
    refine ⟨_, rfl, ?_⟩
    cases candidates with
    | nil => exact yields
    | cons as rest => exact collected as List.mem_cons_self
  | infeasible => exact h.elim
  | unknown => exact h.elim
  | modelInvalid => exact h.elim
  | raised => exact h.elim

end Outcome

theorem Scheduler.Yields.ids {s : Scheduler} {as : List Assignment} (h : s.Yields as) :
    as.map Assignment.matchId = s.games.rows.map Match.id := by
  obtain ⟨v, -, extracted⟩ := h
  obtain ⟨coloured, -, rfl⟩ := Option.map_eq_some_iff.mp extracted
  rw [List.map_map]
  rfl

/-! ## Offering a better schedule -/

def endSlot : List Assignment → Int
  | [] => 0
  | a :: rest => rest.foldl (fun last b => max last b.span.stop) a.span.stop

def finishDeltaMinutes (old new : List Assignment) (intervalMinutes : Nat) : Int :=
  (endSlot new - endSlot old) * (if intervalMinutes = 0 then 1 else intervalMinutes)

/-- The matches of the reference that a new schedule has elsewhere. -/
def movedMatches (r : WarmRestartRequest) (new : List Assignment) : List String :=
  (r.reference.rows.filter (fun ref =>
    match (Table.ofRows new : Table Assignment.matchId).get ref.matchId with
    | none => false
    | some a => a.slotId ≠ ref.slotId ∨ a.courtId ≠ ref.courtId)).map Assignment.matchId

def formatMetric (finishDeltaMin : Int) (moves : Nat) : String :=
  (if finishDeltaMin < 0 then "−" ++ toString finishDeltaMin.natAbs ++ " min finish"
    else if 0 < finishDeltaMin then "+" ++ toString finishDeltaMin ++ " min finish"
    else "0 min finish") ++ ", " ++ toString moves ++ " moves"

/-- The suggestion that is stamped, with the schedule of its proposal. -/
structure OptimizeOffer where
  proposedSchedule : List Assignment
  kind : String := "optimize"
  title : String := "Re-optimize from now"
  metric : String
  fingerprint : String
  fromScheduleVersion : Int

/-- The persisted state, its rows of match states and the matches that the table locks. -/
structure Persisted where
  schedule : List Assignment
  config : ScheduleConfig
  intervalMinutes : Nat
  players : List Player
  games : List Match
  matchStates : List (String × MatchStateStatus) := []
  locks : List LockedAssignment := []
  scheduleVersion : Int := 0

namespace Persisted

variable (p : Persisted)

/-- The restart that `_handle_optimize` asks for. -/
def optimizing : WarmRestartRequest where
  originalSchedule := p.schedule
  config := p.config
  intervalMinutes := p.intervalMinutes
  players := p.players
  games := p.games
  matchStates := p.matchStates
  stayCloseWeight := 5

def scheduler : Scheduler := p.optimizing.scheduler p.locks

/-- `_handle_optimize`: what is offered, if anything is. -/
def handleOptimize (fingerprint : String) (outcome : Outcome p.scheduler) : Option OptimizeOffer :=
  match outcome.places with
  | none => none
  | some new =>
    let finishDelta := finishDeltaMinutes p.schedule new p.intervalMinutes
    if 0 ≤ finishDelta then none
    else some {
      proposedSchedule := new
      metric := formatMetric finishDelta (movedMatches p.optimizing new).length
      fingerprint := fingerprint
      fromScheduleVersion := p.scheduleVersion }

end Persisted

/-- The offer places every match of the live schedule, and they are over earlier. -/
def Improves (live offered : List Assignment) : Prop :=
  (∀ a ∈ live, ∃ b ∈ offered, b.matchId = a.matchId) ∧
    ∀ b ∈ offered, b.matchId ∈ live.map Assignment.matchId → b.span.stop < endSlot live

/-- The outcome is a solution in which every live match has its place unless it ends no earlier,
or there is nothing to end earlier than. -/
def Persisted.Offers (p : Persisted) : Outcome p.scheduler → Prop
  | .solved _ assignments _ candidates _ =>
    endSlot (candidates.head?.getD assignments) < endSlot p.schedule →
      ∀ a ∈ p.schedule, p.scheduler.games.Has a.matchId
  | .raised => True
  | _ => endSlot p.schedule ≤ 0

theorem foldl_max_le {rest : List Assignment} {start : Int} :
    start ≤ rest.foldl (fun last b => max last b.span.stop) start ∧
      ∀ b ∈ rest, b.span.stop ≤ rest.foldl (fun last b => max last b.span.stop) start := by
  induction rest generalizing start with
  | nil => simp
  | cons a rest ih =>
    obtain ⟨first, others⟩ := @ih (max start a.span.stop)
    rw [List.foldl_cons]
    refine ⟨le_trans (le_max_left _ _) first, ?_⟩
    intro b hb
    rcases List.mem_cons.mp hb with rfl | hb
    · exact le_trans (le_max_right _ _) first
    · exact others b hb

theorem le_endSlot {as : List Assignment} {b : Assignment} (hb : b ∈ as) :
    b.span.stop ≤ endSlot as := by
  cases as with
  | nil => cases hb
  | cons a rest =>
    rcases List.mem_cons.mp hb with rfl | hb
    · exact foldl_max_le.1
    · exact foldl_max_le.2 b hb

theorem finishDelta_nonneg {old new : List Assignment} {intervalMinutes : Nat} :
    0 ≤ finishDeltaMinutes old new intervalMinutes ↔ endSlot old ≤ endSlot new := by
  have interval : (0 : Int) < ((if intervalMinutes = 0 then 1 else intervalMinutes : Nat) : Int) := by
    split <;> omega
  rw [finishDeltaMinutes, mul_nonneg_iff_of_pos_right interval, sub_nonneg]

section

variable {p : Persisted} {fingerprint : String}

theorem handleOptimize_eq_some {o : Outcome p.scheduler} {offer : OptimizeOffer}
    (h : p.handleOptimize fingerprint o = some offer) :
    o.places = some offer.proposedSchedule ∧ endSlot offer.proposedSchedule < endSlot p.schedule := by
  unfold Persisted.handleOptimize at h
  cases found : o.places with
  | none => simp [found] at h
  | some new =>
    simp only [found, finishDelta_nonneg] at h
    split at h
    · cases h
    · next earlier =>
      cases h
      exact ⟨rfl, not_le.mp earlier⟩

theorem handleOptimize_of_lt {o : Outcome p.scheduler} {new : List Assignment}
    (found : o.places = some new) (earlier : endSlot new < endSlot p.schedule) :
    ∃ offer, p.handleOptimize fingerprint o = some offer ∧ offer.proposedSchedule = new := by
  unfold Persisted.handleOptimize
  simp only [found, finishDelta_nonneg, if_neg (not_le.mpr earlier)]
  exact ⟨_, rfl, rfl⟩

/-- **Whatever the solve ends with, only an improvement is offered exactly where it ended with a
solution that has a place for every live match, or nothing ends earlier.** -/
theorem handleOptimize_improves (placed : p.schedule ≠ []) (o : Outcome p.scheduler) :
    (∀ offer ∈ p.handleOptimize fingerprint o, Improves p.schedule offer.proposedSchedule) ↔
      p.Offers o := by
  -- an empty schedule is no improvement
  have empty : o.places = some [] →
      ((∀ offer ∈ p.handleOptimize fingerprint o, Improves p.schedule offer.proposedSchedule) ↔
        endSlot p.schedule ≤ 0) := by
    intro none
    constructor
    · intro sound
      by_contra later
      obtain ⟨offer, stamped, nothing⟩ := @handleOptimize_of_lt p fingerprint o [] none
        (not_le.mp later)
      obtain ⟨a, ha⟩ := List.exists_mem_of_ne_nil _ placed
      obtain ⟨b, hb, -⟩ := (sound offer stamped).1 a ha
      rw [nothing] at hb
      cases hb
    · intro early offer stamped
      obtain ⟨found, earlier⟩ := handleOptimize_eq_some stamped
      rw [none, Option.some.injEq] at found
      rw [← found] at earlier
      exact absurd early (not_le.mpr earlier)
  cases o with
  | infeasible => exact empty rfl
  | unknown => exact empty rfl
  | modelInvalid => exact empty rfl
  | raised => exact iff_of_true (fun offer h => nomatch h) trivial
  | solved optimal assignments yields candidates collected =>
    obtain ⟨as, found, solution⟩ :=
      (Outcome.solved optimal assignments yields candidates collected).places_yields trivial
    obtain rfl : candidates.head?.getD assignments = as := Option.some.inj found
    constructor
    · intro sound earlier a ha
      obtain ⟨offer, stamped, same⟩ := @handleOptimize_of_lt p fingerprint _ _ found earlier
      obtain ⟨b, hb, e⟩ := (sound offer stamped).1 a ha
      rw [same] at hb
      have listed : b.matchId ∈ p.scheduler.games.rows.map Match.id :=
        solution.ids ▸ List.mem_map_of_mem hb
      exact e ▸ listed
    · intro listed offer stamped
      obtain ⟨same, earlier⟩ := handleOptimize_eq_some stamped
      rw [found, Option.some.injEq] at same
      rw [← same] at earlier ⊢
      refine ⟨fun a ha => ?_, fun b hb _ => lt_of_le_of_lt (le_endSlot hb) earlier⟩
      have place : a.matchId ∈ (candidates.head?.getD assignments).map Assignment.matchId :=
        solution.ids ▸ listed earlier a ha
      obtain ⟨b, hb, e⟩ := List.mem_map.mp place
      exact ⟨b, hb, e⟩

end

/-! ## A drop by hand -/

/-- A match dragged to a slot and a court. -/
structure Drop where
  matchId : String
  slotId : Int
  courtId : Int

namespace Drop

variable (d : Drop)

def At (a : Assignment) : Prop := a.slotId = d.slotId ∧ a.courtId = d.courtId

instance (a : Assignment) : Decidable (d.At a) := inferInstanceAs (Decidable (_ ∧ _))

def splice (a : Assignment) : Assignment :=
  if a.matchId = d.matchId then { a with slotId := d.slotId, courtId := d.courtId } else a

/-- The restart that `create_manual_edit_proposal` asks for. -/
def pinned (r : WarmRestartRequest) : WarmRestartRequest :=
  { r with originalSchedule := r.originalSchedule.map d.splice }

/-- The dropped match lies where it was dropped, and what is over or under way where it was. -/
def Honoured (r : WarmRestartRequest) (as : List Assignment) : Prop :=
  (∃ a ∈ as, a.matchId = d.matchId ∧ d.At a) ∧
    ∀ id ∈ r.finished, ∀ ref ∈ r.reference.get id,
      ∃ a ∈ as, a.matchId = id ∧ a.slotId = ref.slotId ∧ a.courtId = ref.courtId

/-- Every match that is over or under way is listed; and the dropped match is one of them and
was dropped where it is, or every legal schedule has it there with or without the drop. -/
def Forced (r : WarmRestartRequest) (locks : List LockedAssignment) : Prop :=
  (∀ id ∈ r.finished, (r.reference.get id).isSome → (r.scheduler locks).games.Has id) ∧
    if d.matchId ∈ r.finished then ∀ ref ∈ r.reference.get d.matchId, d.At ref
    else ∀ as, (r.scheduler locks).Yields as → ∃ a ∈ as, a.matchId = d.matchId ∧ d.At a

end Drop

section

variable {d : Drop} {r : WarmRestartRequest} {locks : List LockedAssignment}

theorem get_splice (rows : List Assignment) (id : String) :
    (Table.ofRows (rows.map d.splice) : Table Assignment.matchId).get id =
      ((Table.ofRows rows : Table Assignment.matchId).get id).map d.splice := by
  have key : ∀ a, (d.splice a).matchId = a.matchId := by
    intro a
    unfold Drop.splice
    split <;> rfl
  induction rows using List.reverseRecOn with
  | nil => rfl
  | append_singleton rows a ih =>
    simp only [Table.ofRows, List.map_append, List.map_cons, List.map_nil, List.foldl_append,
      List.foldl_cons, List.foldl_nil] at ih ⊢
    rw [Table.get_put, Table.get_put, key, ih]
    split <;> rfl

theorem reference_pinned (id : String) :
    (d.pinned r).reference.get id = (r.reference.get id).map d.splice :=
  get_splice r.originalSchedule id

theorem scheduler_pinned (locks : List LockedAssignment) (free : d.matchId ∉ r.finished) :
    (d.pinned r).scheduler locks = r.scheduler locks := by
  have same : (d.pinned r).previous = r.previous := by
    refine List.filterMap_congr fun id hid => ?_
    rw [reference_pinned]
    cases found : r.reference.get id with
    | none => rfl
    | some ref =>
      have other : ref.matchId ≠ d.matchId := by
        rw [(Table.get_eq_some_iff.mp found).2]
        rintro rfl
        exact free hid
      simp [Drop.splice, other]
  simp only [WarmRestartRequest.scheduler, WarmRestartRequest.request, same]
  rfl

theorem finished_kept {as : List Assignment} (solution : (r.scheduler locks).Yields as)
    {id : String} (done : id ∈ r.finished) {ref : Assignment} (found : r.reference.get id = some ref)
    {a : Assignment} (ha : a ∈ as) (e : a.matchId = id) :
    a.slotId = ref.slotId ∧ a.courtId = ref.courtId := by
  have own : ref.matchId = id := (Table.get_eq_some_iff.mp found).2
  have listed : WarmRestartRequest.lockOf ref ∈ r.previous :=
    List.mem_filterMap.mpr ⟨id, done, by rw [found]; rfl⟩
  have has : (r.scheduler locks).previousAssignments.Has id := by
    refine Table.has_ofRows.mpr (List.mem_map.mpr ⟨_, listed, own⟩)
  obtain ⟨prev, hprev, key⟩ := Table.has_iff.mp has
  obtain ⟨id', done', found'⟩ := List.mem_filterMap.mp (Table.mem_ofRows hprev)
  obtain ⟨ref', got, rfl⟩ := Option.map_eq_some_iff.mp found'
  have same : id' = id := (Table.get_eq_some_iff.mp got).2.symm.trans key
  rw [same, found, Option.some.injEq] at got
  subst got
  exact solution.locked a ha _ hprev rfl (key.trans e.symm)

theorem has_of_place {s : Scheduler} {as : List Assignment} (solution : s.Yields as)
    {a : Assignment} (ha : a ∈ as) : s.games.Has a.matchId := by
  have listed : a.matchId ∈ as.map Assignment.matchId := List.mem_map_of_mem ha
  rw [solution.ids] at listed
  exact listed

theorem place_of_has {s : Scheduler} {as : List Assignment} (solution : s.Yields as)
    {id : String} (has : s.games.Has id) : ∃ a ∈ as, a.matchId = id := by
  have listed : id ∈ as.map Assignment.matchId := by
    rw [solution.ids]
    exact has
  obtain ⟨a, ha, e⟩ := List.mem_map.mp listed
  exact ⟨a, ha, e⟩

theorem pinned_kept {as : List Assignment} (solution : ((d.pinned r).scheduler locks).Yields as)
    {id : String} (finished : id ∈ r.finished) {ref : Assignment}
    (found : r.reference.get id = some ref) {a : Assignment} (ha : a ∈ as) (e : a.matchId = id) :
    if id = d.matchId then d.At a else a.slotId = ref.slotId ∧ a.courtId = ref.courtId := by
  have spliced : (d.pinned r).reference.get id = some (d.splice ref) := by
    rw [reference_pinned, found]
    rfl
  have kept := finished_kept solution finished spliced ha e
  rw [Drop.splice, (Table.get_eq_some_iff.mp found).2] at kept
  by_cases same : id = d.matchId
  · rw [if_pos same] at kept ⊢
    exact kept
  · rw [if_neg same] at kept ⊢
    exact kept

theorem honoured_iff (dropped : d.matchId ∈ r.originalSchedule.map Assignment.matchId)
    {as : List Assignment} (solution : ((d.pinned r).scheduler locks).Yields as) :
    d.Honoured r as ↔
      (∀ id ∈ r.finished, (r.reference.get id).isSome → (r.scheduler locks).games.Has id) ∧
        if d.matchId ∈ r.finished then ∀ ref ∈ r.reference.get d.matchId, d.At ref
        else ∃ a ∈ as, a.matchId = d.matchId ∧ d.At a := by
  have own : ∃ ref, r.reference.get d.matchId = some ref := by
    obtain ⟨ref, hr, e⟩ := Table.has_iff.mp (Table.has_ofRows.mpr dropped)
    exact ⟨ref, Table.get_eq_some_iff.mpr ⟨hr, e⟩⟩
  have has : ∀ a ∈ as, (r.scheduler locks).games.Has a.matchId :=
    fun a ha => has_of_place solution ha
  constructor
  · rintro ⟨there, kept⟩
    refine ⟨?_, ?_⟩
    · intro id finished some
      obtain ⟨ref, found⟩ := Option.isSome_iff_exists.mp some
      obtain ⟨a, ha, rfl, -⟩ := kept id finished ref found
      exact has a ha
    · split
      · next finished =>
        intro ref found
        obtain ⟨a, ha, e, slot, court⟩ := kept d.matchId finished ref found
        have lies := pinned_kept solution finished found ha e
        rw [if_pos rfl] at lies
        exact ⟨slot.symm.trans lies.1, court.symm.trans lies.2⟩
      · exact there
  · rintro ⟨listed, there⟩
    have place : ∀ id ∈ r.finished, ∀ ref, r.reference.get id = some ref →
        ∃ a ∈ as, a.matchId = id := fun id finished ref found =>
      place_of_has solution (listed id finished (by rw [found]; rfl))
    refine ⟨?_, ?_⟩
    · split at there
      · next finished =>
        obtain ⟨ref, found⟩ := own
        obtain ⟨a, ha, e⟩ := place d.matchId finished ref found
        have lies := pinned_kept solution finished found ha e
        rw [if_pos rfl] at lies
        exact ⟨a, ha, e, lies⟩
      · exact there
    · intro id finished ref found
      obtain ⟨a, ha, e⟩ := place id finished ref found
      have lies := pinned_kept solution finished found ha e
      refine ⟨a, ha, e, ?_⟩
      split at lies
      · next same =>
        subst same
        rw [if_pos finished] at there
        have original := there ref found
        exact ⟨lies.1.trans original.1.symm, lies.2.trans original.2.symm⟩
      · exact lies

/-- **A drop is honoured in every legal schedule that can be proposed exactly where there is none,
or where it is forced.** -/
theorem manualEdit_honoured (dropped : d.matchId ∈ r.originalSchedule.map Assignment.matchId) :
    (∀ o : Outcome ((d.pinned r).scheduler locks), o.Solved →
        ∃ as, o.places = some as ∧ d.Honoured r as) ↔
      ((∃ as, ((d.pinned r).scheduler locks).Yields as) → d.Forced r locks) := by
  have every : (∀ o : Outcome ((d.pinned r).scheduler locks), o.Solved →
      ∃ as, o.places = some as ∧ d.Honoured r as) ↔
        ∀ as, ((d.pinned r).scheduler locks).Yields as → d.Honoured r as := by
    constructor
    · intro sound as solution
      obtain ⟨as', found, honoured⟩ := sound (.solved false as solution [] (by simp)) trivial
      obtain rfl : as = as' := Option.some.inj found
      exact honoured
    · intro sound o solved
      obtain ⟨as, found, solution⟩ := o.places_yields solved
      exact ⟨as, found, sound as solution⟩
  rw [every]
  constructor
  · rintro sound ⟨as, solution⟩
    obtain ⟨listed, there⟩ := (honoured_iff dropped solution).mp (sound as solution)
    refine ⟨listed, ?_⟩
    split
    · next finished => rwa [if_pos finished] at there
    · next free =>
      intro as' legal
      rw [← scheduler_pinned locks free] at legal
      have other := ((honoured_iff dropped legal).mp (sound as' legal)).2
      rwa [if_neg free] at other
  · intro forced as solution
    obtain ⟨listed, there⟩ := forced ⟨as, solution⟩
    refine (honoured_iff dropped solution).mpr ⟨listed, ?_⟩
    split
    · next finished => rwa [if_pos finished] at there
    · next free =>
      rw [if_neg free] at there
      exact there as (scheduler_pinned locks free ▸ solution)

end

/-! ## One match on one court -/

namespace Rehearsal

def final : Match := { id := "final", eventCode := "MS" }

def finalAt (slot : Int) : Assignment := ⟨"final", slot, 1, 1⟩

def evening (slot : Int) (states : List (String × MatchStateStatus)) : WarmRestartRequest where
  originalSchedule := [finalAt slot]
  config := { totalSlots := 2, courtCount := 1 }
  intervalMinutes := 30
  players := []
  games := [final]
  matchStates := states

def onto (slot : Int) : Drop := ⟨"final", slot, 1⟩

def live (slot : Int) : Persisted where
  schedule := [finalAt slot]
  config := { totalSlots := 2, courtCount := 1 }
  intervalMinutes := 30
  players := []
  games := [final]

theorem early_yields (slot : Int) : ((evening slot []).scheduler []).Yields [finalAt 0] := by
  show ((evening 0 []).scheduler []).Yields [finalAt 0]
  refine ⟨⟨fun _ => 0, fun _ => 1⟩, ?_, rfl⟩
  apply Scheduler.satisfies_alone (m := final) rfl rfl rfl
  all_goals decide

theorem dropped_yields : (((onto 1).pinned (evening 0 [])).scheduler []).Yields [finalAt 0] := by
  rw [scheduler_pinned [] (by decide)]
  exact early_yields 0

theorem started_yields :
    (((onto 0).pinned (evening 0 [("final", .started)])).scheduler []).Yields [finalAt 0] := by
  refine ⟨⟨fun _ => 0, fun _ => 1⟩, ?_, rfl⟩
  apply Scheduler.satisfies_held (m := final) rfl
  case held =>
    intro prev hp m found
    obtain rfl := List.mem_singleton.mp hp
    cases found
    decide
  case frozen => exact fun early => absurd early (by decide)
  case near =>
    intro prev hp _ free
    obtain rfl := List.mem_singleton.mp hp
    exact absurd (by decide) free
  case locks => rfl
  all_goals decide

/-- The evening ends a slot earlier, so the match has to come forward. -/
def shortened : WarmRestartRequest :=
  { evening 1 [] with config := { totalSlots := 1, courtCount := 1 } }

theorem shortened_yields : (((onto 0).pinned shortened).scheduler []).Yields [finalAt 0] := by
  rw [scheduler_pinned [] (by decide)]
  refine ⟨⟨fun _ => 0, fun _ => 1⟩, ?_, rfl⟩
  apply Scheduler.satisfies_alone (m := final) rfl rfl rfl
  all_goals decide

theorem shortened_forced : (onto 0).Forced shortened [] := by
  refine ⟨by decide, ?_⟩
  rw [if_neg (by decide)]
  intro as solution
  have has : (shortened.scheduler []).games.Has "final" := by decide
  obtain ⟨a, ha, e⟩ := place_of_has solution has
  have free : (shortened.scheduler []).Dragged := by
    intro prev hp
    cases hp
  have allowed := solution.allows free rfl
  have length := allowed.length a ha final (by rw [e]; rfl)
  have day : 0 ≤ a.slotId ∧ a.slotId + a.durationSlots ≤ 1 := allowed.day a ha
  have court : a.courtId ∈ [1] := allowed.courts a ha
  refine ⟨a, ha, e, ?_, List.mem_singleton.mp court⟩
  show a.slotId = 0
  rw [length, show final.durationSlots = 1 from rfl] at day
  omega

theorem live_yields : (live 1).scheduler.Yields [finalAt 0] := early_yields 1

end Rehearsal

open Rehearsal

theorem handleOptimize_improves_earlier :
    ∃ offer, (live 1).handleOptimize "opt:1"
        (.solved true [finalAt 0] live_yields [] (by simp)) = some offer ∧
      Improves [finalAt 1] offer.proposedSchedule :=
  ⟨_, rfl, (@handleOptimize_improves (live 1) "opt:1" (by decide)
    (.solved true [finalAt 0] live_yields [] (by simp))).mpr (fun _ => by decide) _ rfl⟩

/-- A solve that ran out of time is offered as a schedule that ends half an hour earlier. -/
theorem handleOptimize_unknown : ¬ ∀ offer ∈ (live 0).handleOptimize "opt:1" .unknown,
    Improves [finalAt 0] offer.proposedSchedule := by
  intro sound
  obtain ⟨b, hb, -⟩ := (sound _ rfl).1 (finalAt 0) (by decide)
  cases hb

/-- A match under way that is dropped where it is, and one that is dropped where it has to be. -/
theorem manualEdit_honoured_started :
    (∃ as, (Outcome.solved false [finalAt 0] started_yields [] (by simp)).places = some as ∧
      (onto 0).Honoured (evening 0 [("final", .started)]) as) ∧
    ∃ as, (Outcome.solved false [finalAt 0] shortened_yields [] (by simp)).places = some as ∧
      (onto 0).Honoured shortened as :=
  ⟨(manualEdit_honoured (by decide)).mpr
      (fun _ => ⟨by decide, by rw [if_pos (by decide)]; decide⟩) _ trivial,
    (manualEdit_honoured (by decide)).mpr (fun _ => shortened_forced) _ trivial⟩

/-- A match dropped on a free slot may be proposed where it was. -/
theorem manualEdit_ignored : ¬ ∀ o : Outcome (((onto 1).pinned (evening 0 [])).scheduler []),
    o.Solved → ∃ as, o.places = some as ∧ (onto 1).Honoured (evening 0 []) as := by
  intro sound
  obtain ⟨as, found, ⟨a, ha, -, there⟩, -⟩ :=
    sound (.solved false [finalAt 0] dropped_yields [] (by simp)) trivial
  cases found
  obtain rfl := List.mem_singleton.mp ha
  exact absurd there (by decide)

/-! ## What a re-plan fixes -/

namespace Scheduler

variable {s : Scheduler} {v : Values}

/-- A lock of either kind fixes the match to a court and a slot. -/
def Fixes (s : Scheduler) (id : String) (court slot : Int) : Prop :=
  (∃ prev ∈ s.previousAssignments.rows, prev.locked = true ∧
    prev.matchId = id ∧ prev.courtId = court ∧ prev.slotId = slot) ∨
  ∃ lock ∈ s.lockedAssignments, lock.matchId = id ∧ lock.courtId = court ∧ lock.timeSlot = slot

/-- What is posted besides the locks. -/
structure SatisfiesRest (s : Scheduler) (v : Values) : Prop where
  startsInDay : s.StartsInDay v
  courtsInRange : s.CourtsInRange v
  courtClosures : s.CourtClosures v
  courtCapacity : s.CourtCapacity v
  playerNoOverlap : s.PlayerNoOverlap v
  availability : s.Availability v
  restBetweenMatches : s.RestBetweenMatches v
  gameProximity : s.GameProximity v

theorem not_pooled_of_locked {id : String} (h : id ∈ s.lockedMatches) :
    id ∉ s.planPool.pooled := by
  intro pooled
  exact (((planPool_queue pooled).2.2.2 id).mp pooled).2 (List.mem_append_left _ h)

theorem Satisfies.fixed (h : s.Satisfies v) {id : String} (has : s.games.Has id) {court slot : Int}
    (fixes : s.Fixes id court slot) : v.court id = court ∧ v.start id = slot := by
  rcases fixes with ⟨prev, hp, locked, rfl, rfl, rfl⟩ | ⟨lock, hl, rfl, rfl, rfl⟩
  · obtain ⟨m, mem, e⟩ := Table.has_iff.mp has
    have posted := h.locksAndPins prev hp m (Table.get_eq_some_iff.mpr ⟨mem, e⟩)
    rw [if_pos locked] at posted
    exact posted.2.symm
  · have free := not_pooled_of_locked (List.mem_append_right _ (List.mem_map_of_mem hl))
    exact h.lockedConstraints lock hl has free

theorem satisfies_of_rest (locked : ∀ prev ∈ s.previousAssignments.rows, prev.locked = true)
    (rest : s.SatisfiesRest v) (stay : ∀ id, s.games.Has id → ∀ court slot, s.Fixes id court slot →
      v.court id = court ∧ v.start id = slot) : s.Satisfies v where
  startsInDay := rest.startsInDay
  courtsInRange := rest.courtsInRange
  courtClosures := rest.courtClosures
  courtCapacity := rest.courtCapacity
  playerNoOverlap := rest.playerNoOverlap
  availability := rest.availability
  restBetweenMatches := rest.restBetweenMatches
  gameProximity := rest.gameProximity
  freezeHorizon := by
    intro _ prev hp _ free
    rw [locked prev hp] at free
    cases free
  disruption := by
    intro prev hp _ free
    refine absurd (List.mem_append_left _ ?_) free
    exact List.mem_map_of_mem (List.mem_filter.mpr ⟨hp, locked prev hp⟩)
  locksAndPins := by
    intro prev hp m hm
    rw [if_pos (locked prev hp)]
    obtain ⟨mem, e⟩ := Table.get_eq_some_iff.mp hm
    have has : s.games.Has prev.matchId := Table.has_iff.mpr ⟨m, mem, e⟩
    obtain ⟨court, start⟩ := stay prev.matchId has prev.courtId prev.slotId
      (.inl ⟨prev, hp, locked prev hp, rfl, rfl, rfl⟩)
    have free : m.id ∉ s.planPool.pooled := by
      refine not_pooled_of_locked (List.mem_append_left _ ?_)
      exact List.mem_map.mpr ⟨prev, List.mem_filter.mpr ⟨hp, locked prev hp⟩, e.symm⟩
    have inDay := rest.startsInDay m mem
    have inRange := rest.courtsInRange m mem free
    rw [e, court] at inRange
    simp only [Values.span, e, start] at inDay
    exact ⟨⟨inDay.1, by omega, inRange⟩, start, court⟩
  lockedConstraints := by
    intro lock hl has _
    obtain ⟨court, start⟩ := stay lock.matchId has lock.courtId lock.timeSlot
      (.inr ⟨lock, hl, rfl, rfl, rfl⟩)
    exact ⟨court, start⟩

end Scheduler

namespace WarmRestartRequest

variable {r : WarmRestartRequest} {locks : List LockedAssignment} {prev : PreviousAssignment}

theorem previous_reference (h : prev ∈ (r.scheduler locks).previousAssignments.rows) :
    prev.locked = true ∧ ∃ ref, r.reference.get prev.matchId = some ref ∧
      ref.courtId = prev.courtId ∧ ref.slotId = prev.slotId := by
  obtain ⟨id, -, h⟩ := List.mem_filterMap.mp (Table.mem_ofRows h : prev ∈ r.previous)
  obtain ⟨ref, hr, rfl⟩ := Option.map_eq_some_iff.mp h
  have own : ref.matchId = id := Table.key_of_get hr
  refine ⟨rfl, ref, ?_, rfl, rfl⟩
  rw [lockOf, own]
  exact hr

end WarmRestartRequest

namespace RepairRequest

variable {r : RepairRequest} {repair : RepairSpec} {locks : List LockedAssignment}
  {prev : PreviousAssignment}

theorem previous_reference (sliced : r.sliceFor = .ok repair)
    (h : prev ∈ (r.problem repair locks).scheduler.previousAssignments.rows) :
    prev.locked = true ∧ ∃ ref, r.assignmentsByMatch.get prev.matchId = some ref ∧
      ref.courtId = prev.courtId ∧ ref.slotId = prev.slotId := by
  obtain ⟨ref, hr, rfl⟩ :=
    List.mem_map.mp (Table.mem_ofRows h : prev ∈ (r.problem repair locks).previous)
  have hint : ref ∈ repair.hintAssignments.rows := (List.mem_filter.mp hr).1
  rw [(sliceFor_eq_ok sliced).2] at hint
  obtain ⟨m, -, found⟩ := List.mem_filterMap.mp (Table.mem_ofRows hint)
  have own : ref.matchId = m.id := Table.key_of_get found
  exact ⟨rfl, ref, by rw [own]; exact found, rfl, rfl⟩

end RepairRequest

end Engine
