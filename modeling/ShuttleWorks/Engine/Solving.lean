import ShuttleWorks.Engine.Validation

/-! What a solve returns. The search itself is the constraint solver's; whatever values it
finds satisfy the posted constraints, and the places are read off them. -/

namespace Engine
open Lib

namespace Scheduler

/-- The pooled matches in the order courts are handed out in. -/
def queueOrder (s : Scheduler) (v : Values) : List (Int × Nat × String) :=
  ((s.games.rows.filter fun m => m.id ∈ s.planPool.pooled).map fun m =>
    (v.start m.id, m.durationSlots, m.id)).insertionSort sortKeyLe

/-- The place of a match: its own court, or the one it was handed from the pool. -/
def placeOf (v : Values) (coloured : List (String × Int)) (m : Match) : Assignment where
  matchId := m.id
  slotId := v.start m.id
  courtId := (Assoc.get m.id coloured).getD (v.court m.id)
  durationSlots := m.durationSlots

/-- `extract_solution`; `none` where the pool cannot be handed out. -/
def extractSolution (s : Scheduler) (v : Values) : Option (List Assignment) :=
  (colourLeftEdge (s.queueOrder v) s.planPool.poolCourts).map fun coloured =>
    s.games.rows.map (placeOf v coloured)

def Yields (s : Scheduler) (as : List Assignment) : Prop :=
  ∃ v, s.Satisfies v ∧ s.extractSolution v = some as

end Scheduler

/-- `verify_schedule` on what was extracted. -/
def Scheduler.draft (s : Scheduler) (as : List Assignment) : Draft where
  config := s.config
  players := s.players
  games := s.games
  assignments := as
  previousAssignments := s.previousAssignments

abbrev Solver := ScheduleRequest → ScheduleResult

def ScheduleResult.Solved (r : ScheduleResult) : Prop := r.status = .optimal ∨ r.status = .feasible

instance (r : ScheduleResult) : Decidable r.Solved := inferInstanceAs (Decidable (_ ∨ _))

/-- What a solver is relied on for: what it returns and every candidate it collects on its way
satisfies the posted constraints, and what it returns has passed the validator. -/
structure Solver.Sound (solver : Solver) : Prop where
  yields : ∀ request, (solver request).Solved →
    request.scheduler.Yields (solver request).assignments
  verified : ∀ request, (solver request).Solved →
    (request.scheduler.draft (solver request).assignments).findConflicts = []
  candidates : ∀ request, ∀ as ∈ (solver request).candidates, request.scheduler.Yields as

/-- The solver that finds these places for one request and gives up on every other. -/
def Solver.answering (request : ScheduleRequest) (as : List Assignment) : Solver := fun r =>
  if r = request then { status := .optimal, assignments := as } else { status := .unknown }

variable {as : List Assignment}

theorem Solver.answering_sound {request : ScheduleRequest} (yields : request.scheduler.Yields as)
    (verified : (request.scheduler.draft as).findConflicts = []) :
    (Solver.answering request as).Sound := by
  have only : ∀ r, (Solver.answering request as r).Solved → r = request := by
    intro r solved
    by_contra ne
    rw [Solver.answering, if_neg ne] at solved
    simp [ScheduleResult.Solved] at solved
  constructor
  · intro r solved
    rw [only r solved, Solver.answering, if_pos rfl]
    exact yields
  · intro r solved
    rw [only r solved, Solver.answering, if_pos rfl]
    exact verified
  · intro r cs hcs
    unfold Solver.answering at hcs
    split at hcs <;> simp at hcs

/-! ## A match by itself -/

section Alone

variable {s : Scheduler} {v : Values} {m : Match}

theorem Scheduler.satisfies_held (games : s.games.rows = [m])
    (held : s.LocksAndPins v) (frozen : s.FreezeHorizon v) (near : s.Disruption v)
    (locks : s.lockedAssignments = []) (pool : s.planPool.pooled = [] ∨ s.planPool.poolCourts ≠ [])
    (day : 0 ≤ v.start m.id ∧ v.start m.id + m.durationSlots ≤ s.config.totalSlots)
    (court : v.court m.id ∈ s.courts)
    (closures : ∀ w ∈ s.closureWindows, v.court m.id = w.1 →
      (v.span m).stop ≤ w.2.1 ∨ w.2.2 ≤ v.start m.id)
    (allowed : ∀ starts ∈ s.allowedStarts m, v.start m.id ∈ starts) : s.Satisfies v := by
  have only : ∀ n ∈ s.games.rows, n = m := fun n hn => by simpa [games] using hn
  have shared : ∀ P, s.OnShared P := by
    intro P n hn n' hn' ne
    exact absurd (by rw [only n hn, only n' hn']) ne
  constructor
  case startsInDay =>
    intro n hn
    obtain rfl := only n hn
    exact ⟨day.1, by omega, day.2⟩
  case courtsInRange =>
    intro n hn _
    obtain rfl := only n hn
    exact court
  case courtClosures =>
    intro n hn
    obtain rfl := only n hn
    exact closures
  case courtCapacity =>
    constructor
    · intro n hn n' hn' ne
      exact absurd (by rw [only n hn, only n' hn']) ne
    · intro t
      rcases pool with none | some
      · simp [none]
      · refine le_trans (List.length_filter_le _ _) ?_
        rw [games]
        exact List.length_pos_of_ne_nil some
  case playerNoOverlap => exact fun _ => shared _
  case availability =>
    intro n hn
    obtain rfl := only n hn
    exact allowed
  case locksAndPins => exact held
  case freezeHorizon => exact frozen
  case restBetweenMatches => exact shared _
  case gameProximity => exact fun _ _ => shared _
  case lockedConstraints =>
    intro lock hl
    simp [locks] at hl
  case disruption => exact near

theorem Scheduler.satisfies_alone (games : s.games.rows = [m])
    (prevs : s.previousAssignments.rows = []) (locks : s.lockedAssignments = [])
    (pool : s.planPool.pooled = [] ∨ s.planPool.poolCourts ≠ [])
    (day : 0 ≤ v.start m.id ∧ v.start m.id + m.durationSlots ≤ s.config.totalSlots)
    (court : v.court m.id ∈ s.courts)
    (closures : ∀ w ∈ s.closureWindows, v.court m.id = w.1 →
      (v.span m).stop ≤ w.2.1 ∨ w.2.2 ≤ v.start m.id)
    (allowed : ∀ starts ∈ s.allowedStarts m, v.start m.id ∈ starts) : s.Satisfies v := by
  refine satisfies_held games ?_ ?_ ?_ locks pool day court closures allowed
  · intro prev hp
    simp [prevs] at hp
  · intro _ prev hp
    simp [prevs] at hp
  · intro prev hp
    simp [prevs] at hp

theorem Scheduler.satisfies_pinned (pinned : s.planPool.pooled = [])
    (open_ : s.closureWindows = []) (spacing : s.config.enableGameProximity = false)
    (hard : s.config.softRestEnabled = false)
    (day : ∀ m ∈ s.games.rows,
      0 ≤ v.start m.id ∧ v.start m.id + m.durationSlots ≤ s.config.totalSlots)
    (courts : ∀ m ∈ s.games.rows, v.court m.id ∈ s.courts)
    (allowed : ∀ m ∈ s.games.rows, ∀ starts ∈ s.allowedStarts m, v.start m.id ∈ starts)
    (apart : ∀ m ∈ s.games.rows, ∀ n ∈ s.games.rows, m.id ≠ n.id →
      (v.court m.id = v.court n.id → (v.span m).Apart (v.span n)) ∧
        ∀ id ∈ m.playerIds, id ∈ n.playerIds → (v.span m).Apart (v.span n) ∧
          ((v.span m).stop + ((s.players.get id).map Player.restSlots).getD
              s.config.defaultRestSlots ≤ (v.span n).start ∨
            (v.span n).stop + ((s.players.get id).map Player.restSlots).getD
              s.config.defaultRestSlots ≤ (v.span m).start))
    (held : s.LocksAndPins v) (frozen : s.FreezeHorizon v) (locks : s.LockedConstraints v)
    (near : s.Disruption v) : s.Satisfies v where
  startsInDay m hm := by
    have := day m hm
    exact ⟨this.1, by omega, this.2⟩
  courtsInRange m hm _ := courts m hm
  courtClosures m _ w hw := by
    rw [open_] at hw
    cases hw
  courtCapacity := by
    refine ⟨fun m hm n hn ne _ _ court => (apart m hm n hn ne).1 court, fun t => ?_⟩
    simp [pinned]
  playerNoOverlap _ m hm n hn ne id hid hid' := ((apart m hm n hn ne).2 id hid hid').1
  availability := allowed
  locksAndPins := held
  freezeHorizon := frozen
  disruption := near
  restBetweenMatches m hm n hn ne id hid hid' := by
    dsimp only
    rw [if_pos (Or.inr hard)]
    exact ((apart m hm n hn ne).2 id hid hid').2
  gameProximity enabled := by
    rw [spacing] at enabled
    cases enabled
  lockedConstraints := locks

end Alone

/-! ## What the places of a solution keep -/

namespace Scheduler

/-- A dragged match names its court, and a locked one is not dragged. -/
def Dragged (s : Scheduler) : Prop := ∀ prev ∈ s.previousAssignments.rows,
  (prev.pinnedSlotId.isSome → prev.pinnedCourtId.isSome) ∧
    (prev.locked = true → prev.pinnedCourtId = none)

/-- The player rests, or at least is not in two places, between any two matches. -/
def Rests (s : Scheduler) (id : String) : Prop :=
  ∃ player, s.players.get id = some player ∧ player.restIsHard = true ∧ 0 ≤ player.restSlots

/-- What every list of places of a solution keeps. -/
structure Allows (s : Scheduler) (as : List Assignment) : Prop where
  ids : as.map Assignment.matchId = s.games.rows.map Match.id
  length : ∀ a ∈ as, ∀ m ∈ s.games.get a.matchId, a.durationSlots = m.durationSlots
  day : ∀ a ∈ as, 0 ≤ a.slotId ∧ a.span.stop ≤ s.config.totalSlots
  courts : ∀ a ∈ as, a.courtId ∈ s.courts
  closures : ∀ a ∈ as, ∀ w ∈ s.closureWindows, a.courtId = w.1 → ¬ inWindow a.span w.2.1 w.2.2
  breaks : ∀ a ∈ as, ∀ b ∈ s.config.breakSlots, ¬ inWindow a.span b.1 b.2
  available : ∀ a ∈ as, ∀ m ∈ s.games.get a.matchId, ∀ id ∈ m.playerIds,
    ∀ player ∈ s.players.get id, player.availability ≠ [] → coversRange player.availability a.span
  locked : ∀ a ∈ as, ∀ prev ∈ s.previousAssignments.rows, prev.locked = true →
    prev.matchId = a.matchId → a.slotId = prev.slotId ∧ a.courtId = prev.courtId
  apart : ∀ a ∈ as, ∀ b ∈ as, a.matchId ≠ b.matchId → a.courtId = b.courtId → a.span.Apart b.span
  resting : ∀ a ∈ as, ∀ b ∈ as, a.matchId ≠ b.matchId → ∀ m ∈ s.games.get a.matchId,
    ∀ n ∈ s.games.get b.matchId, ∀ id, id ∈ m.playerIds → id ∈ n.playerIds → s.Rests id →
      a.span.Apart b.span

variable {s : Scheduler} {v : Values}

theorem poolCourts_subset {c : Int} (h : c ∈ s.poolCourts) : c ∈ s.courts :=
  (List.mem_filter.mp h).1

theorem Satisfies.kept_court (h : s.Satisfies v) (dragged : s.Dragged)
    (plain : s.lockedAssignments = []) {m : Match}
    (hm : m ∈ s.games.rows) (hk : m.id ∈ s.kept)
    (clear : ∀ id ∈ s.kept, ∀ prev ∈ s.previousAssignments.get id, prev.knownCourt ∉ s.poolCourts) :
    v.court m.id ∉ s.poolCourts := by
  have get : s.games.get m.id = some m := Table.get_eq_some_iff.mpr ⟨hm, rfl⟩
  obtain ⟨prev, hprev, e, held⟩ : ∃ prev ∈ s.previousAssignments.rows, prev.matchId = m.id ∧
      (prev.locked = true ∨ s.Held prev) := by
    rcases List.mem_append.mp hk with mem | mem
    · rw [lockedMatches, plain, List.map_nil, List.append_nil] at mem
      obtain ⟨prev, hp, e⟩ := List.mem_map.mp mem
      obtain ⟨hp, locked⟩ := List.mem_filter.mp hp
      exact ⟨prev, hp, e, .inl locked⟩
    · obtain ⟨prev, hp, e⟩ := List.mem_map.mp mem
      obtain ⟨hp, held⟩ := List.mem_filter.mp hp
      exact ⟨prev, hp, e, .inr (of_decide_eq_true held).2⟩
  have posted := h.locksAndPins prev hprev m (e ▸ get)
  have known := clear m.id hk prev (Table.get_eq_some_iff.mpr ⟨hprev, e⟩)
  unfold PreviousAssignment.knownCourt at known
  rw [e] at posted
  obtain ⟨named, plain⟩ := dragged prev hprev
  cases hl : prev.locked with
  | true =>
    rw [hl, if_pos rfl] at posted
    rw [plain hl] at known
    rw [← e, posted.2.2]
    exact known
  | false =>
    rw [hl, if_neg (by simp)] at posted
    cases hc : prev.pinnedCourtId with
    | some c =>
      rw [posted.2 c hc]
      rwa [hc] at known
    | none =>
      -- not dragged, so it is inside the freeze horizon
      have frozen : 0 < s.config.freezeHorizonSlots ∧ prev.slotId < s.cutoff := by
        rcases held with held | held
        · simp [hl] at held
        · simpa [Held, hc, mt named (by simp [hc])] using held
      have stays := h.freezeHorizon (by unfold cutoff; omega) prev hprev
        (Table.has_iff.mpr ⟨m, hm, e.symm⟩) hl frozen.2
      rw [hc] at known
      rw [← e, stays.2]
      exact known

theorem queueOrder_ids (s : Scheduler) (v : Values) {id : String} :
    id ∈ (s.queueOrder v).map (fun o => o.2.2) ↔
      id ∈ s.games.rows.map Match.id ∧ id ∈ s.planPool.pooled := by
  have perm : ((s.queueOrder v).map fun o => o.2.2).Perm
      ((s.games.rows.filter fun m => m.id ∈ s.planPool.pooled).map Match.id) := by
    refine ((List.perm_insertionSort _ _).map _).trans (List.Perm.of_eq ?_)
    rw [List.map_map]
    rfl
  rw [perm.mem_iff, List.mem_map, List.mem_map]
  constructor
  · rintro ⟨m, hm, rfl⟩
    obtain ⟨hm, pooled⟩ := List.mem_filter.mp hm
    exact ⟨⟨m, hm, rfl⟩, of_decide_eq_true pooled⟩
  · rintro ⟨⟨m, hm, rfl⟩, pooled⟩
    exact ⟨m, List.mem_filter.mpr ⟨hm, decide_eq_true pooled⟩, rfl⟩

theorem queueOrder_unique (s : Scheduler) (v : Values) :
    ((s.queueOrder v).map fun o => o.2.2).Nodup := by
  refine ((List.perm_insertionSort _ _).map _).nodup_iff.mpr ?_
  rw [List.map_map]
  exact (List.filter_sublist.map Match.id).nodup s.games.unique

theorem mem_queueOrder {m : Match} (hm : m ∈ s.games.rows) (pooled : m.id ∈ s.planPool.pooled) :
    (v.start m.id, m.durationSlots, m.id) ∈ s.queueOrder v := by
  refine (List.perm_insertionSort _ _).mem_iff.mpr (List.mem_map.mpr ⟨m, ?_, rfl⟩)
  exact List.mem_filter.mpr ⟨hm, decide_eq_true pooled⟩

theorem planPool_nodup (s : Scheduler) : s.planPool.poolCourts.Nodup := by
  unfold planPool
  dsimp only
  split_ifs
  all_goals first
    | exact List.nodup_nil
    | exact s.courts_nodup.filter _

section Extracted

variable {coloured : List (String × Int)}
  (hc : colourLeftEdge (s.queueOrder v) s.planPool.poolCourts = some coloured)

include hc

theorem courtId_of_not_pooled {m : Match} (h : m.id ∉ s.planPool.pooled) :
    (placeOf v coloured m).courtId = v.court m.id := by
  have none := (colourLeftEdge_spec s.planPool_nodup (s.queueOrder_unique v) hc).1 m.id
    (fun mem => h ((s.queueOrder_ids v).mp mem).2)
  rw [placeOf, none, Option.getD_none]

theorem courtId_of_pooled {m : Match} (hm : m ∈ s.games.rows) (h : m.id ∈ s.planPool.pooled) :
    Assoc.get m.id coloured = some (placeOf v coloured m).courtId ∧
      (placeOf v coloured m).courtId ∈ s.poolCourts := by
  obtain ⟨c, mem, get⟩ := (colourLeftEdge_spec s.planPool_nodup (s.queueOrder_unique v) hc).2.1 _
    (mem_queueOrder (v := v) hm h)
  rw [(planPool_queue h).2.1] at mem
  have : (placeOf v coloured m).courtId = c := by
    rw [placeOf, get, Option.getD_some]
  exact ⟨this ▸ get, this ▸ mem⟩

theorem extracted_courts (h : s.Satisfies v) {m : Match} (hm : m ∈ s.games.rows) :
    (placeOf v coloured m).courtId ∈ s.courts := by
  by_cases pooled : m.id ∈ s.planPool.pooled
  · exact poolCourts_subset (courtId_of_pooled hc hm pooled).2
  · rw [courtId_of_not_pooled hc pooled]
    exact h.courtsInRange m hm pooled

/-- Two matches that end up on one court are apart: the constraints keep apart the ones with a
court of their own, the sweep the pooled ones, and kept matches are not on a court of the pool. -/
theorem extracted_apart (h : s.Satisfies v) (dragged : s.Dragged)
    (plain : s.lockedAssignments = []) {m n : Match}
    (hm : m ∈ s.games.rows) (hn : n ∈ s.games.rows) (ne : m.id ≠ n.id)
    (court : (placeOf v coloured m).courtId = (placeOf v coloured n).courtId) :
    (v.span m).Apart (v.span n) := by
  -- a pooled match and one that is not
  have mixed : ∀ {m n : Match}, m ∈ s.games.rows → n ∈ s.games.rows →
      (placeOf v coloured m).courtId = (placeOf v coloured n).courtId →
      m.id ∈ s.planPool.pooled → n.id ∉ s.planPool.pooled → False := by
    intro m n hm hn court pm pn
    obtain ⟨-, -, clear, members⟩ := planPool_queue pm
    have kept : n.id ∈ s.kept := by
      by_contra not
      exact pn ((members n.id).mpr ⟨List.mem_map_of_mem hn, not⟩)
    refine h.kept_court dragged plain hn kept clear ?_
    rw [← courtId_of_not_pooled hc pn, ← court]
    exact (courtId_of_pooled hc hm pm).2
  by_cases pm : m.id ∈ s.planPool.pooled
  · by_cases pn : n.id ∈ s.planPool.pooled
    · have spec := (colourLeftEdge_spec s.planPool_nodup (s.queueOrder_unique v) hc).2.2
      refine spec _ (mem_queueOrder (v := v) hm pm) _ (mem_queueOrder hn pn) ne ?_
      rw [(courtId_of_pooled hc hm pm).1, (courtId_of_pooled hc hn pn).1, court]
    · exact (mixed hm hn court pm pn).elim
  · by_cases pn : n.id ∈ s.planPool.pooled
    · exact (mixed hn hm court.symm pn pm).elim
    · refine h.courtCapacity.1 m hm n hn ne pm pn ?_
      rw [← courtId_of_not_pooled hc pm, ← courtId_of_not_pooled hc pn, court]

end Extracted

theorem Yields.locked (h : s.Yields as) : ∀ a ∈ as,
    ∀ prev ∈ s.previousAssignments.rows, prev.locked = true → prev.matchId = a.matchId →
      a.slotId = prev.slotId ∧ a.courtId = prev.courtId := by
  obtain ⟨v, sat, extracted⟩ := h
  obtain ⟨coloured, hc, rfl⟩ := Option.map_eq_some_iff.mp extracted
  intro a ha prev hprev locked e
  obtain ⟨m, hm, rfl⟩ := List.mem_map.mp ha
  have posted := sat.locksAndPins prev hprev m
    (by rw [e]; exact Table.get_eq_some_iff.mpr ⟨hm, rfl⟩)
  rw [locked, if_pos rfl] at posted
  have stays := posted.2
  have not : m.id ∉ s.planPool.pooled := by
    intro pooled
    refine (((planPool_queue pooled).2.2.2 m.id).mp pooled).2 (List.mem_append_left _ ?_)
    apply List.mem_append_left
    exact List.mem_map.mpr ⟨prev, List.mem_filter.mpr ⟨hprev, locked⟩, e⟩
  rw [courtId_of_not_pooled hc not]
  rw [Stays, e] at stays
  exact stays

/-- **A solution keeps its promises.** Whatever values satisfy the posted constraints, the places
read off them are in the day and on its courts, off closures and breaks, inside everybody's
windows, where locks hold them, and apart on every court and for everybody who rests. -/
theorem Yields.allows (h : s.Yields as) (dragged : s.Dragged) (plain : s.lockedAssignments = []) :
    s.Allows as := by
  obtain ⟨v, sat, extracted⟩ := h
  obtain ⟨coloured, hc, rfl⟩ := Option.map_eq_some_iff.mp extracted
  have get : ∀ {m}, m ∈ s.games.rows → s.games.get (placeOf v coloured m).matchId = some m :=
    fun hm => Table.get_eq_some_iff.mpr ⟨hm, rfl⟩
  have match_of : ∀ {m m'}, m ∈ s.games.rows →
      m' ∈ s.games.get (placeOf v coloured m).matchId → m' = m :=
    fun hm hm' => Option.some.inj (hm'.symm.trans (get hm))
  have span : ∀ m, (placeOf v coloured m).span = v.span m := fun _ => rfl
  constructor
  case ids =>
    rw [List.map_map]
    rfl
  case length =>
    intro a ha m' hm'
    obtain ⟨m, hm, rfl⟩ := List.mem_map.mp ha
    rw [match_of hm hm']
    rfl
  case day =>
    intro a ha
    obtain ⟨m, hm, rfl⟩ := List.mem_map.mp ha
    obtain ⟨first, -, last⟩ := sat.startsInDay m hm
    exact ⟨first, last⟩
  case courts =>
    intro a ha
    obtain ⟨m, hm, rfl⟩ := List.mem_map.mp ha
    exact extracted_courts hc sat hm
  case closures =>
    intro a ha w hw court
    obtain ⟨m, hm, rfl⟩ := List.mem_map.mp ha
    have not : m.id ∉ s.planPool.pooled := by
      intro pooled
      rw [(planPool_queue pooled).1] at hw
      simp at hw
    rw [courtId_of_not_pooled hc not] at court
    have := sat.courtClosures m hm w hw court
    rw [span, inWindow]
    unfold Values.span at this ⊢
    dsimp only at this ⊢
    omega
  case breaks =>
    intro a ha b hb
    obtain ⟨m, hm, rfl⟩ := List.mem_map.mp ha
    cases allowed : s.allowedStarts m with
    | none =>
      unfold allowedStarts at allowed
      dsimp only at allowed
      split_ifs at allowed with long free
      rw [free.2] at hb
      simp at hb
    | some starts => exact (mem_allowedStarts allowed (sat.availability m hm _ allowed)).2 b hb
  case available =>
    intro a ha m' hm' id hid player hp some
    obtain ⟨m, hm, rfl⟩ := List.mem_map.mp ha
    obtain rfl := match_of hm hm'
    cases allowed : s.allowedStarts m' with
    | none =>
      unfold allowedStarts at allowed
      dsimp only at allowed
      split_ifs at allowed with long free
      have mem : player.availability ∈ ((m'.playerIds.filterMap s.players.get).filterMap
          fun player => if player.availability = [] then none else Option.some player.availability) :=
        List.mem_filterMap.mpr ⟨player, List.mem_filterMap.mpr ⟨id, hid, hp⟩, if_neg some⟩
      rw [free.1] at mem
      simp at mem
    | some starts =>
      exact (mem_allowedStarts allowed (sat.availability m' hm _ allowed)).1 id hid player hp some
  case locked => exact Yields.locked ⟨v, sat, extracted⟩
  case apart =>
    intro a ha b hb ne court
    obtain ⟨m, hm, rfl⟩ := List.mem_map.mp ha
    obtain ⟨n, hn, rfl⟩ := List.mem_map.mp hb
    exact extracted_apart hc sat dragged plain hm hn ne court
  case resting =>
    intro a ha b hb ne m' hm' n' hn' id hid hid' rests
    obtain ⟨m, hm, rfl⟩ := List.mem_map.mp ha
    obtain ⟨n, hn, rfl⟩ := List.mem_map.mp hb
    obtain rfl := match_of hm hm'
    obtain rfl := match_of hn hn'
    obtain ⟨player, hp, hard, least⟩ := rests
    have rest := sat.restBetweenMatches m' hm n' hn ne id hid hid'
    simp only [hp, Option.map_some, Option.getD_some, hard, true_or, if_true] at rest
    unfold Follows at rest
    rw [span, span]
    unfold Span.Apart
    omega

end Scheduler

end Engine
