import ShuttleWorks.Brackets.Replanning

/-! Runs of a plan. In every state of a run nothing overlaps on a court or for a player, and unless
a re-solve is careless about it nobody starts before their feeders are over, where a match that
was over early counts as over. -/

namespace Brackets
open Lib Engine

namespace Plan

variable {p : Plan} {as : List Assignment}

/-! ## Every step keeps the plan -/

theorem Kept.stale (h : p.Kept) : (p.placed p.state).Kept :=
  ⟨h.keyed, h.resolved, h.played, h.ended, fun as has => absurd has (List.not_mem_nil (a := as)),
    h.clear⟩

theorem wave_batch (inDay : p.InDay)
    (solution : Solution p.state p.driver.participants p.state.findReadyPlayUnits
      { p.driver.config with currentSlot := p.driver.currentSlot } [] p.driver.playerExtras as) :
    as = [] ∨ Batch p.state p.driver.participants p.driver.currentSlot as ∧
      ∀ a ∈ as, a.matchId ∈ p.state.findReadyPlayUnits := by
  have places := solution.places draggable_nil
  by_cases nobody : p.state.findReadyPlayUnits = []
  · refine .inl (List.eq_nil_iff_forall_not_mem.mpr fun a ha => ?_)
    have mem := (places.ids _).mp (List.mem_map_of_mem ha)
    rw [nobody] at mem
    simp at mem
  · obtain ⟨day, room⟩ := inDay nobody
    exact .inr ⟨places.batch day room, fun a ha => (places.ids _).mp (List.mem_map_of_mem ha)⟩

theorem commitNextRound_eq_ok {s s' : TournamentState} {cells : List Assignment}
    (h : commitNextRound s cells = .ok s') :
    (∀ a ∈ cells, a.matchId ∈ s.findReadyPlayUnits) ∧ s' = cells.foldl TournamentState.place s := by
  unfold commitNextRound at h
  generalize s.findReadyPlayUnits = ready at h ⊢
  induction cells generalizing s with
  | nil =>
    cases h
    exact ⟨by simp, rfl⟩
  | cons a cells ih =>
    rw [List.foldlM_cons] at h
    obtain ⟨t, first, rest⟩ := bind_eq_ok.mp h
    unfold commitCell at first
    split_ifs at first with unknown notReady
    cases first
    obtain ⟨all, rfl⟩ := ih rest
    exact ⟨List.forall_mem_cons.mpr ⟨notReady, all⟩, rfl⟩

theorem streamNextRound_solution {d : TournamentDriver} {solver : Solver} (sound : solver.Sound)
    {candidates : List (List Assignment)} (h : d.streamNextRound solver = .ok candidates)
    (has : as ∈ candidates) :
    Solution d.state d.participants d.state.findReadyPlayUnits
      { d.config with currentSlot := d.currentSlot } [] d.playerExtras as := by
  unfold TournamentDriver.streamNextRound at h
  obtain ⟨prepared, hp, h⟩ := bind_eq_ok.mp h
  unfold TournamentDriver.prepareNextRoundProblem at hp
  dsimp only at hp
  split at hp
  · cases hp
    cases h
    simp at has
  · obtain ⟨request, hb, hp⟩ := bind_eq_ok.mp hp
    cases hp
    cases h
    obtain ⟨config, prevs, poses⟩ := buildProblem_eq_ok hb
    exact ⟨request, config, prevs, poses, sound.candidates request as has⟩

theorem Kept.stream (h : p.Kept) (inDay : p.InDay) {solver : Solver} (sound : solver.Sound)
    {candidates : List (List Assignment)} (ok : p.driver.streamNextRound solver = .ok candidates) :
    ({ p with offered := p.offered ++ candidates } : Plan).Kept := by
  refine ⟨h.keyed, h.resolved, h.played, h.ended, fun as has => ?_, h.clear⟩
  rcases List.mem_append.mp has with has | has
  · exact h.offers as has
  · refine ⟨p.driver.currentSlot, ?_, fun id b hb => h.before_wave hb⟩
    rcases wave_batch inDay (streamNextRound_solution sound ok has) with rfl | ⟨batch, -⟩
    · exact ⟨List.nodup_nil, by simp, by simp, by simp, by simp⟩
    · exact batch

/-- The plan is kept, and kept in order if the operation is careful about it. -/
def Preserved (p : Plan) (op : PlanOp) (p' : Plan) : Prop :=
  p'.Kept ∧ (p.KeepsOrder op → p.timetable.InOrder p.Needs → p'.timetable.InOrder p'.Needs)

section Steps

variable {s' : TournamentState} {r : RoundResult} {solver : Solver}
  {playing : List (PlayUnitId × Int)}

theorem preserved_wave (h : p.Kept) (inDay : p.InDay) (sound : solver.Sound)
    (ok : p.driver.scheduleNextRound solver = .ok (r, s')) :
    Preserved p (.wave solver) (p.placed s') := by
  have stale : Preserved p (.wave solver) (p.placed p.state) := ⟨h.stale, fun _ order => order⟩
  rcases p.driver.scheduleNextRound_cases sound ok with ⟨rfl, -⟩ | ⟨as, solution, -, rfl⟩
  · exact stale
  · rcases wave_batch inDay solution with rfl | ⟨batch, ready⟩
    · exact stale
    · have before : ∀ id, ∀ b ∈ p.timetable id, b.span.stop ≤ p.driver.currentSlot :=
        fun id b hb => h.before_wave hb
      exact ⟨h.place batch ready before, fun _ order => inOrder_place h order batch ready before⟩

theorem preserved_commit (h : p.Kept) {cells : List Assignment} (offered : cells ∈ p.offered)
    (ok : commitNextRound p.state cells = .ok s') :
    Preserved p (.commit cells) (p.placed s') := by
  obtain ⟨ready, rfl⟩ := commitNextRound_eq_ok ok
  obtain ⟨limit, batch, before⟩ := h.offers cells offered
  exact ⟨h.place batch ready before, fun _ order => inOrder_place h order batch ready before⟩

theorem preserved_generate (h : p.Kept) {eventId : EventId} {wipe : Bool}
    (free : ∀ unit ∈ p.state.eventUnits eventId, ¬ (p.driver.wiped eventId wipe).Assigned unit.id)
    (sound : solver.Sound) (ok : p.driver.generateEvent solver eventId wipe = .ok (r, s')) :
    Preserved p (.generate solver eventId wipe) { p.placed s' with
      freed := fun id => if p.Dropped eventId wipe id then none else p.freed id } := by
  have kept : (p.wiped eventId wipe).Kept := h.wiped
  have order : p.timetable.InOrder p.Needs →
      (p.wiped eventId wipe).timetable.InOrder (p.wiped eventId wipe).Needs := by
    intro order
    rw [needs_congr wiped_units]
    exact order.shorten wiped_shortens fun _ _ _ need => need
  rcases p.driver.generateEvent_cases sound ok with ⟨rfl, -⟩ | ⟨as, solution, -, rfl⟩
  · exact ⟨kept, fun _ => order⟩
  · have places : (p.wiped eventId wipe).Generates eventId as := solution.places (draggable_held _ _)
    have bare : ∀ unit ∈ (p.wiped eventId wipe).state.eventUnits eventId,
        ¬ (p.wiped eventId wipe).state.Assigned unit.id := by
      intro unit hu
      rw [TournamentState.eventUnits, wiped_units] at hu
      exact free unit hu
    refine ⟨kept.generate places bare, fun careful before => ?_⟩
    refine inOrder_generate kept (order before) places fun id ready => ?_
    obtain ⟨new, unmet⟩ := careful id ready
    rw [needs_congr wiped_units]
    refine ⟨fun done => new ?_, unmet⟩
    rwa [TournamentState.Resulted, TournamentState.result, wiped_results] at done

theorem preserved_repin (h : p.Kept) {id : PlayUnitId} {slotId courtId : Int} (sound : solver.Sound)
    (ok : p.driver.repinAndResolve solver id slotId courtId = .ok (r, s')) :
    Preserved p (.repin solver id slotId courtId) (p.placed s') := by
  obtain ⟨x, hx, unlocked, ⟨rfl, -⟩ | ⟨as, solution, -, rfl⟩⟩ :=
    p.driver.repinAndResolve_cases sound ok
  · exact ⟨h.stale, fun _ order => order⟩
  · have places : p.Drags id slotId courtId as := solution.places (draggable_partition _ _ _ _)
    have free : ∀ y ∈ p.state.assignment id,
        ¬ p.state.Locked id y p.driver.config.currentSlot := by
      intro y hy
      rw [← Option.some.inj (Eq.trans hx.symm hy)]
      exact unlocked
    exact ⟨h.drag places, fun careful order => inOrder_drag h order places free careful⟩

theorem preserved_record (h : p.Kept) {id : PlayUnitId} {result : Result}
    {affected : List PlayUnitId} (ok : recordResult p.state p.draws id result = .ok (s', affected)) :
    Preserved p (.record id result) (p.live s') :=
  ⟨h.record ok, fun _ order => (lives_record ok).inOrder h order⟩

theorem preserved_start (h : p.Kept) {id : PlayUnitId} {slot : Option Int}
    (ok : matchAction p.state playing id .start slot = .ok s') :
    Preserved p (.start playing id slot) (p.live s') := by
  obtain ⟨a, a', act, rfl⟩ := matchAction_eq_ok ok
  have sooner : ∀ first ∈ p.freed id, ∃ first' ∈ p.freed id, first' ≤ first :=
    fun first hf => ⟨first, hf, le_refl first⟩
  have ended : ∀ e ∈ a'.actualEndSlot, ∃ first, p.freed id = some first ∧ first ≤ e := by
    intro e he
    rw [act.ended] at he
    cases he
  exact ⟨h.act act (by simp) (fun _ _ => rfl) sooner ended,
    fun _ order => (lives_act act (fun _ _ => rfl) sooner).inOrder h order⟩

theorem earliest_le (before : Option Int) (e : Int) : earliest before e ≤ e := by
  cases before with
  | none => exact le_refl e
  | some first => exact min_le_right first e

theorem preserved_finish (h : p.Kept) {id : PlayUnitId} {slot : Option Int}
    (ok : matchAction p.state playing id .finish slot = .ok s') :
    Preserved p (.finish playing id slot) { p.live s' with
      freed := Function.update p.freed id
        (((s'.assignment id).bind TournamentAssignment.actualEndSlot).map
          (earliest (p.freed id))) } := by
  obtain ⟨a, a', act, rfl⟩ := matchAction_eq_ok ok
  have now : (p.state.setAssignment id a').assignment id = some a' := Assoc.get_set_self _ _ _
  obtain ⟨e, he⟩ : ∃ e, a'.actualEndSlot = some e := ⟨_, act.ended⟩
  have freed : (((p.state.setAssignment id a').assignment id).bind
      TournamentAssignment.actualEndSlot).map (earliest (p.freed id)) =
        some (earliest (p.freed id) e) := by
    rw [now, Option.bind_some, he]
    rfl
  rw [freed]
  have others : ∀ other, id ≠ other →
      Function.update p.freed id (some (earliest (p.freed id) e)) other = p.freed other :=
    fun other ne => Function.update_of_ne ne.symm _ _
  have sooner : ∀ first ∈ p.freed id,
      ∃ first' ∈ Function.update p.freed id (some (earliest (p.freed id) e)) id, first' ≤ first := by
    intro first hf
    refine ⟨_, Function.update_self _ _ _, ?_⟩
    rw [show p.freed id = some first from hf]
    exact min_le_left first e
  have ended : ∀ e' ∈ a'.actualEndSlot,
      ∃ first, Function.update p.freed id (some (earliest (p.freed id) e)) id = some first ∧
        first ≤ e' := by
    intro e' he'
    obtain rfl := Option.some.inj (he.symm.trans he')
    exact ⟨_, Function.update_self _ _ _, earliest_le _ _⟩
  exact ⟨h.act act (by simp) others sooner ended,
    fun _ order => (lives_act act others sooner).inOrder h order⟩

end Steps

/-- **Every operation keeps the plan.** -/
theorem Kept.apply (h : p.Kept) {op : PlanOp} {p' : Plan} (sound : op.Sound) (careful : p.Careful op)
    (ok : p.apply op = some p') : Preserved p op p' := by
  cases op with
  | wave solver =>
    obtain ⟨r, hr, rfl⟩ := Option.map_eq_some_iff.mp ok
    exact preserved_wave h careful sound (toOption_eq_some.mp hr)
  | stream solver =>
    obtain ⟨candidates, hc, rfl⟩ := Option.map_eq_some_iff.mp ok
    exact ⟨h.stream careful sound (toOption_eq_some.mp hc), fun _ order => order⟩
  | commit cells =>
    obtain ⟨s', hs, rfl⟩ := Option.map_eq_some_iff.mp ok
    exact preserved_commit h careful (toOption_eq_some.mp hs)
  | generate solver eventId wipe =>
    obtain ⟨r, hr, rfl⟩ := Option.map_eq_some_iff.mp ok
    exact preserved_generate h careful sound (toOption_eq_some.mp hr)
  | repin solver id slotId courtId =>
    obtain ⟨r, hr, rfl⟩ := Option.map_eq_some_iff.mp ok
    exact preserved_repin h sound (toOption_eq_some.mp hr)
  | record id result =>
    obtain ⟨r, hr, rfl⟩ := Option.map_eq_some_iff.mp ok
    exact preserved_record h (toOption_eq_some.mp hr)
  | start playing id slot =>
    obtain ⟨s', hs, rfl⟩ := Option.map_eq_some_iff.mp ok
    exact preserved_start h (toOption_eq_some.mp hs)
  | finish playing id slot =>
    obtain ⟨s', hs, rfl⟩ := Option.map_eq_some_iff.mp ok
    exact preserved_finish h (toOption_eq_some.mp hs)

/-! ## Every run -/

theorem Reached.kept (h : p.Reached Careful) : p.Kept :=
  h.invariant (fun _ fresh => fresh.kept) fun _ _ _ _ kept step =>
    (kept.apply step.1 step.2.1 step.2.2).1

theorem Reached.inOrder (h : p.Reached fun p op => p.Careful op ∧ p.KeepsOrder op) :
    p.Kept ∧ p.timetable.InOrder p.Needs := by
  refine h.invariant (I := fun p => p.Kept ∧ p.timetable.InOrder p.Needs)
    (fun _ fresh => ⟨fresh.kept, fresh.inOrder⟩) ?_
  rintro p op p' - ⟨kept, order⟩ ⟨sound, ⟨careful, keeps⟩, ok⟩
  have step := kept.apply sound careful ok
  exact ⟨step.1, step.2 keeps order⟩

/-- **Planning in waves is safe.** However waves, candidates, generated events, re-pins, results and
recorded times follow each other, no two scheduled units overlap on a court or for a player, and
none starts before one it depends on is over, as long as every operation is careful. -/
theorem planning_is_safe : (∀ p : Plan, p.Reached Careful → p.timetable.Clear p.Shares) ∧
    ∀ p : Plan, (p.Reached fun p op => p.Careful op ∧ p.KeepsOrder op) →
      p.timetable.InOrder p.Needs :=
  ⟨fun _ h => h.kept.clear, fun _ h => h.inOrder.2⟩

/-! ## A semifinal that is over early -/

def semi : PlayUnit where
  id := "semi"
  eventId := "open"
  sideA := ["ann"]
  sideB := ["bob"]
  slotA := .participant "ann"
  slotB := .participant "bob"
  expectedDurationSlots := 3

def final : PlayUnit where
  id := "final"
  eventId := "open"
  sideB := ["cid"]
  slotA := .feeder "semi" .winner
  slotB := .participant "cid"
  expectedDurationSlots := 3
  dependencies := ["semi"]

def trioDriver : TournamentDriver where
  state := { playUnits := ⟨[semi, final], by decide⟩ }
  participants := Table.empty
  config := { totalSlots := 20, courtCount := 1 }

def trio : Plan where
  driver := trioDriver
  draws := ["open"]

/-- What a wave asks that starts in the slot. -/
def waveRequest (slot : Int) (ids : List String) (m : Match) : ScheduleRequest where
  config := { totalSlots := 20, courtCount := 1, currentSlot := slot }
  players := buildPlayers ids Table.empty slot 20 none
  games := [m]

def semiRequest : ScheduleRequest := waveRequest 0 ["ann", "bob"] (semi.toMatch Table.empty)

def finalRequest : ScheduleRequest :=
  waveRequest 2 ["ann", "cid"] ({ final with sideA := ["ann"] }.toMatch Table.empty)

def semiPlace : Assignment := ⟨"semi", 0, 1, 3⟩

def finalPlace : Assignment := ⟨"final", 2, 1, 3⟩

theorem semi_answer : (Solver.answering semiRequest [semiPlace]).Sound := by
  refine Solver.answering_sound ⟨⟨fun _ => 0, fun _ => 1⟩, ?_, rfl⟩ (by decide +kernel)
  apply Scheduler.satisfies_alone (m := semi.toMatch Table.empty) rfl rfl rfl
  all_goals decide

theorem final_answer : (Solver.answering finalRequest [finalPlace]).Sound := by
  refine Solver.answering_sound ⟨⟨fun _ => 2, fun _ => 1⟩, ?_, rfl⟩ (by decide +kernel)
  apply Scheduler.satisfies_alone (m := { final with sideA := ["ann"] }.toMatch Table.empty) rfl rfl rfl
  all_goals decide

def played : TournamentState :=
  { trioDriver.state with
    assignments := [("semi", { slotId := 0, courtId := 1, durationSlots := 3
                               actualStartSlot := some 0, actualEndSlot := some 1 })] }

def recorded : TournamentState :=
  { played with
    playUnits := ⟨[semi, { final with sideA := ["ann"], slotA := .participant "ann" }], by decide⟩
    results := [("semi", { winnerSide := .A })] }

def semiPlayed : Plan :=
  { trio with
    driver := { trioDriver with state := played }
    freed := Function.update (fun _ => none) "semi" (some 1) }

def semiOver : Plan := semiPlayed.live recorded

def earlyFinal : Plan := semiOver.placed (recorded.place finalPlace)

theorem Reached.next {allowed : Plan → PlanOp → Prop} (h : p.Reached allowed) (op : PlanOp) (p' : Plan)
    (sound : op.Sound) (ok : allowed p op) (step : p.apply op = some p') : p'.Reached allowed :=
  .step h ⟨sound, ok, step⟩

theorem semiOver_reached : semiOver.Reached fun p op => p.Careful op ∧ p.KeepsOrder op := by
  have fresh : trio.Reached fun p op => p.Careful op ∧ p.KeepsOrder op := .init ⟨rfl, fun _ => rfl, rfl⟩
  obtain ⟨r, -, wave⟩ := trioDriver.scheduleNextRound_answering ["semi"] 0 semiRequest rfl [semiPlace]
  have planned := fresh.next (.wave (.answering semiRequest [semiPlace]))
    (trio.placed (trioDriver.state.place semiPlace)) semi_answer ⟨fun _ => by decide, trivial⟩ (by
      rw [apply, show trio.driver = trioDriver from rfl, wave]
      rfl)
  have started := planned.next (.start [] "semi" none) _ trivial ⟨trivial, trivial⟩ rfl
  have ended := started.next (.finish [] "semi" (some 1)) semiPlayed trivial
    ⟨trivial, trivial⟩ rfl
  refine ended.next (.record "semi" { winnerSide := .A }) _ trivial ⟨trivial, trivial⟩ ?_
  have result : recordResult played ["open"] "semi" { winnerSide := .A } =
      .ok (recorded, ["final"]) := by
    decide +kernel
  show (recordResult played ["open"] "semi" { winnerSide := .A }).toOption.map
    (fun r => semiPlayed.live r.1) = some semiOver
  rw [result]
  rfl

theorem earlyFinal_reached : earlyFinal.Reached fun p op => p.Careful op ∧ p.KeepsOrder op := by
  obtain ⟨r, -, wave⟩ := semiOver.driver.scheduleNextRound_answering ["final"] 2 finalRequest rfl
    [finalPlace]
  refine semiOver_reached.next (.wave (.answering finalRequest [finalPlace])) _ final_answer
    ⟨fun _ => by decide, trivial⟩ ?_
  rw [apply, wave]
  rfl

/-- The final starts before the planned end of the semifinal, on its court and with its winner. -/
theorem early_final_overlaps : (earlyFinal.Reached fun p op => p.Careful op ∧ p.KeepsOrder op) ∧
    ¬ earlyFinal.planned.InOrder earlyFinal.Needs ∧ ¬ earlyFinal.planned.Clear earlyFinal.Shares := by
  refine ⟨earlyFinal_reached, fun order => ?_, fun clear => ?_⟩
  · have need : earlyFinal.Needs "final" "semi" := ⟨_, rfl, by decide⟩
    have := order "final" "semi" need _ rfl _ rfl
    exact absurd this (by decide)
  · have := clear "final" "semi" (by decide) _ rfl _ rfl (.inl rfl)
    exact absurd this (by decide)

/-- With the semifinal over after one slot, both matches are where they should be. -/
theorem early_final_is_safe : earlyFinal.timetable.Clear earlyFinal.Shares ∧
    earlyFinal.timetable.InOrder earlyFinal.Needs :=
  ⟨planning_is_safe.1 _ (earlyFinal_reached.mono fun _ _ _ step => ⟨step.1, step.2.1.1, step.2.2⟩),
    planning_is_safe.2 _ earlyFinal_reached⟩

end Plan

end Brackets
