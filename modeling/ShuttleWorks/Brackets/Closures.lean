import Mathlib.Data.Fintype.EquivFin
import ShuttleWorks.Brackets.PinChecks

/-! Courts that cannot be had. The configuration closes courts for windows of the day and the
meet's schedule holds courts; a bracket solve is told of the second only. -/

namespace Brackets
open Lib Engine

namespace Workspace

variable (doc : Workspace) {courtId : Int}

def ClosedAt (court t : Int) : Prop :=
  ∃ w ∈ doc.tournamentConfig.buildClosedCourtWindows doc.tournamentConfig.daySlots,
    w.1 = court ∧ w.2.1 ≤ t ∧ t < w.2.2

def OccupiedAt (court t : Int) : Prop :=
  ∃ a ∈ doc.schedule, a.courtId = some court ∧ ∃ first ∈ a.slotId, first ≤ t ∧ t < first + a.duration

def InBreak (t : Int) : Prop := ∃ b ∈ doc.tournamentConfig.breakSlots, b.1 ≤ t ∧ t < b.2

def Unavailable (a : Span) (court : Int) : Prop :=
  ∃ t, a.Holds t ∧ (doc.ClosedAt court t ∨ doc.OccupiedAt court t)

instance (court t : Int) : Decidable (doc.ClosedAt court t) :=
  inferInstanceAs (Decidable (∃ w ∈ _, _))

/-- The units that are placed or placed again are where their court can be had. -/
def Kept (r : RoundResult) (s : TournamentState) : Prop := r.Scheduled →
  ∀ id ∈ r.playUnitIds, ∀ a ∈ s.assignment id, ¬ doc.Unavailable a.span a.courtId

/-- No bracket solve, of whatever session, sends a unit to a court that cannot be had, and every move
to one is reported in this session. -/
structure RespectsCourts (extras : Option Extras) (s : TournamentState)
    (participants : Participants) : Prop where
  wave : ∀ d : TournamentDriver, d.config = doc.sessionConfig → d.playerExtras = extras →
    ∀ solver : Solver, solver.Sound → ∀ r s, d.scheduleNextRound solver = .ok (r, s) → doc.Kept r s
  event : ∀ d : TournamentDriver, d.config = doc.sessionConfig → d.playerExtras = extras →
    ∀ solver : Solver, solver.Sound → ∀ eventId wipe r s,
      d.generateEvent solver eventId wipe = .ok (r, s) → doc.Kept r s
  pin : ∀ d : TournamentDriver, d.config = doc.sessionConfig → d.playerExtras = extras →
    ∀ solver : Solver, solver.Sound → ∀ id slotId courtId r s,
      d.repinAndResolve solver id slotId courtId = .ok (r, s) → doc.Kept r s
  move : ∀ id slotId courtId, ∀ unit ∈ s.playUnits.get id,
    doc.Unavailable ⟨slotId, slotId + unit.durationSlots⟩ courtId →
      validateBracketMove s participants doc.sessionConfig extras id slotId courtId ≠ some []

/-- Every slot of the day a court is closed in is one the meet plays in on it, or one of a break. -/
def ClosuresHeld : Prop := ∀ court t, 0 ≤ t → t < doc.totalSlots →
  doc.ClosedAt court t → doc.OccupiedAt court t ∨ doc.InBreak t

/-- The plan as it stands; units without both sides are skipped. -/
def plan (extras : Option Extras) (s : TournamentState) (participants : Participants) : Draft :=
  let games := (s.assignments.map Prod.fst).filterMap (matchOf s participants)
  { config := doc.sessionConfig
    players := Table.ofRows (buildPlayers (games.flatMap fun m => m.sideA ++ m.sideB) participants
      doc.sessionConfig.currentSlot doc.sessionConfig.totalSlots extras)
    games := Table.ofRows games
    assignments := s.assignments.filterMap fun p => (matchOf s participants p.1).map fun _ =>
      { matchId := p.1, slotId := p.2.slotId, courtId := p.2.courtId
        durationSlots := p.2.durationSlots } }

/-- Where a planned unit without both sides can be dragged to a court that cannot be had, there is
something else to report: in the plan as it stands, or a feeder that ends later. -/
def Watched (extras : Option Extras) (s : TournamentState) (participants : Participants) : Prop :=
  ∀ id, s.Assigned id → ∀ unit ∈ s.playUnits.get id, unit.sideA = [] ∨ unit.sideB = [] →
    ∀ slotId courtId, doc.Unavailable ⟨slotId, slotId + unit.durationSlots⟩ courtId →
      (doc.plan extras s participants).Clear →
        ∃ feeder ∈ unit.dependencies, ∃ a ∈ s.assignment feeder, slotId < a.slotId + a.durationSlots

/-! ## What the derived configuration tells the engine -/

section Told

variable {doc : Workspace} {court t : Int}

theorem occupied_window (h : doc.OccupiedAt court t)
    (inside : 1 ≤ court ∧ court ≤ doc.sessionConfig.courtCount) :
    ∃ w ∈ doc.sessionConfig.closedCourtWindows, w.2.1 < w.2.2 ∧ w.1 = court ∧
      w.2.1 ≤ t ∧ t < w.2.2 := by
  obtain ⟨a, ha, onCourt, first, hf, from_, before⟩ := h
  have last : 0 < a.duration := by omega
  refine ⟨(court, first, first + a.duration), List.mem_filterMap.mpr ⟨a, ha, ?_⟩, ?_⟩
  · rw [onCourt, hf]
    exact if_pos ⟨inside.1, inside.2, last⟩
  · exact ⟨Int.lt_add_of_pos_right first last, rfl, from_, before⟩

theorem window_occupied {w : Int × Int × Int} (hw : w ∈ doc.sessionConfig.closedCourtWindows)
    (from_ : w.2.1 ≤ t) (before : t < w.2.2) : doc.OccupiedAt w.1 t := by
  obtain ⟨a, ha, e⟩ := List.mem_filterMap.mp hw
  split at e
  · next c first onCourt at_ =>
    split at e <;> cases e
    exact ⟨a, ha, onCourt, first, at_, from_, before⟩
  · cases e

theorem closed_court (h : doc.ClosedAt court t) :
    1 ≤ court ∧ court ≤ doc.sessionConfig.courtCount := by
  obtain ⟨w, hw, rfl, -⟩ := h
  rcases List.mem_append.mp hw with hw | hw
  · obtain ⟨c, hc, rfl⟩ := List.mem_map.mp hw
    exact (of_decide_eq_true (List.mem_filter.mp hc).2).1
  · obtain ⟨closure, hc, rfl⟩ := List.mem_map.mp (List.mem_filter.mp hw).1
    exact of_decide_eq_true (List.mem_filter.mp hc).2

theorem told (held : doc.ClosuresHeld) (day : 0 ≤ t) (room : t < doc.totalSlots)
    (inside : 1 ≤ court ∧ court ≤ doc.sessionConfig.courtCount)
    (h : doc.ClosedAt court t ∨ doc.OccupiedAt court t) :
    (∃ w ∈ doc.sessionConfig.closedCourtWindows, w.2.1 < w.2.2 ∧ w.1 = court ∧
      w.2.1 ≤ t ∧ t < w.2.2) ∨ ∃ b ∈ doc.sessionConfig.breakSlots, b.1 ≤ t ∧ t < b.2 := by
  rcases h with closed | occupied
  · rcases held court t day room closed with occupied | inBreak
    · exact .inl (occupied_window occupied inside)
    · exact .inr inBreak
  · exact .inl (occupied_window occupied inside)

end Told

theorem inWindow_of_holds {a : Span} {t first last : Int} (h : a.Holds t) (from_ : first ≤ t)
    (before : t < last) : inWindow a first last := by
  unfold Span.Holds at h
  exact ⟨by omega, by omega⟩

/-! ## Where the closures are held -/

section Held

variable {doc : Workspace} {s : TournamentState} {participants : Participants}
  {ready : List PlayUnitId} {prevs : List PreviousAssignment} {as : List Assignment}
  {extras : Option Extras} {slot : Int}

theorem places_available (held : doc.ClosuresHeld) (slot : Int) (h : Places s participants ready
    { doc.sessionConfig with currentSlot := slot } prevs as) {a : Assignment} (ha : a ∈ as) :
    ¬ doc.Unavailable a.span a.courtId := by
  rintro ⟨t, inside, taken⟩
  obtain ⟨day, room⟩ := h.day a ha
  have first : 0 ≤ t := day.trans inside.1
  have last : t < doc.totalSlots := inside.2.trans_le room
  rcases told held first last (h.courts a ha) taken with ⟨w, hw, some, court, from_, before⟩ |
    ⟨b, hb, from_, before⟩
  · exact h.closures a ha w hw some court.symm (inWindow_of_holds inside from_ before)
  · exact h.breaks a ha b hb (inWindow_of_holds inside from_ before)

theorem move_to_unavailable (held : doc.ClosuresHeld) {id : PlayUnitId} {slotId : Int}
    {unit : PlayUnit} (hu : s.playUnits.get id = some unit)
    (sides : s.Assigned id → unit.sideA ≠ [] ∧ unit.sideB ≠ [])
    (taken : doc.Unavailable ⟨slotId, slotId + unit.durationSlots⟩ courtId) :
    validateBracketMove s participants doc.sessionConfig extras id slotId courtId ≠ some [] := by
  intro none_
  have clear : ∀ type, type ≠ ConflictType.unscheduled → ¬ ∃ c ∈ (moveDraft s participants
      doc.sessionConfig extras id slotId courtId unit.durationSlots).findConflicts, c.type = type :=
    fun type ne found => move_reported none_ hu ne found rfl
  have mem : { matchId := id, slotId, courtId, durationSlots := unit.durationSlots } ∈ (moveDraft s
      participants doc.sessionConfig extras id slotId courtId unit.durationSlots).assignments := by
    refine moved_mem fun assigned => ?_
    rw [matchOf_eq_some hu (sides assigned).1 (sides assigned).2]
    rfl
  cases hm : matchOf s participants id with
  | none => exact clear _ (by simp) (Draft.unknown_reported mem ((moveDraft_games _).trans hm))
  | some m =>
    have game : (moveDraft s participants doc.sessionConfig extras id slotId courtId
        unit.durationSlots).games.get id = some m := (moveDraft_games _).trans hm
    have length : m.durationSlots = unit.durationSlots := by
      unfold matchOf at hm
      rw [hu] at hm
      dsimp only at hm
      split at hm <;> cases hm
      rfl
    obtain ⟨t, inside, taken⟩ := taken
    have span : Draft.span (⟨id, slotId, courtId, unit.durationSlots⟩, m) =
        ⟨slotId, slotId + unit.durationSlots⟩ := by
      rw [Draft.span, length]
    by_cases day : slotId < 0 ∨ slotId + unit.durationSlots > doc.totalSlots
    · refine clear _ (by simp) (Draft.outOfDay_reported mem game ?_)
      rw [length]
      exact day
    by_cases court : courtId < 1 ∨ courtId > doc.sessionConfig.courtCount
    · exact clear _ (by simp) (Draft.invalidCourt_reported mem game court)
    have early : 0 ≤ t := by
      have := inside.1
      dsimp only at this
      omega
    have late : t < doc.totalSlots := by
      have := inside.2
      dsimp only at this
      omega
    rcases told held early late (by omega) taken with ⟨w, hw, -, court, from_, before⟩ |
      ⟨b, hb, from_, before⟩
    · refine clear _ (by simp) (Draft.closed_reported mem game (List.mem_append_left _ hw)
        court.symm ?_)
      rw [span]
      exact inWindow_of_holds inside from_ before
    · refine clear _ (by simp) (Draft.break_reported mem game hb ?_)
      rw [span]
      exact inWindow_of_holds inside from_ before

/-- A planned unit without both sides is not looked at, wherever it is dragged. -/
theorem moveDraft_unsided {id : PlayUnitId} {slotId : Int} {duration : Nat}
    (assigned : s.Assigned id) (unsided : matchOf s participants id = none) :
    moveDraft s participants doc.sessionConfig extras id slotId courtId duration =
      doc.plan extras s participants := by
  have games : moveGames s participants id =
      (s.assignments.map Prod.fst).filterMap (matchOf s participants) := by
    rw [moveGames, List.filterMap_append, List.filterMap_cons, unsided]
    exact List.append_nil _
  have places : movePlaces s participants id slotId courtId duration =
      (doc.plan extras s participants).assignments := by
    rw [movePlaces, if_pos assigned, List.append_nil]
    refine List.filterMap_congr fun p _ => ?_
    cases found : matchOf s participants p.1 with
    | none => rfl
    | some m =>
      have other : p.1 ≠ id := fun same => by simp [same, unsided] at found
      exact if_neg other
  rw [moveDraft, games, places]
  rfl

theorem move_reported_iff {id : PlayUnitId} {slotId : Int} {unit : PlayUnit}
    (hu : s.playUnits.get id = some unit) (assigned : s.Assigned id)
    (unsided : unit.sideA = [] ∨ unit.sideB = []) :
    validateBracketMove s participants doc.sessionConfig extras id slotId courtId ≠ some [] ↔
      ((doc.plan extras s participants).Clear → ∃ feeder ∈ unit.dependencies,
        ∃ a ∈ s.assignment feeder, slotId < a.slotId + a.durationSlots) := by
  have skipped : matchOf s participants id = none := by
    rw [matchOf, hu]
    exact if_pos unsided
  rw [Ne, validateBracketMove_eq_nil_iff hu, moveDraft_unsided assigned skipped]
  constructor
  · intro unclear clear
    by_contra none_
    push Not at none_
    exact unclear ⟨clear, none_⟩
  · rintro watched ⟨clear, silent⟩
    obtain ⟨feeder, hf, a, ha, later⟩ := watched clear
    exact absurd (silent feeder hf a ha) (by omega)

end Held

section Solves

variable {doc : Workspace} {d : TournamentDriver} {solver : Solver} {r : RoundResult}
  {s : TournamentState}

theorem wave_kept (held : doc.ClosuresHeld) (config : d.config = doc.sessionConfig)
    (sound : solver.Sound) (h : d.scheduleNextRound solver = .ok (r, s)) : doc.Kept r s := by
  intro scheduled id hid x hx
  rcases d.scheduleNextRound_cases sound h with ⟨-, nothing⟩ | ⟨as, solution, ids, rfl⟩
  · rw [nothing scheduled] at hid
    simp at hid
  · rw [ids] at hid
    rw [config] at solution
    have places := solution.places draggable_nil
    obtain ⟨a, ha, -, rfl⟩ := places.written hid hx
    exact places_available held _ places ha

theorem event_kept (held : doc.ClosuresHeld) (config : d.config = doc.sessionConfig)
    (sound : solver.Sound) {eventId : EventId} {wipe : Bool}
    (h : d.generateEvent solver eventId wipe = .ok (r, s)) : doc.Kept r s := by
  intro scheduled id hid x hx
  rcases d.generateEvent_cases sound h with ⟨-, unsolved⟩ | ⟨as, solution, ⟨-, ids⟩, rfl⟩
  · exact absurd scheduled unsolved
  · rw [ids] at hid
    rw [config] at solution
    have places := solution.places (draggable_held _ _)
    obtain ⟨a, ha, -, rfl⟩ := places.written_slice (List.mem_append_left _ hid) hid hx
    exact places_available held doc.sessionConfig.currentSlot places ha

theorem pin_kept (held : doc.ClosuresHeld) (config : d.config = doc.sessionConfig)
    (sound : solver.Sound) {id : PlayUnitId} {slotId : Int}
    (h : d.repinAndResolve solver id slotId courtId = .ok (r, s)) : doc.Kept r s := by
  intro scheduled id' hid x hx
  obtain ⟨-, -, -, ⟨-, unsolved⟩ | ⟨as, solution, ⟨-, ids⟩, rfl⟩⟩ := d.repinAndResolve_cases sound h
  · exact absurd scheduled unsolved
  · rw [ids] at hid
    rw [config] at solution
    have places := solution.places (draggable_partition _ _ _ _)
    obtain ⟨a, ha, -, rfl⟩ := places.written hid hx
    exact places_available held doc.sessionConfig.currentSlot places ha

end Solves

/-! ## Where they are not -/

theorem exists_fresh (l : List String) : ∃ x, x ∉ l := by
  have infinite : Infinite String := Infinite.of_injective String.ofList
    fun _ _ h => String.ofList_inj.mp h
  obtain ⟨x, hx⟩ := Infinite.exists_notMem_finset l.toFinset
  exact ⟨x, by simpa using hx⟩

/-- The lone unit is planned at a place. -/
def placedLone (doc : Workspace) (extras : Option Extras) (p q : ParticipantId) (t court : Int) :
    TournamentDriver where
  state := { loneState p q with assignments := [("final", { slotId := t, courtId := court })] }
  participants := Table.empty
  config := doc.sessionConfig
  playerExtras := extras

section Lone

variable {doc : Workspace} {extras : Option Extras} {court t : Int} {p q : ParticipantId}

theorem unnamed_free {pid : String} (day : 0 ≤ t) (room : t < doc.totalSlots)
    (unnamed : ∀ x ∈ extras, Assoc.get pid x = none) :
    coversRange (buildPlayer Table.empty doc.sessionConfig.currentSlot doc.sessionConfig.totalSlots
      extras pid).availability ⟨t, t + 1⟩ := by
  have own : extras.bind (resolveExtras pid ((Table.empty : Participants).get pid)) = none := by
    cases extras with
    | none => rfl
    | some x =>
      show (Assoc.get pid x).map _ = none
      rw [unnamed x rfl]
      rfl
  have window : (if doc.sessionConfig.currentSlot < 0 ∨
      doc.sessionConfig.totalSlots ≤ doc.sessionConfig.currentSlot then []
      else [(doc.sessionConfig.currentSlot, doc.sessionConfig.totalSlots)]) =
        [((0 : Int), doc.totalSlots)] :=
    if_neg (by show ¬ ((0 : Int) < 0 ∨ doc.totalSlots ≤ 0); omega)
  unfold buildPlayer
  rw [own, window]
  exact ⟨_, List.mem_singleton_self _, day, by show t + 1 ≤ doc.totalSlots; omega⟩

theorem placedLone_clear (unnamed : ∀ pid, pid = p ∨ pid = q → ∀ x ∈ extras, Assoc.get pid x = none)
    (day : 0 ≤ t) (room : t < doc.totalSlots) (closed : doc.ClosedAt court t)
    (free : ¬ doc.OccupiedAt court t) (noBreak : ¬ doc.InBreak t) :
    (placedLone doc extras p q t court).MoveClear "final" t court := by
  have own : (placedLone doc extras p q t court).state.playUnits.get "final" = some (lone p q) := rfl
  refine (validateBracketMove_eq_nil_iff own).mpr ⟨?_, fun _ h => absurd h List.not_mem_nil⟩
  have none_ : (moveDraft (placedLone doc extras p q t court).state Table.empty doc.sessionConfig
      extras "final" t court (lone p q).durationSlots).findConflicts = [] := by
    refine Draft.findConflicts_alone (m := (lone p q).toMatch Table.empty)
      (a := ⟨"final", t, court, 1⟩) rfl rfl rfl rfl day ?_ (closed_court closed) ?_ ?_ ?_
    · show t + ((1 : Nat) : Int) ≤ doc.totalSlots
      omega
    · intro pid hp player hplayer
      obtain ⟨mem, rfl⟩ := Table.get_eq_some_iff.mp hplayer
      obtain ⟨pid, -, rfl⟩ := List.mem_map.mp (Table.mem_ofRows mem)
      rw [buildPlayer_id] at hp
      apply unnamed_free day room
      apply unnamed
      rw [toMatch_playerIds] at hp
      simpa [PlayUnit.players, expandSide, lone] using hp
    · rintro b hb ⟨before, after⟩
      exact noBreak ⟨b, hb, Int.lt_add_one_iff.mp after, before⟩
    · rintro w hw rfl ⟨before, after⟩
      rcases List.mem_append.mp hw with hw | hw
      · exact free (window_occupied hw (Int.lt_add_one_iff.mp after) before)
      · obtain ⟨c, hc, -⟩ := List.mem_map.mp hw
        exact absurd (List.mem_filter.mp hc).1 (List.not_mem_nil (a := c))
  intro c hc
  exact absurd (none_ ▸ hc) List.not_mem_nil

/-- The problem of a pin of the lone unit where it is. -/
def pinLone (doc : Workspace) (extras : Option Extras) (p q : ParticipantId) (t court : Int) :
    ScheduleRequest where
  config := doc.sessionConfig
  players := buildPlayers [p, q] Table.empty doc.sessionConfig.currentSlot
    doc.sessionConfig.totalSlots extras
  games := [(lone p q).toMatch Table.empty]
  previousAssignments := [{ matchId := "final", slotId := t, courtId := court
                            pinnedSlotId := some t, pinnedCourtId := some court }]

theorem pinLone_verified {as : List Assignment}
    (yields : (pinLone doc extras p q t court).scheduler.Yields as) :
    ((pinLone doc extras p q t court).scheduler.draft as).findConflicts = [] := by
  obtain ⟨v, sat, extracted⟩ := yields
  have least : ∀ pid, 0 ≤ ((pinLone doc extras p q t court).scheduler.draft as).restOf pid := by
    refine Draft.restOf_nonneg (fun player listed => ?_) (Int.natCast_nonneg _)
    obtain ⟨pid, -, rfl⟩ := List.mem_map.mp
      ((List.perm_insertionSort _ _).mem_iff.mp (Table.mem_ofRows listed))
    exact buildPlayer_rests.2
  have handed : ∀ prev ∈ (pinLone doc extras p q t court).scheduler.previousAssignments.rows,
      prev = { matchId := "final", slotId := t, courtId := court, pinnedSlotId := some t
               pinnedCourtId := some court } := by
    intro prev listed
    exact List.mem_singleton.mp listed
  refine (Draft.silent_iff_lawful least).mpr
    ((Scheduler.lawful_draft_iff sat ?_ rfl ?_ extracted).mpr ?_)
  · intro prev listed
    rw [handed prev listed]
    simp
  · intro w hw
    obtain ⟨a, -, e⟩ := List.mem_filterMap.mp hw
    split at e
    · split at e
      · next some_ =>
        cases e
        exact Int.lt_add_of_pos_right _ some_.2.2
      · cases e
    · cases e
  · intro _ prev listed free _ a ha same
    have slot_ : prev.pinnedSlotId = some t := by rw [handed prev listed]
    have court_ : prev.pinnedCourtId = some court := by rw [handed prev listed]
    have pinned :=
      Scheduler.Yields.pinned ⟨v, sat, extracted⟩ listed free slot_ court_ ha same.symm
    rw [handed prev listed]
    exact pinned

/-- A unit that stands on a court the configuration closes is pinned there again. -/
theorem placedLone_pinned
    (unnamed : ∀ pid, pid = p ∨ pid = q → ∀ x ∈ extras, Assoc.get pid x = none) (day : 0 ≤ t)
    (room : t < doc.totalSlots) (closed : doc.ClosedAt court t) (free : ¬ doc.OccupiedAt court t)
    (noBreak : ¬ doc.InBreak t) : ∃ solver : Solver, solver.Sound ∧ ∃ r s,
      (placedLone doc extras p q t court).repinAndResolve solver "final" t court = .ok (r, s) ∧
        ¬ doc.Kept r s := by
  have posed : (placedLone doc extras p q t court).pinProblem "final" t court =
      .ok (pinLone doc extras p q t court) := rfl
  have keyed : ((placedLone doc extras p q t court).state.assignments.map Prod.fst).Nodup :=
    List.nodup_singleton _
  have assigned : (placedLone doc extras p q t court).state.assignment "final" =
      some { slotId := t, courtId := court } := rfl
  have unlocked : ¬ (placedLone doc extras p q t court).state.Locked "final"
      { slotId := t, courtId := court } (placedLone doc extras p q t court).config.currentSlot := by
    rintro (resulted | started | past)
    · cases resulted
    · cases started
    · have : t + ((1 : Nat) : Int) ≤ 0 := past
      omega
  have room_ : (placedLone doc extras p q t court).PoolRoom "final" court := by
    intro _ t'
    refine (List.length_eq_zero_iff.mpr (List.filter_eq_nil_iff.mpr fun r hr => ?_)).trans_le
      (Nat.zero_le _)
    obtain rfl := List.mem_singleton.mp hr
    simp [TournamentDriver.Free]
  have near : (placedLone doc extras p q t court).Near t { slotId := t, courtId := court } := by
    have : t - t ≤ doc.totalSlots := by omega
    exact ⟨this, this⟩
  obtain ⟨as, yields⟩ := TournamentDriver.clear_yields rfl keyed assigned
    (placedLone_clear unnamed day room closed free noBreak) room_ (fun _ _ => ⟨rfl, rfl⟩) near posed
  obtain ⟨a, ha, id, slot, onCourt⟩ := TournamentDriver.dragged_moved posed keyed assigned yields
  have places := TournamentDriver.posed_places posed yields
  have answer : Solver.answering (pinLone doc extras p q t court) as
      (pinLone doc extras p q t court) = { status := .optimal, assignments := as } := if_pos rfl
  refine ⟨.answering (pinLone doc extras p q t court) as,
    Solver.answering_sound yields (pinLone_verified yields), _, _,
    TournamentDriver.repinAndResolve_ok assigned unlocked posed _, fun kept => ?_⟩
  rw [answer] at kept
  have written : (as.foldl TournamentState.moveTo (placedLone doc extras p q t court).state).assignment
      "final" = some (movedAssignment (some { slotId := t, courtId := court }) a) := by
    rw [← assigned, ← id]
    exact assignment_write_of_mem places.distinct ha
  obtain ⟨unit, hu, length, -⟩ := places.unit a ha
  rw [id] at hu
  cases hu
  refine kept (.inl rfl) "final" (List.mem_singleton_self _) _ written ⟨t, ?_, .inl ?_⟩
  · show a.slotId ≤ t ∧ t < a.slotId + a.durationSlots
    rw [slot, length]
    exact ⟨le_refl t, Int.lt_add_of_pos_right t Int.one_pos⟩
  · show doc.ClosedAt a.courtId t
    rwa [onCourt]

end Lone

/-! ## Exactly when courts are respected -/

/-- A bracket respects the courts of a document exactly where every closed slot of the day is held
by the meet, or in a break, besides, and no planned unit without both sides can be dragged unseen:
the closures themselves do not reach the engine, and the check skips such a unit. -/
theorem respectsCourts_iff (doc : Workspace) (extras : Option Extras) (s : TournamentState)
    (participants : Participants) : doc.RespectsCourts extras s participants ↔
      doc.ClosuresHeld ∧ doc.Watched extras s participants := by
  constructor
  · intro respects
    constructor
    · intro court t day room closed
      by_contra free
      rw [not_or] at free
      obtain ⟨p, hp⟩ := exists_fresh ((extras.getD []).map Prod.fst)
      obtain ⟨q, hq⟩ := exists_fresh (p :: (extras.getD []).map Prod.fst)
      rw [List.mem_cons, not_or] at hq
      have unnamed : ∀ pid, pid = p ∨ pid = q → ∀ x ∈ extras, Assoc.get pid x = none := by
        rintro pid (rfl | rfl) x rfl
        · exact Assoc.get_eq_none_iff.mpr hp
        · exact Assoc.get_eq_none_iff.mpr hq.2
      obtain ⟨solver, sound, r, left, pinned, lost⟩ :=
        placedLone_pinned unnamed day room closed free.1 free.2
      exact lost (respects.pin _ rfl rfl solver sound _ _ _ r left pinned)
    · intro id assigned unit hu unsided slotId courtId taken
      exact (move_reported_iff hu assigned unsided).mp (respects.move id slotId courtId unit hu taken)
  · rintro ⟨held, watched⟩
    constructor
    · exact fun d config _ solver sound r s h => wave_kept held config sound h
    · exact fun d config _ solver sound eventId wipe r s h => event_kept held config sound h
    · exact fun d config _ solver sound id slotId courtId r s h => pin_kept held config sound h
    · intro id slotId courtId unit hu taken
      by_cases skipped : s.Assigned id ∧ (unit.sideA = [] ∨ unit.sideB = [])
      · exact (move_reported_iff hu skipped.1 skipped.2).mpr
          (watched id skipped.1 unit hu skipped.2 slotId courtId taken)
      · refine move_to_unavailable held hu (fun assigned => ?_) taken
        exact not_or.mp fun unsided => skipped ⟨assigned, unsided⟩

/-! ## A hall with a closed court -/

def closedHall : Workspace where
  config := { closedCourts := some [1] }

def hallDriver : TournamentDriver where
  state := loneState "ann" "bob"
  participants := Table.empty
  config := closedHall.sessionConfig

def hallRequest : ScheduleRequest where
  config := closedHall.sessionConfig
  players := buildPlayers ["ann", "bob"] Table.empty 0 128 none
  games := [(lone "ann" "bob").toMatch Table.empty]

def closedPlace : Assignment := ⟨"final", 0, 1, 1⟩

theorem hallRequest_yields : hallRequest.scheduler.Yields [closedPlace] := by
  refine ⟨⟨fun _ => 0, fun _ => 1⟩, ?_, rfl⟩
  apply Scheduler.satisfies_alone (m := (lone "ann" "bob").toMatch Table.empty) rfl rfl rfl
  · decide
  · decide
  · decide
  · decide
  · decide

theorem hallRequest_verified : (hallRequest.scheduler.draft [closedPlace]).findConflicts = [] := by
  decide +kernel

def playingHall : Workspace where
  schedule := [⟨some 1, some 0, none⟩]

/-- An imported plan holds a court for the final before its second side is known. -/
def reserved : TournamentState where
  playUnits := ⟨[{ lone "ann" "bob" with sideB := [], slotB := .feeder "semi" .winner
                                         dependencies := ["semi"] },
    { lone "bob" "cid" with id := "semi" }], by decide⟩
  assignments := [("final", { slotId := 1, courtId := 2 })]

/-- The wave goes to the closed court, and a move there is not reported. Nor is the move of a unit
without a side to a court the meet plays on. -/
theorem sent_to_closed_court :
    (¬ closedHall.RespectsCourts none (loneState "ann" "bob") Table.empty ∧
      closedHall.ClosedAt 1 0 ∧
      (∃ solver : Solver, solver.Sound ∧ ∃ r s, hallDriver.scheduleNextRound solver = .ok (r, s) ∧
        r.Scheduled ∧ s.assignment "final" = some { slotId := 0, courtId := 1 }) ∧
      validateBracketMove (loneState "ann" "bob") Table.empty closedHall.sessionConfig none
        "final" 0 1 = some []) ∧
    playingHall.ClosuresHeld ∧ ¬ playingHall.RespectsCourts none reserved Table.empty := by
  have closed : closedHall.ClosedAt 1 0 := by decide
  have unseen : validateBracketMove (loneState "ann" "bob") Table.empty closedHall.sessionConfig
      none "final" 0 1 = some [] := rfl
  refine ⟨⟨fun respects => ?_, closed, ?_, unseen⟩, ?_, fun respects => ?_⟩
  · refine respects.move "final" 0 1 _ rfl ⟨0, ?_, .inl closed⟩ unseen
    decide
  · refine ⟨.answering hallRequest [closedPlace],
      Solver.answering_sound hallRequest_yields hallRequest_verified, ?_⟩
    have prepared : hallDriver.prepareNextRoundProblem = .ok (some (["final"], 0, hallRequest)) := rfl
    obtain ⟨r, scheduled, ok⟩ := hallDriver.scheduleNextRound_answering _ _ _ prepared [closedPlace]
    exact ⟨r, _, ok, scheduled, rfl⟩
  · rintro court t - - ⟨w, hw, -⟩
    exact absurd hw List.not_mem_nil
  · refine respects.move "final" 0 1 _ rfl
      ⟨0, ?_, .inr ⟨_, List.mem_singleton_self _, rfl, 0, rfl, ?_⟩⟩ rfl
    · decide
    · decide

end Workspace

end Brackets
