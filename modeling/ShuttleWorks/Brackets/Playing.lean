import ShuttleWorks.Brackets.Guarantees
import ShuttleWorks.Brackets.Paths

/-! Draws played to their end. Whatever is decided, recording leads from every state of
a session to one where no unit is open; when every match is decided on the court, who
sits in a unit with a result won it or was beaten in it. -/

namespace Brackets
open Lib Relation

variable {participants : List Participant} {ds : List Draw} {d : Draw} {s s' : TournamentState}
  {allowed : PlayUnitId → Result → Prop} {x : ParticipantId} {u : PlayUnit} {r : Result}
  {choice : PlayUnitId → Result}

/-! ## What a state shows of a draw -/

namespace TournamentState

def seats (s : TournamentState) (id : PlayUnitId) : List ParticipantId :=
  match s.playUnits.get id with
  | some unit => unit.sideA ++ unit.sideB
  | none => []

def sent (s : TournamentState) (take : FeederTake) (id : PlayUnitId) : Option ParticipantId :=
  match s.playUnits.get id, s.result id with
  | some unit, some r => unit.fed r take
  | _, _ => none

def PlayedAt (s : TournamentState) (id : PlayUnitId) : Prop := ∃ r ∈ s.result id, r.Played

instance (s : TournamentState) (id : PlayUnitId) : Decidable (s.PlayedAt id) :=
  inferInstanceAs (Decidable (∃ r ∈ s.result id, r.Played))

end TournamentState

namespace Draw

def ids (d : Draw) : List PlayUnitId := d.playUnits.rows.map PlayUnit.id

def matchesOf (d : Draw) (s : TournamentState) (x : ParticipantId) : List PlayUnitId :=
  d.ids.filter fun id => x ∈ s.seats id ∧ s.PlayedAt id

def lossesOf (d : Draw) (s : TournamentState) (x : ParticipantId) : List PlayUnitId :=
  d.ids.filter fun id => s.sent .loser id = some x

def Precedes (d : Draw) : PlayUnitId → PlayUnitId → Prop :=
  TransGen fun id id' => ∃ u ∈ d.playUnits.rows, u.id = id' ∧ id ∈ u.dependencies

def Completed (d : Draw) (s : TournamentState) : Prop :=
  ∀ u ∈ d.playUnits.rows, u.metadata.conditional = false → s.Resulted u.id

end Draw

/-- What is recorded in the draw is played, but for units that are only played if needed. -/
def PlayedIn (d : Draw) (id : PlayUnitId) (r : Result) : Prop :=
  ∀ u ∈ d.playUnits.rows, u.id = id → u.metadata.conditional = false → r.Played

/-- The states a session comes to when the matches of one draw are decided on the court. -/
def PlayedReached (ds : List Draw) (d : Draw) : TournamentState → Prop :=
  Reachable (fun s => registerDraws ds = .ok s)
    (fun s a s' => RecordStep (eventIds ds) s a s' ∧ PlayedIn d a.1 a.2)

theorem PlayedReached.session (hd : ∀ d ∈ ds, Drawn d) (h : PlayedReached ds d s) :
    Session ds (PlayedIn d) s :=
  h.invariant (fun _ h => registerDraws_session hd h) (fun _ _ _ _ hs h => h.1.session h.2 hs)

/-! ## The paths through a session's draw -/

theorem Session.routing (hs : Session ds allowed s) (hd : d ∈ ds) (drawn : Drawn d)
    (routed : Routed participants d.playUnits.rows)
    (distinct : (participants.map Participant.id).Nodup) :
    Routing participants (origin ds) d.playUnits.rows s.playUnits s.result := by
  have sub : ∀ u ∈ d.playUnits.rows, u ∈ origin ds := fun u hu => List.mem_flatMap.mpr ⟨d, hd, hu⟩
  refine ⟨hs.wf, sub, ?_, routed, distinct, hs.sound.consistent⟩
  intro u hu v hv hdep
  obtain ⟨w, hw, e⟩ := drawn.units.closed hu hdep
  exact hs.wf.eq_of_id_eq (sub w hw) hv e ▸ hw

theorem Session.decides (hs : Session ds (PlayedIn d) s) (hd : d ∈ ds) (hu : u ∈ d.playUnits.rows)
    (always : u.metadata.conditional = false) (hr : s.result u.id = some r) :
    Decides (fun _ r => r.Played) (settleUnit s.playUnits s.result u) r := by
  have stored := hs.sound.consistent.get (List.mem_flatMap.mpr ⟨d, hd, hu⟩)
  rcases hs.sound.explained _ _ r stored hr with walkover | ⟨both, played⟩
  · exact Or.inl walkover
  · exact Or.inr ⟨both, played u hu rfl always⟩

namespace Routing

variable {o D : List PlayUnit} {units : PlayUnits} {res : PlayUnitId → Option Result} {a b : Seat}

theorem outcome (ha : Sits D units res x a) (hr : res a.1.id = some r)
    (decides : Decides (fun _ r => r.Played) (settleUnit units res a.1) r) :
    fedPlace r.winnerSide .winner = some a.2 ∨ Beaten D units res x a := by
  obtain ⟨u, i⟩ := a
  rcases decides with ⟨side, due, rfl⟩ | ⟨-, decided, on⟩
  · -- a walkover is won by the side that is not empty
    left
    have here : (settleUnit units res u).side i ≠ [] := List.ne_nil_of_mem ha.2
    unfold walkoverSide at due
    cases i with
    | A =>
      cases hA : (settleUnit units res u).sideA with
      | nil => exact absurd hA here
      | cons p l =>
        cases hB : (settleUnit units res u).sideB with
        | nil =>
          simp only [hA, hB, List.isEmpty_cons, List.isEmpty_nil, Option.some.injEq] at due
          rw [← due]
          rfl
        | cons q m => simp [hA, hB] at due
    | B =>
      cases hB : (settleUnit units res u).sideB with
      | nil => exact absurd hB here
      | cons p l =>
        cases hA : (settleUnit units res u).sideA with
        | nil =>
          simp only [hA, hB, List.isEmpty_cons, List.isEmpty_nil, Option.some.injEq] at due
          rw [← due]
          rfl
        | cons q m => simp [hA, hB] at due
  · cases hw : r.winnerSide with
    | NONE => exact absurd hw decided
    | A =>
      cases i with
      | A => exact Or.inl rfl
      | B => exact Or.inr ⟨ha, r, hr, by rw [hw]; rfl, decided, on⟩
    | B =>
      cases i with
      | A => exact Or.inr ⟨ha, r, hr, by rw [hw]; rfl, decided, on⟩
      | B => exact Or.inl rfl

theorem winner (ha : Sits D units res x a) (hr : res a.1.id = some r)
    (decides : Decides (fun _ r => r.Played) (settleUnit units res a.1) r) :
    ∃ y i, Sits D units res y (a.1, i) ∧ fedPlace r.winnerSide .winner = some i := by
  rcases outcome ha hr decides with won | ⟨-, r', hr', lost, decided, on⟩
  · exact ⟨x, a.2, ha, won⟩
  · rw [hr] at hr'
    cases hr'
    -- the loser has an opponent, since nobody is beaten by walkover
    have sides : (settleUnit units res a.1).sideA ≠ [] ∧ (settleUnit units res a.1).sideB ≠ [] := by
      rcases decides with ⟨side, -, rfl⟩ | ⟨both, -⟩
      · simp [walkover, loserCannotContinue] at on
      · exact walkoverSide_eq_none_iff.mp both
    obtain ⟨y, hy⟩ := List.exists_mem_of_ne_nil _ sides.1
    obtain ⟨z, hz⟩ := List.exists_mem_of_ne_nil _ sides.2
    cases hw : r.winnerSide with
    | NONE => exact absurd hw decided
    | A => exact ⟨y, .A, ⟨ha.1, hy⟩, rfl⟩
    | B => exact ⟨z, .B, ⟨ha.1, hz⟩, rfl⟩

theorem fed_loser_iff (h : Routing participants o D units res) (hu : u ∈ D)
    (hr : res u.id = some r) :
    (settleUnit units res u).fed r .loser = some x ↔ ∃ i, Beaten D units res x (u, i) := by
  constructor
  · intro fed
    obtain ⟨i, place, side⟩ := mem_side_of_fed fed
    refine ⟨i, ⟨hu, side⟩, r, hr, place, ?_, ?_⟩
    · intro none
      rw [none] at place
      cases place
    · by_contra cannot
      rw [Bool.not_eq_false] at cannot
      simp [PlayUnit.fed, PlayUnit.loserParticipantId, cannot] at fed
  · rintro ⟨i, sits, r', hr', place, -, on⟩
    rw [hr] at hr'
    cases hr'
    exact fed_of_mem (h.alone sits).1 place (fun _ => on)

theorem beaten_take (ha : Beaten D units res x a) (hb : Moves D units res x a b) :
    b.1.slot b.2 = .feeder a.1.id .loser := by
  obtain ⟨-, r, hr, place, -⟩ := ha
  obtain ⟨-, -, r', take, hr', place', slot⟩ := hb
  rw [hr] at hr'
  cases hr'
  rw [fedPlace_inj place place']
  exact slot

theorem beaten_of_moves (h : Routing participants o D units res) (hb : Moves D units res x a b)
    (slot : b.1.slot b.2 = .feeder a.1.id .loser) : Beaten D units res x a := by
  obtain ⟨sits, next, r, take, hr, place, slot'⟩ := hb
  obtain rfl : FeederTake.loser = take := (BracketSlot.feeder.inj (slot.symm.trans slot')).2
  have stored := h.consistent.get (h.sub a.1 sits.1)
  obtain ⟨fed, -, -⟩ := (sideAt_of_fed (h.routed.sides b.1 next.1 b.2) slot hr stored).mp next.2
  obtain ⟨i, -, r', hr', place', played⟩ := (h.fed_loser_iff sits.1 hr).mp fed
  rw [hr] at hr'
  cases hr'
  exact ⟨sits, r, hr, place, played⟩

end Routing

/-! ## The draw of a state -/

theorem countP_isSome_eq {α β : Type} [DecidableEq β] {f : α → Option β} {l : List α}
    {keys : List β} (h : ∀ k, l.countP (fun a => f a = some k) = keys.count k) :
    l.countP (fun a => (f a).isSome) = keys.length := by
  rw [← List.length_filterMap_eq_countP]
  refine List.Perm.length_eq (List.perm_iff_count.mpr fun k => ?_)
  rw [List.count_filterMap, ← h k]
  exact List.countP_congr fun a _ => by simp

namespace Routing

theorem mem_seats (h : Routing participants (origin ds) d.playUnits.rows s.playUnits s.result)
    (hu : u ∈ d.playUnits.rows) :
    x ∈ s.seats u.id ↔ ∃ i, Sits d.playUnits.rows s.playUnits s.result x (u, i) := by
  rw [TournamentState.seats, h.consistent.get (h.sub u hu), List.mem_append]
  constructor
  · rintro (hx | hx)
    · exact ⟨.A, hu, hx⟩
    · exact ⟨.B, hu, hx⟩
  · rintro ⟨_ | _, -, hx⟩
    · exact Or.inl hx
    · exact Or.inr hx

theorem sent_loser (h : Routing participants (origin ds) d.playUnits.rows s.playUnits s.result)
    (hu : u ∈ d.playUnits.rows) :
    s.sent .loser u.id = some x ↔
      ∃ i, Beaten d.playUnits.rows s.playUnits s.result x (u, i) := by
  rw [TournamentState.sent, h.consistent.get (h.sub u hu)]
  cases hr : s.result u.id with
  | none =>
    simp only [reduceCtorEq, false_iff, not_exists]
    rintro i ⟨-, r, hr', -⟩
    rw [show s.result u.id = some r from hr'] at hr
    cases hr
  | some r => exact h.fed_loser_iff hu hr

theorem mem_lossesOf (h : Routing participants (origin ds) d.playUnits.rows s.playUnits s.result)
    {id : PlayUnitId} :
    id ∈ d.lossesOf s x ↔ ∃ u ∈ d.playUnits.rows, u.id = id ∧
      ∃ i, Beaten d.playUnits.rows s.playUnits s.result x (u, i) := by
  rw [Draw.lossesOf, List.mem_filter, decide_eq_true_eq, Draw.ids, List.mem_map]
  constructor
  · rintro ⟨⟨u, hu, rfl⟩, lost⟩
    exact ⟨u, hu, rfl, (h.sent_loser hu).mp lost⟩
  · rintro ⟨u, hu, rfl, lost⟩
    exact ⟨⟨u, hu, rfl⟩, (h.sent_loser hu).mpr lost⟩

theorem playedAt_iff {D : List PlayUnit}
    (h : Routing participants (origin ds) D s.playUnits s.result) (hu : u ∈ D)
    (decides : ∀ r, s.result u.id = some r →
      Decides (fun _ r => r.Played) (settleUnit s.playUnits s.result u) r) :
    s.PlayedAt u.id ↔ (s.sent .loser u.id).isSome := by
  rw [TournamentState.sent, h.consistent.get (h.sub u hu)]
  cases hr : s.result u.id with
  | none =>
    have unplayed : ¬ s.PlayedAt u.id := by
      rintro ⟨r, hr', -⟩
      rw [hr] at hr'
      cases hr'
    simp [unplayed]
  | some r =>
    have same : s.PlayedAt u.id ↔ r.Played := by
      rw [TournamentState.PlayedAt, hr]
      constructor
      · rintro ⟨r', hr', played⟩
        rwa [Option.mem_some.mp hr']
      · exact fun played => ⟨r, rfl, played⟩
    rw [same]
    constructor
    · intro played
      rcases decides r hr with ⟨side, -, rfl⟩ | ⟨both, -⟩
      · exact absurd played.2 (by simp [walkover, loserCannotContinue])
      · obtain ⟨a, b⟩ := walkoverSide_eq_none_iff.mp both
        simp only [PlayUnit.fed, PlayUnit.loserParticipantId, played.2]
        cases hw : r.winnerSide with
        | NONE => exact absurd hw played.1
        | A => simpa [List.isSome_head?] using b
        | B => simpa [List.isSome_head?] using a
    · intro sends
      obtain ⟨y, fed⟩ := Option.isSome_iff_exists.mp sends
      obtain ⟨k, -, r', hr', -, played⟩ := (h.fed_loser_iff hu hr).mp fed
      cases hr.symm.trans hr'
      exact played

theorem precedes (h : Routing participants (origin ds) d.playUnits.rows s.playUnits s.result)
    {a b : Seat}
    (path : TransGen (Moves d.playUnits.rows s.playUnits s.result x) a b) :
    d.Precedes a.1.id b.1.id := by
  have step : ∀ {a b : Seat}, Moves d.playUnits.rows s.playUnits s.result x a b →
      ∃ u ∈ d.playUnits.rows, u.id = b.1.id ∧ a.1.id ∈ u.dependencies := fun {a b} move =>
    ⟨b.1, move.2.1.1, rfl, h.moves_depends move⟩
  induction path with
  | single move => exact .single (step move)
  | tail _ move ih => exact .tail ih (step move)

end Routing

/-! ## Playing on -/

theorem Session.playable (hs : Session ds allowed s) (hu : u ∈ origin ds)
    (new : s.result u.id = none) (ready : ∀ d ∈ u.dependencies, s.Resulted d) :
    Playable s (settleUnit s.playUnits s.result u) where
  stored := hs.sound.consistent.get hu
  sides := by
    have stored := hs.sound.consistent.get hu
    rw [← walkoverSide_eq_none_iff]
    by_contra some
    obtain ⟨side, due⟩ := Option.ne_none_iff_exists'.mp some
    have found := dueWalkover_eq_some.mpr ⟨stored, new, ready, hs.events u hu, due⟩
    rw [hs.swept] at found
    cases found
  new := new
  ready := ready

/-- **Every decision can be recorded.** Whatever each unit is to be decided with, a run of results
leads to a state in which no unit is open. -/
theorem Session.completes (hs : Session ds allowed s) (choice : PlayUnitId → Result)
    (ha : ∀ id, allowed id (choice id)) :
    ∃ calls s', Run (RecordStep (eventIds ds)) s calls s' ∧ (∀ a ∈ calls, a.2 = choice a.1) ∧
      ∀ u ∈ origin ds, s'.Resulted u.id := by
  obtain ⟨n, hn⟩ : ∃ n, n = (origin ds).countP fun u => ¬ s.Resulted u.id := ⟨_, rfl⟩
  induction n using Nat.strong_induction_on generalizing s with
  | h n ih =>
    by_cases done : ∀ u ∈ origin ds, s.Resulted u.id
    · exact ⟨[], s, .nil s, by simp, done⟩
    -- the first open unit of the order has its feeders done
    obtain ⟨u, hu, unresulted, ready⟩ : ∃ u ∈ origin ds, ¬ s.Resulted u.id ∧
        ∀ d ∈ u.dependencies, s.Resulted d := by
      by_contra none
      push Not at none
      refine done (hs.wf.ordered.induction (P := s.Resulted) (by simp) (fun u hu ih => ?_))
      by_contra unresulted
      obtain ⟨d, hd, undone⟩ := none u hu unresulted
      exact undone (ih d hd)
    have new : s.result u.id = none := by simpa [TournamentState.Resulted] using unresulted
    have playable := hs.playable hu new ready
    obtain ⟨s₁, affected, ok, -⟩ :=
      recordResult_ok (playable.recordable (hs.events u hu) (choice u.id))
    have step : RecordStep (eventIds ds) s (u.id, choice u.id) s₁ :=
      show RecordStep _ s ((settleUnit s.playUnits s.result u).id, _) s₁ from .record playable ok
    have fewer : (origin ds).countP (fun u => ¬ s₁.Resulted u.id) < n := by
      rw [hn]
      refine countP_lt_countP ?_ hu (by simpa using unresulted) ?_
      · intro v _ hv
        rw [decide_eq_true_eq] at hv ⊢
        intro resulted
        obtain ⟨r, hr⟩ := Option.isSome_iff_exists.mp resulted
        exact hv (by rw [TournamentState.Resulted, step.keeps hr]; rfl)
      · rw [decide_eq_true_eq, not_not, TournamentState.Resulted, step.result]
        rfl
    obtain ⟨calls, s', run, recorded, all⟩ := ih _ fewer (step.session (ha u.id) hs) rfl
    refine ⟨(u.id, choice u.id) :: calls, s', .cons step run, ?_, all⟩
    intro a h
    rcases List.mem_cons.mp h with rfl | h
    · rfl
    · exact recorded a h

/-- The states that come from deciding each match in one way, whatever the order. -/
def ChosenReached (ds : List Draw) (choice : PlayUnitId → Result) : TournamentState → Prop :=
  Reachable (fun s => registerDraws ds = .ok s)
    (fun s a s' => RecordStep (eventIds ds) s a s' ∧ a.2 = choice a.1)

theorem ChosenReached.session (hd : ∀ d ∈ ds, Drawn d) (h : ChosenReached ds choice s) :
    Session ds (fun id r => r = choice id) s :=
  h.invariant (fun _ h => registerDraws_session hd h) (fun _ _ _ _ hs h => h.1.session h.2 hs)

theorem Session.sameAt (hs : Session ds (fun id r => r = choice id) s)
    (hs' : Session ds (fun id r => r = choice id) s') (all : ∀ u ∈ origin ds, s.Resulted u.id)
    (all' : ∀ u ∈ origin ds, s'.Resulted u.id) :
    ∀ u ∈ origin ds, SameAt u.id s s' := by
  refine hs.wf.ordered.induction (P := fun id => SameAt id s s') (by simp) ?_
  intro u hu ih
  have units : settleUnit s.playUnits s.result u = settleUnit s'.playUnits s'.result u :=
    settleUnit_congr (hs.wf.shape u hu) fun d hd => ⟨(ih d hd).2, (ih d hd).1⟩
  have stored := hs.sound.consistent.get hu
  have stored' := hs'.sound.consistent.get hu
  obtain ⟨r, hr⟩ := Option.isSome_iff_exists.mp (all u hu)
  obtain ⟨r', hr'⟩ := Option.isSome_iff_exists.mp (all' u hu)
  refine ⟨by rw [stored, stored', units], ?_⟩
  -- both were walked over, or both were decided as chosen
  have same : r = r' := by
    rcases hs.sound.explained _ _ _ stored hr with ⟨side, due, rfl⟩ | ⟨both, chosen⟩ <;>
      rcases hs'.sound.explained _ _ _ stored' hr' with ⟨side', due', rfl⟩ | ⟨both', chosen'⟩
    · rw [units, due'] at due
      rw [Option.some.inj due]
    · rw [units, both'] at due
      cases due
    · rw [units, due'] at both
      cases both
    · rw [units] at chosen
      exact chosen.trans chosen'.symm
  rw [hr, hr', same]

/-- **Whatever is decided settles the tournament.** However the matches of generated draws are to be
decided, every state reached by deciding some of them so, in any order, can be played on in the same
way until no unit is open; and whatever the order, the slots, sides and results at the end are the
same. -/
theorem choices_settle (hd : ∀ d ∈ ds, IsGenerated d) (choice : PlayUnitId → Result) :
    (∀ s, ChosenReached ds choice s → ∃ calls s', Run (RecordStep (eventIds ds)) s calls s' ∧
      ChosenReached ds choice s' ∧ ∀ u ∈ origin ds, s'.Resulted u.id) ∧
    ∀ s s', ChosenReached ds choice s → ChosenReached ds choice s' →
      (∀ u ∈ origin ds, s.Resulted u.id) → (∀ u ∈ origin ds, s'.Resulted u.id) →
        s.playUnits = s'.playUnits ∧ s.result = s'.result := by
  have drawn : ∀ d ∈ ds, Drawn d := fun d h => (hd d h).drawn
  constructor
  · intro s h
    obtain ⟨calls, s', run, chosen, done⟩ := (h.session drawn).completes choice fun _ => rfl
    exact ⟨calls, s', run, Reachable.run_of h run chosen, done⟩
  · intro s s' h h' all all'
    have hs := h.session drawn
    have hs' := h'.session drawn
    exact hs.eq_of_sameAt hs' (hs.sameAt hs' all all')

theorem choices_settle_quartet : ∃ s₀ s, registerDraws [quartetDraw] = .ok s₀ ∧
    ChosenReached [quartetDraw] (fun _ => { winnerSide := .A }) s ∧
      ∀ u ∈ origin [quartetDraw], s.Resulted u.id := by
  obtain ⟨s₀, h₀⟩ := exists_ok_of_toOption
    (show (registerDraws [quartetDraw]).toOption.isSome by decide)
  obtain ⟨-, s, -, reached, all⟩ := (choices_settle quartetDraw_generated _).1 s₀ (.init h₀)
  exact ⟨s₀, s, h₀, reached, all⟩

theorem PlayedReached.run {calls : List (PlayUnitId × Result)} (h : PlayedReached ds d s)
    (run : Run (RecordStep (eventIds ds)) s calls s') (played : ∀ a ∈ calls, a.2.Played) :
    PlayedReached ds d s' :=
  Reachable.run_of h run fun a ha _ _ _ _ => played a ha

theorem PlayedReached.completes (drawn : ∀ d ∈ ds, Drawn d) (hd : d ∈ ds)
    (h : PlayedReached ds d s) (choice : PlayUnitId → Result) (played : ∀ id, (choice id).Played) :
    ∃ s', PlayedReached ds d s' ∧ d.Completed s' := by
  obtain ⟨calls, s', run, chosen, done⟩ :=
    (h.session drawn).completes choice fun id _ _ _ _ => played id
  refine ⟨s', h.run run fun a ha => ?_, fun u hu _ => done u (List.mem_flatMap.mpr ⟨d, hd, hu⟩)⟩
  rw [chosen a ha]
  exact played a.1

end Brackets
