import ShuttleWorks.Brackets.Formats.Spawn

/-! The compass draw: losers move to another direction of the compass. The
directions are spawned from a fixed table, as far as the rounds they come from
have two losers. -/

namespace Brackets
open Lib

/-- `_SPAWN_TABLE`: the segment, and the round of the segment whose losers enter it. -/
def spawnTable : List (String × String × Nat) :=
  [("W", "E", 0), ("N", "E", 1), ("S", "W", 0), ("NE", "E", 2), ("NW", "N", 0), ("SE", "W", 1),
    ("SW", "S", 0)]

/-- One entry of the table: a segment over the losers, when there are two at least. -/
def addDirection (eventId : EventId) (idPrefix : String) (durationSlots : Nat)
    (built : List BuiltSegment) (entry : String × String × Nat) :
    Except String (List BuiltSegment) :=
  match built.find? (fun b => b.segment.id = entry.2.1) with
  | none => .ok built
  | some source =>
    match source.segment.rounds[entry.2.2]? with
    | none => .ok built
    | some sourceUnits =>
      if sourceUnits.length < 2 then .ok built
      else
        (buildKnockout (sourceUnits.map fun id => .feeder id .loser) eventId idPrefix entry.1
          built.length durationSlots).map fun units =>
            built ++ [builtSegment "compass" entry.1 built.length none units]

def generateCompass (participants : List Participant) (eventId : EventId) (idPrefix : String)
    (durationSlots : Nat) (seededCount bracketSize : Option Nat) : Except String Draw := do
  let (size, seeded) ← bracketShape participants seededCount bracketSize
  let east ← buildKnockout (entrantSlots participants size) eventId idPrefix "E" 0 durationSlots
  let built ← spawnTable.foldlM (addDirection eventId idPrefix durationSlots)
    [builtSegment "compass" "E" 0 none east]
  assemble (knockoutEvent eventId "compass" size participants.length seeded) participants built

/-! ## The directions of a size -/

/-- The direction an entry of the table names, over the losers of its round of `p`. -/
def direction (p : PlannedKnockout) (entry : String × String × Nat) : PlannedKnockout where
  segId := entry.1
  k := p.k - 1 - entry.2.2
  source := some (entry.2.1, entry.2.2)

/-- The table read as a plan: a direction per round with two losers at least. -/
def planDirection (plan : List PlannedKnockout) (entry : String × String × Nat) :
    List PlannedKnockout :=
  match plan.find? (fun p => p.segId = entry.2.1) with
  | none => plan
  | some p =>
    if entry.2.2 < p.k then plan ++ [direction p entry]
    else plan

def compassPlan (k : Nat) : List PlannedKnockout :=
  spawnTable.foldl planDirection [{ segId := "E", k := k }]

/-- What all knockouts of a compass draw share. -/
def compassDraw (participants : List Participant) (size : Nat) (eventId : EventId)
    (idPrefix : String) (durationSlots : Nat) : KnockoutDraw where
  formatId := "compass"
  idPrefix := idPrefix
  eventId := eventId
  durationSlots := durationSlots
  entrants := entrantSlots participants size

/-- A plan over part of the table: every direction is the table's and no round is used twice. -/
structure DirectionPlan (kd : KnockoutDraw) (done : List (String × String × Nat))
    (plan : List PlannedKnockout) : Prop where
  spawn : SpawnPlan kd plan
  root : ∀ p ∈ plan, p.source = none → p.segId = "E" ∧ p.positions = none
  table : ∀ p ∈ plan, ∀ segId r, p.source = some (segId, r) →
    (p.segId, segId, r) ∈ done ∧ p.positions = none

theorem find?_built (kd : KnockoutDraw) (plan : List PlannedKnockout) (segId : String) :
    (∀ p, plan.find? (fun p => p.segId = segId) = some p → ∃ i, plan[i]? = some p ∧
      (plan.mapIdx kd.built).find? (fun b => b.segment.id = segId) = some (kd.built i p)) ∧
    (plan.find? (fun p => p.segId = segId) = none →
      (plan.mapIdx kd.built).find? (fun b => b.segment.id = segId) = none) := by
  have general : ∀ n, (∀ p, plan.find? (fun p => p.segId = segId) = some p →
      ∃ i, plan[i]? = some p ∧
        (plan.mapIdx fun i p => kd.built (i + n) p).find? (fun b => b.segment.id = segId) =
          some (kd.built (i + n) p)) ∧
      (plan.find? (fun p => p.segId = segId) = none →
        (plan.mapIdx fun i p => kd.built (i + n) p).find? (fun b => b.segment.id = segId) =
          none) := by
    induction plan with
    | nil => simp
    | cons q plan ih =>
      intro n
      have id : (kd.built (0 + n) q).segment.id = q.segId := rfl
      have shift : (fun i p => kd.built (i + 1 + n) p) = fun i p => kd.built (i + (n + 1)) p := by
        funext i p
        rw [show i + 1 + n = i + (n + 1) from by omega]
      rw [List.mapIdx_cons, List.find?_cons, List.find?_cons, id]
      by_cases h : q.segId = segId
      · simp only [h, decide_true]
        refine ⟨fun p hp => ?_, fun hp => by cases hp⟩
        cases hp
        exact ⟨0, rfl, rfl⟩
      · simp only [h, decide_false, shift]
        obtain ⟨found, missing⟩ := ih (n + 1)
        refine ⟨fun p hp => ?_, missing⟩
        obtain ⟨i, hi, hb⟩ := found p hp
        exact ⟨i + 1, by simpa using hi, by rw [hb, show i + 1 + n = i + (n + 1) from by omega]⟩
  simpa using general 0

variable {kd : KnockoutDraw} {participants : List Participant} {idPrefix : String} {size : Nat}

theorem SpawnPlan.rounds_getElem? {plan : List PlannedKnockout} (h : SpawnPlan kd plan)
    {p : PlannedKnockout} (hp : p ∈ plan) (order r : Nat) :
    (kd.built order p).segment.rounds[r]? =
      if r < p.k + 1 then
        some ((List.range (2 ^ (p.k - r))).map (knockoutUnitId kd.idPrefix p.segId r))
      else none := by
  show (((kd.cascade p order).rounds (kd.entrySlots p)).map fun round =>
    round.map PlayUnit.id)[r]? = _
  rw [Cascade.rounds_eq _ (h.length_entrySlots hp) (.participant BYE)]
  split
  · next hr =>
    simp only [List.getElem?_map, List.getElem?_range hr, Option.map_some, Cascade.map_unitAt_id]
    rfl
  · next hr =>
    simp [hr]

theorem DirectionPlan.add {done : List (String × String × Nat)} {plan : List PlannedKnockout}
    (h : DirectionPlan kd done plan) (entry : String × String × Nat)
    (new : ∀ e ∈ done, e.1 ≠ entry.1 ∧ e.2 ≠ entry.2) (east : entry.1 ≠ "E")
    (dash : DashFree entry.1) (named : positionsOfId entry.1 = none) :
    DirectionPlan kd (done ++ [entry]) (planDirection plan entry) := by
  unfold planDirection
  have weaken : DirectionPlan kd (done ++ [entry]) plan :=
    ⟨h.spawn, h.root, fun p hp segId r hs =>
      ⟨List.mem_append_left _ (h.table p hp segId r hs).1, (h.table p hp segId r hs).2⟩⟩
  split
  · exact weaken
  next q hq =>
  split
  case isFalse => exact weaken
  next hr =>
  have mem : q ∈ plan := List.mem_of_find?_eq_some hq
  have seg : q.segId = entry.2.1 := by simpa using List.find?_some hq
  have fresh : ∀ p ∈ plan, p.segId ≠ entry.1 := by
    intro p hp e
    cases hs : p.source with
    | none => exact east (e ▸ (h.root p hp hs).1)
    | some src => exact (new _ (h.table p hp src.1 src.2 hs).1).1 e
  have unused : ∀ p ∈ plan, p.source ≠ some entry.2 := by
    intro p hp e
    exact (new _ (h.table p hp entry.2.1 entry.2.2 e).1).2 rfl
  obtain ⟨j, hj⟩ := List.getElem?_of_mem mem
  have inside : j < plan.length := (List.getElem?_eq_some_iff.mp hj).1
  -- a place of the longer plan is a place of the old one or the new direction's
  have cases : ∀ {i : Nat} {p}, (plan ++ [direction q entry])[i]? = some p →
      plan[i]? = some p ∨ (i = plan.length ∧ p = direction q entry) := by
    intro i p hi
    by_cases lt : i < plan.length
    · rw [List.getElem?_append_left lt] at hi
      exact Or.inl hi
    · rw [List.getElem?_append_right (by omega)] at hi
      obtain ⟨hlt, e⟩ := List.getElem?_eq_some_iff.mp hi
      simp only [List.length_singleton] at hlt
      have : i - plan.length = 0 := by omega
      simp only [this, List.getElem_cons_zero] at e
      exact Or.inr ⟨by omega, e.symm⟩
  refine ⟨⟨by simp, h.spawn.entrants, ?_, ?_, ?_, ?_, ?_, ?_⟩, ?_, ?_⟩
  · intro i p hi hs
    rcases cases hi with hi | ⟨-, rfl⟩
    · exact h.spawn.root i p hi hs
    · cases hs
  · intro i p hi segId r hs
    rcases cases hi with hi | ⟨rfl, rfl⟩
    · obtain ⟨j, hj, q, hq, e⟩ := h.spawn.spawned i p hi segId r hs
      refine ⟨j, hj, q, ?_, e⟩
      rw [List.getElem?_append_left (List.getElem?_eq_some_iff.mp hq).1]
      exact hq
    · cases hs
      refine ⟨j, inside, q, ?_, seg, by dsimp only [direction]; omega⟩
      rw [List.getElem?_append_left inside]
      exact hj
  · intro p hp p' hp' same
    rw [List.mem_append, List.mem_singleton] at hp hp'
    rcases hp with hp | rfl <;> rcases hp' with hp' | rfl
    · exact h.spawn.once p hp p' hp' same
    · exact absurd same (unused p hp)
    · exact absurd same.symm (unused p' hp')
    · rfl
  · rw [List.map_append, List.nodup_append]
    refine ⟨h.spawn.ids, by simp, ?_⟩
    intro a ha b hb
    obtain ⟨p, hp, rfl⟩ := List.mem_map.mp ha
    simp only [List.map_cons, List.map_nil, List.mem_singleton] at hb
    exact hb ▸ fresh p hp
  · intro p hp
    rw [List.mem_append, List.mem_singleton] at hp
    rcases hp with hp | rfl
    · exact h.spawn.dashFree p hp
    · exact dash
  · intro p hp
    rw [List.mem_append, List.mem_singleton] at hp
    rcases hp with hp | rfl
    · exact h.spawn.positions p hp
    · exact named
  · intro p hp hs
    rw [List.mem_append, List.mem_singleton] at hp
    rcases hp with hp | rfl
    · exact h.root p hp hs
    · cases hs
  · intro p hp segId r hs
    rw [List.mem_append, List.mem_singleton] at hp
    rcases hp with hp | rfl
    · exact ⟨List.mem_append_left _ (h.table p hp segId r hs).1, (h.table p hp segId r hs).2⟩
    · cases hs
      exact ⟨List.mem_append_right _ List.mem_cons_self, rfl⟩

theorem addDirection_eq {eventId : EventId} {durationSlots : Nat} {plan : List PlannedKnockout}
    (h : SpawnPlan (compassDraw participants size eventId idPrefix durationSlots) plan)
    (entry : String × String × Nat) :
    addDirection eventId idPrefix durationSlots
        (plan.mapIdx (compassDraw participants size eventId idPrefix durationSlots).built) entry =
      .ok ((planDirection plan entry).mapIdx
        (compassDraw participants size eventId idPrefix durationSlots).built) := by
  obtain ⟨found, missing⟩ :=
    find?_built (compassDraw participants size eventId idPrefix durationSlots) plan entry.2.1
  unfold addDirection planDirection
  cases hf : plan.find? (fun p => p.segId = entry.2.1) with
  | none => rw [missing hf]
  | some q =>
    obtain ⟨i, -, hb⟩ := found q hf
    have mem : q ∈ plan := List.mem_of_find?_eq_some hf
    have seg : q.segId = entry.2.1 := by simpa using List.find?_some hf
    rw [hb]
    dsimp only
    rw [h.rounds_getElem? mem]
    by_cases hr : entry.2.2 < q.k
    · have two : 2 ^ (q.k - entry.2.2) = 2 ^ (q.k - 1 - entry.2.2 + 1) := by
        congr 1
        omega
      have many : ¬ ((List.range (2 ^ (q.k - entry.2.2))).map
          (knockoutUnitId idPrefix q.segId entry.2.2)).length < 2 := by
        have : 0 < 2 ^ (q.k - 1 - entry.2.2) := Nat.two_pow_pos _
        rw [List.length_map, List.length_range, two, Nat.pow_succ]
        omega
      have entries : ((List.range (2 ^ (q.k - entry.2.2))).map
          (knockoutUnitId idPrefix q.segId entry.2.2)).map
            (fun id => BracketSlot.feeder id .loser) =
          KnockoutDraw.losers idPrefix entry.2.1 entry.2.2 (2 ^ (q.k - 1 - entry.2.2 + 1)) := by
        rw [List.map_map, KnockoutDraw.losers, two, seg]
        rfl
      have len : (KnockoutDraw.losers idPrefix entry.2.1 entry.2.2
          (2 ^ (q.k - 1 - entry.2.2 + 1))).length = 2 ^ (q.k - 1 - entry.2.2 + 1) := by
        simp [KnockoutDraw.losers]
      rw [if_pos (by omega : entry.2.2 < q.k + 1), if_pos hr]
      dsimp only [compassDraw] at many entries ⊢
      rw [if_neg many, entries, buildKnockout_eq len, List.mapIdx_append]
      simp only [List.length_mapIdx, List.mapIdx_cons, List.mapIdx_nil, Nat.zero_add]
      rfl
    · rw [if_neg hr]
      split
      · rfl
      · next ids hids =>
        split at hids
        · cases hids
          have one : ((List.range (2 ^ (q.k - entry.2.2))).map
              (knockoutUnitId idPrefix q.segId entry.2.2)).length < 2 := by
            rw [List.length_map, List.length_range, show q.k - entry.2.2 = 0 from by omega]
            omega
          exact if_pos one
        · cases hids

theorem foldlM_addDirection {eventId : EventId} {durationSlots : Nat}
    (entries done : List (String × String × Nat)) {plan : List PlannedKnockout}
    (h : DirectionPlan (compassDraw participants size eventId idPrefix durationSlots) done plan)
    (new : ((done ++ entries).map fun e => e.1).Nodup ∧ ((done ++ entries).map fun e => e.2).Nodup)
    (ok : ∀ e ∈ entries, e.1 ≠ "E" ∧ DashFree e.1 ∧ positionsOfId e.1 = none) :
    entries.foldlM (addDirection eventId idPrefix durationSlots)
        (plan.mapIdx (compassDraw participants size eventId idPrefix durationSlots).built) =
      .ok ((entries.foldl planDirection plan).mapIdx
        (compassDraw participants size eventId idPrefix durationSlots).built) ∧
    DirectionPlan (compassDraw participants size eventId idPrefix durationSlots) (done ++ entries)
      (entries.foldl planDirection plan) := by
  induction entries generalizing done plan with
  | nil => exact ⟨rfl, by simpa using h⟩
  | cons e entries ih =>
    obtain ⟨east, dash, named⟩ := ok e List.mem_cons_self
    have apart : ∀ e' ∈ done, e'.1 ≠ e.1 ∧ e'.2 ≠ e.2 := by
      intro e' he'
      obtain ⟨n₁, n₂⟩ := new
      rw [List.map_append, List.nodup_append] at n₁ n₂
      exact ⟨n₁.2.2 _ (List.mem_map_of_mem he') _ (by simp),
        n₂.2.2 _ (List.mem_map_of_mem he') _ (by simp)⟩
    have next := h.add e apart east dash named
    obtain ⟨fold, last⟩ := ih (done ++ [e]) next (by simpa using new)
      (fun e he => ok e (List.mem_cons_of_mem _ he))
    rw [List.foldlM_cons, addDirection_eq h.spawn, ok_bind]
    exact ⟨fold, by simpa using last⟩

/-- **A compass draw is laid out by its plan.** -/
theorem generateCompass_ok {eventId : EventId} {durationSlots : Nat}
    {seededCount bracketSize : Option Nat} {d : Draw}
    (h : generateCompass participants eventId idPrefix durationSlots seededCount bracketSize =
      .ok d) :
    ∃ size seeded k, size = 2 ^ (k + 1) ∧
      SpawnPlan (compassDraw participants size eventId idPrefix durationSlots) (compassPlan k) ∧
      assemble (knockoutEvent eventId "compass" size participants.length seeded) participants
        ((compassPlan k).mapIdx
          (compassDraw participants size eventId idPrefix durationSlots).built) = .ok d := by
  unfold generateCompass at h
  obtain ⟨⟨size, seeded⟩, hs, h⟩ := bind_eq_ok.mp h
  obtain ⟨⟨k, rfl⟩, -, -, -⟩ := bracketShape_ok hs
  have root : DirectionPlan (compassDraw participants (2 ^ (k + 1)) eventId idPrefix durationSlots)
      [] [{ segId := "E", k := k }] := by
    have east : DashFree "E" ∧ positionsOfId "E" = none := by decide
    refine ⟨SpawnPlan.single (entrantSlots_participants _ _)
      (length_entrantSlots participants (2 ^ (k + 1))) east.1 east.2, ?_, ?_⟩
    · intro p hp _
      rw [List.mem_singleton.mp hp]
      exact ⟨rfl, rfl⟩
    · intro p hp segId r hs
      rw [List.mem_singleton.mp hp] at hs
      cases hs
  obtain ⟨fold, last⟩ := foldlM_addDirection spawnTable [] root (by decide) (by decide)
  refine ⟨2 ^ (k + 1), seeded, k, rfl, last.spawn, ?_⟩
  dsimp only at h
  rw [buildKnockout_eq (length_entrantSlots participants (2 ^ (k + 1))), ok_bind] at h
  obtain ⟨built, hb, h⟩ := bind_eq_ok.mp h
  have : built = (compassPlan k).mapIdx
      (compassDraw participants (2 ^ (k + 1)) eventId idPrefix durationSlots).built := by
    refine Except.ok.inj (hb.symm.trans ?_)
    exact fold
  rw [← this]
  exact h

end Brackets
