import ShuttleWorks.Brackets.Formats.Spawn

/-! The double-elimination draw: a main bracket, a losers bracket whose rounds take
turns pairing their own winners and meeting a round of fresh losers, and a grand
final. Every outcome is followed to the one slot it feeds. -/

namespace Brackets
open Lib

/-- `_drop_order`: reversed in odd rounds, rotated by half in even ones. -/
def dropOrder (count w : Nat) : List Nat :=
  if w % 2 = 1 then (List.range count).reverse
  else List.range' (count / 2) (count - count / 2) ++ List.range (count / 2)

/-- The number of units in round `r` of the losers bracket. -/
def losersCount (size r : Nat) : Nat := size >>> (r / 2 + 2)

/-- The slots of unit `m` of round `r` of the losers bracket. -/
def losersSlots (idPrefix : String) (size r m : Nat) : BracketSlot × BracketSlot :=
  let wid := knockoutUnitId idPrefix "W"
  let lid := knockoutUnitId idPrefix "L"
  if r = 0 then (.feeder (wid 0 (2 * m)) .loser, .feeder (wid 0 (2 * m + 1)) .loser)
  else if r % 2 = 1 then
    let w := (r + 1) / 2
    (.feeder (lid (r - 1) m) .winner,
      .feeder (wid w ((dropOrder (losersCount size r) w).getD m 0)) .loser)
  else (.feeder (lid (r - 1) (2 * m)) .winner, .feeder (lid (r - 1) (2 * m + 1)) .winner)

/-- One unit of the losers bracket. -/
def losersUnit (eventId : EventId) (idPrefix : String) (durationSlots size r m : Nat) : PlayUnit :=
  let slots := losersSlots idPrefix size r m
  (segmentCascade eventId idPrefix "L" 1 durationSlots none).unit r m slots.1 slots.2
    (feedersOf slots.1 slots.2)

/-- The `2k - 2` rounds of the losers bracket. -/
def losersRounds (eventId : EventId) (idPrefix : String) (durationSlots size k : Nat) :
    List (List PlayUnit) :=
  (List.range (2 * k - 2)).map fun r =>
    (List.range (losersCount size r)).map (losersUnit eventId idPrefix durationSlots size r)

/-- The grand final between the two champions. -/
def grandFinal (eventId : EventId) (idPrefix : String) (durationSlots k : Nat) : PlayUnit :=
  let wFinal := knockoutUnitId idPrefix "W" (k - 1) 0
  let lFinal := knockoutUnitId idPrefix "L" (2 * k - 2 - 1) 0
  (segmentCascade eventId idPrefix "GF" 2 durationSlots none).unit 0 0 (.feeder wFinal .winner)
    (.feeder lFinal .winner) [wFinal, lFinal]

/-- The "if needed" reset: both meet again. -/
def grandFinalReset (eventId : EventId) (idPrefix : String) (durationSlots : Nat) : PlayUnit :=
  let gf0 := knockoutUnitId idPrefix "GF" 0 0
  let unit := (segmentCascade eventId idPrefix "GF" 2 durationSlots none).unit 1 0
    (.feeder gf0 .winner) (.feeder gf0 .loser) [gf0]
  { unit with metadata := { unit.metadata with conditional := true } }

def grandFinalRounds (eventId : EventId) (idPrefix : String) (durationSlots k : Nat)
    (reset : Bool) : List (List PlayUnit) :=
  [grandFinal eventId idPrefix durationSlots k] ::
    if reset then [[grandFinalReset eventId idPrefix durationSlots]] else []

def generateDoubleElimination (participants : List Participant) (eventId : EventId)
    (idPrefix : String) (durationSlots : Nat) (seededCount bracketSize : Option Nat)
    (reset : Bool) : Except String Draw := do
  let (size, seeded) ← bracketShape participants seededCount bracketSize true
  let k := size.log2
  let main ← buildKnockout (entrantSlots participants size) eventId idPrefix "W" 0 durationSlots
  assemble (knockoutEvent eventId "double_elimination" size participants.length seeded) participants
    [builtSegment "de" "W" 0 none main,
      builtSegment "de" "L" 1 none (losersRounds eventId idPrefix durationSlots size k),
      builtSegment "de" "GF" 2 none (grandFinalRounds eventId idPrefix durationSlots k reset)]

/-! ## The order of the drops -/

/-- The place of the drop `m`. -/
def drop (count w m : Nat) : Nat := (dropOrder count w).getD m 0

variable {m w r : Nat}

theorem drop_eq {count : Nat} (h : m < count) :
    drop count w m = if w % 2 = 1 then count - 1 - m
      else if m < count - count / 2 then count / 2 + m else m - (count - count / 2) := by
  unfold drop dropOrder
  rw [List.getD_eq_getElem?_getD]
  split
  · rw [List.getElem?_reverse (by simpa using h)]
    simp only [List.length_range]
    rw [List.getElem?_range (by omega)]
    rfl
  · rw [List.getElem?_append]
    simp only [List.length_range']
    split
    · next lt =>
      rw [List.getElem?_range' lt]
      simp
    · rw [List.getElem?_range (by omega)]
      rfl

theorem drop_drop {count : Nat} (h : m < count) (even : 2 ∣ count ∨ count = 1) :
    drop count w m < count ∧ drop count w (drop count w m) = m := by
  have lt : drop count w m < count := by
    rw [drop_eq h]
    split
    · omega
    · split <;> omega
  refine ⟨lt, ?_⟩
  rw [drop_eq lt, drop_eq h]
  split
  · omega
  · split <;> split <;> omega

/-! ## Where each outcome goes -/

/-- The three segments. -/
inductive Wing
  | W | L | GF
  deriving DecidableEq, Repr

def Wing.segId : Wing → String
  | .W => "W"
  | .L => "L"
  | .GF => "GF"

theorem Wing.dashFree (w : Wing) : DashFree w.segId := by
  cases w <;> exact show DashFree _ by decide

theorem Wing.segId_injective {w w' : Wing} (e : w.segId = w'.segId) : w = w' := by
  revert e
  cases w <;> cases w' <;> simp [segId]

/-- A unit by segment, round and match. -/
structure Spot where
  wing : Wing
  round : Nat
  index : Nat
  deriving DecidableEq, Repr

def Spot.id (idPrefix : String) (s : Spot) : PlayUnitId :=
  knockoutUnitId idPrefix s.wing.segId s.round s.index

theorem Spot.id_injective {idPrefix : String} {s t : Spot} (e : s.id idPrefix = t.id idPrefix) :
    s = t := by
  obtain ⟨wing, round, index⟩ := knockoutUnitId_inj s.wing.dashFree t.wing.dashFree e
  obtain ⟨w, r, m⟩ := s
  obtain ⟨w', r', m'⟩ := t
  obtain rfl := Wing.segId_injective wing
  cases round
  cases index
  rfl

def placeOf (m : Nat) : PlayUnit.Place := if m % 2 = 0 then .A else .B

theorem placeOf_number (m : Nat) : 2 * (m / 2) + (if placeOf m = .A then 0 else 1) = m := by
  unfold placeOf
  split
  · simp only [↓reduceIte]
    omega
  · simp only [reduceCtorEq, ↓reduceIte]
    omega

/-- The slot that an outcome feeds, for a size of `2 ^ (j + 1)`. -/
def target (j : Nat) : Spot → FeederTake → Spot × PlayUnit.Place
  | ⟨.W, r, m⟩, .winner =>
    if r < j then (⟨.W, r + 1, m / 2⟩, placeOf m) else (⟨.GF, 0, 0⟩, .A)
  | ⟨.W, r, m⟩, .loser =>
    if r = 0 then (⟨.L, 0, m / 2⟩, placeOf m)
    else (⟨.L, 2 * r - 1, drop (2 ^ (j - r)) r m⟩, .B)
  | ⟨.L, r, m⟩, _ =>
    if r = 2 * j - 1 then (⟨.GF, 0, 0⟩, .B)
    else if r % 2 = 0 then (⟨.L, r + 1, m⟩, .A)
    else (⟨.L, r + 1, m / 2⟩, placeOf m)
  | ⟨.GF, _, _⟩, .winner => (⟨.GF, 1, 0⟩, .A)
  | ⟨.GF, _, _⟩, .loser => (⟨.GF, 1, 0⟩, .B)

def offset : PlayUnit.Place → Nat
  | .A => 0
  | .B => 1

/-- The outcome that feeds a slot; a round-0 slot of the main bracket holds an entrant. -/
def source (j : Nat) : Spot → PlayUnit.Place → Option (Spot × FeederTake)
  | ⟨.W, 0, _⟩, _ => none
  | ⟨.W, r + 1, m⟩, i => some (⟨.W, r, 2 * m + offset i⟩, .winner)
  | ⟨.L, 0, m⟩, i => some (⟨.W, 0, 2 * m + offset i⟩, .loser)
  | ⟨.L, r + 1, m⟩, i =>
    if r % 2 = 1 then some (⟨.L, r, 2 * m + offset i⟩, .winner)
    else match i with
      | .A => some (⟨.L, r, m⟩, .winner)
      | .B => some (⟨.W, r / 2 + 1, drop (2 ^ (j - (r / 2 + 1))) (r / 2 + 1) m⟩, .loser)
  | ⟨.GF, 0, _⟩, .A => some (⟨.W, j, 0⟩, .winner)
  | ⟨.GF, 0, _⟩, .B => some (⟨.L, 2 * j - 1, 0⟩, .winner)
  | ⟨.GF, _ + 1, _⟩, .A => some (⟨.GF, 0, 0⟩, .winner)
  | ⟨.GF, _ + 1, _⟩, .B => some (⟨.GF, 0, 0⟩, .loser)

theorem pair_target (m : Nat) (i : PlayUnit.Place) :
    (2 * m + offset i) / 2 = m ∧ placeOf (2 * m + offset i) = i := by
  cases i with
  | A =>
    have even : (2 * m + offset .A) % 2 = 0 := by
      simp only [offset]
      omega
    exact ⟨by simp only [offset]; omega, if_pos even⟩
  | B =>
    have odd : ¬ (2 * m + offset .B) % 2 = 0 := by
      simp only [offset]
      omega
    exact ⟨by simp only [offset]; omega, if_neg odd⟩

theorem offset_lt (i : PlayUnit.Place) : offset i < 2 := by
  cases i <;> simp [offset]

theorem losersCount_eq {j : Nat} (h : r < 2 * j) :
    losersCount (2 ^ (j + 1)) r = 2 ^ (j - 1 - r / 2) := by
  rw [losersCount, Nat.shiftRight_eq_div_pow, Nat.pow_div (by omega) (by omega)]
  congr 1
  omega

theorem even_or_one (j : Nat) : 2 ∣ 2 ^ j ∨ 2 ^ j = 1 := by
  cases j with
  | zero => exact Or.inr rfl
  | succ j => exact Or.inl ⟨2 ^ j, by rw [Nat.pow_succ, Nat.mul_comm]⟩

/-- What a double elimination over `2 ^ (j + 1)` positions is made from. -/
structure DoubleDraw where
  participants : List Participant
  eventId : EventId
  idPrefix : String
  durationSlots : Nat
  j : Nat
  reset : Bool

namespace DoubleDraw

/-- The main bracket alone, as a plan of one knockout. -/
def winnersDraw (dd : DoubleDraw) : KnockoutDraw where
  formatId := "de"
  idPrefix := dd.idPrefix
  eventId := dd.eventId
  durationSlots := dd.durationSlots
  entrants := entrantSlots dd.participants (2 ^ (dd.j + 1))

def winnersPlan (dd : DoubleDraw) : PlannedKnockout := { segId := "W", k := dd.j }

def segments (dd : DoubleDraw) : List BuiltSegment :=
  [dd.winnersDraw.built 0 dd.winnersPlan,
    builtSegment "de" "L" 1 none
      (losersRounds dd.eventId dd.idPrefix dd.durationSlots (2 ^ (dd.j + 1)) (dd.j + 1)),
    builtSegment "de" "GF" 2 none
      (grandFinalRounds dd.eventId dd.idPrefix dd.durationSlots (dd.j + 1) dd.reset)]

/-- The spots of the draw. -/
inductive Valid (dd : DoubleDraw) : Spot → Prop
  | winners {r m : Nat} (hr : r < dd.j + 1) (hm : m < 2 ^ (dd.j - r)) : Valid dd ⟨.W, r, m⟩
  | losers {r m : Nat} (hr : r < 2 * dd.j) (hm : m < 2 ^ (dd.j - 1 - r / 2)) : Valid dd ⟨.L, r, m⟩
  | final : Valid dd ⟨.GF, 0, 0⟩
  | reset (on : dd.reset = true) : Valid dd ⟨.GF, 1, 0⟩

/-- The unit at a spot. -/
def unit (dd : DoubleDraw) : Spot → PlayUnit
  | ⟨.W, r, m⟩ =>
    (dd.winnersDraw.cascade dd.winnersPlan 0).unitAt (SpawnPlan.entry dd.winnersDraw dd.winnersPlan)
      r m
  | ⟨.L, r, m⟩ => losersUnit dd.eventId dd.idPrefix dd.durationSlots (2 ^ (dd.j + 1)) r m
  | ⟨.GF, 0, _⟩ => grandFinal dd.eventId dd.idPrefix dd.durationSlots (dd.j + 1)
  | ⟨.GF, _ + 1, _⟩ => grandFinalReset dd.eventId dd.idPrefix dd.durationSlots

def Earlier (s t : Spot) : Prop :=
  (s.wing = t.wing ∧ s.round < t.round) ∨ (s.wing = .W ∧ t.wing ≠ .W) ∨
    (s.wing = .L ∧ t.wing = .GF)

variable {dd : DoubleDraw} {u : PlayUnit} {s : Spot} {i : PlayUnit.Place} {n : Nat}
  {b : BuiltSegment}

theorem winners_spawn (dd : DoubleDraw) : SpawnPlan dd.winnersDraw [dd.winnersPlan] := by
  have named : DashFree "W" ∧ positionsOfId "W" = none := by decide
  exact SpawnPlan.single (entrantSlots_participants _ _) (length_entrantSlots _ _) named.1 named.2

theorem at_winners :
    At (dd.winnersDraw.built 0 dd.winnersPlan).units r m u ↔
      dd.Valid ⟨.W, r, m⟩ ∧ dd.unit ⟨.W, r, m⟩ = u := by
  rw [dd.winners_spawn.at_built (List.mem_singleton_self _)]
  constructor
  · rintro ⟨hr, hm, hu⟩
    exact ⟨.winners hr hm, hu⟩
  · rintro ⟨valid, hu⟩
    obtain ⟨hr, hm⟩ : r < dd.j + 1 ∧ m < 2 ^ (dd.j - r) := by
      cases valid with
      | winners hr hm => exact ⟨hr, hm⟩
    exact ⟨hr, hm, hu⟩

theorem at_losers :
    At (losersRounds dd.eventId dd.idPrefix dd.durationSlots (2 ^ (dd.j + 1)) (dd.j + 1)) r m u ↔
      dd.Valid ⟨.L, r, m⟩ ∧ dd.unit ⟨.L, r, m⟩ = u := by
  rw [losersRounds, at_table, show 2 * (dd.j + 1) - 2 = 2 * dd.j from by omega]
  constructor
  · rintro ⟨hr, hm, hu⟩
    exact ⟨.losers hr (by rwa [losersCount_eq hr] at hm), hu⟩
  · rintro ⟨valid, hu⟩
    obtain ⟨hr, hm⟩ : r < 2 * dd.j ∧ m < 2 ^ (dd.j - 1 - r / 2) := by
      cases valid with
      | losers hr hm => exact ⟨hr, hm⟩
    exact ⟨hr, by rwa [losersCount_eq hr], hu⟩

theorem at_grandFinal :
    At (grandFinalRounds dd.eventId dd.idPrefix dd.durationSlots (dd.j + 1) dd.reset) r m u ↔
      dd.Valid ⟨.GF, r, m⟩ ∧ dd.unit ⟨.GF, r, m⟩ = u := by
  unfold grandFinalRounds
  constructor
  · rintro ⟨row, hr, hm⟩
    rcases r with _ | _ | r
    · simp only [List.getElem?_cons_zero, Option.some.injEq] at hr
      subst hr
      cases m with
      | zero => exact ⟨.final, Option.some.inj hm⟩
      | succ m => simp at hm
    · cases on : dd.reset with
      | false => simp [on] at hr
      | true =>
        simp only [on, ↓reduceIte, List.getElem?_cons_succ, List.getElem?_cons_zero,
          Option.some.injEq] at hr
        subst hr
        cases m with
        | zero => exact ⟨.reset on, Option.some.inj hm⟩
        | succ m => simp at hm
    · cases on : dd.reset <;> simp [on] at hr
  · rintro ⟨valid, rfl⟩
    cases valid with
    | final => exact ⟨_, rfl, rfl⟩
    | reset on =>
      rw [on]
      exact ⟨_, rfl, rfl⟩

theorem mem_segments :
    u ∈ allUnits dd.segments ↔ ∃ s, dd.Valid s ∧ dd.unit s = u := by
  simp only [allUnits, segments, List.flatMap_cons, List.flatMap_nil, List.append_nil,
    List.mem_append, mem_flatten_iff_at, builtSegment, at_winners, at_losers, at_grandFinal]
  constructor
  · rintro (⟨r, m, h⟩ | ⟨r, m, h⟩ | ⟨r, m, h⟩)
    · exact ⟨_, h⟩
    · exact ⟨_, h⟩
    · exact ⟨_, h⟩
  · rintro ⟨⟨wing, r, m⟩, valid, hu⟩
    cases wing with
    | W => exact Or.inl ⟨r, m, valid, hu⟩
    | L => exact Or.inr (Or.inl ⟨r, m, valid, hu⟩)
    | GF => exact Or.inr (Or.inr ⟨r, m, valid, hu⟩)

theorem unit_id (s : Spot) (h : dd.Valid s) : (dd.unit s).id = s.id dd.idPrefix := by
  cases h with
  | winners hr hm => exact Cascade.unitAt_id _ _ _ _
  | losers hr hm => rfl
  | final => rfl
  | reset on => rfl

/-- **An outcome goes back to the slot it feeds**, and it comes from an earlier spot. -/
theorem source_ok (four : 1 ≤ dd.j) {t : Spot} (hs : dd.Valid s) {take : FeederTake}
    (h : source dd.j s i = some (t, take)) :
    dd.Valid t ∧ Earlier t s ∧ target dd.j t take = (s, i) := by
  have small := offset_lt i
  cases hs with
  | @winners r m hr hm =>
    cases r with
    | zero => cases h
    | succ r =>
      cases h
      have size : dd.j - r = dd.j - (r + 1) + 1 := by omega
      refine ⟨.winners (by omega) ?_, Or.inl ⟨rfl, by simp⟩, ?_⟩
      · rw [size, Nat.pow_succ]
        omega
      · obtain ⟨half, place⟩ := pair_target m i
        rw [target, if_pos (by omega), half, place]
  | @losers r m hr hm =>
    cases r with
    | zero =>
      cases h
      refine ⟨.winners (by omega) ?_, Or.inr (Or.inl ⟨rfl, by simp⟩), ?_⟩
      · rw [show dd.j - 0 = dd.j - 1 - 0 / 2 + 1 from by omega, Nat.pow_succ]
        omega
      · obtain ⟨half, place⟩ := pair_target m i
        rw [target, if_pos rfl, half, place]
    | succ r =>
      by_cases odd : r % 2 = 1
      · simp only [source, if_pos odd, Option.some.injEq, Prod.mk.injEq] at h
        obtain ⟨rfl, rfl⟩ := h
        refine ⟨.losers (by omega) ?_, Or.inl ⟨rfl, by simp⟩, ?_⟩
        · rw [show dd.j - 1 - r / 2 = dd.j - 1 - (r + 1) / 2 + 1 from by omega, Nat.pow_succ]
          omega
        · obtain ⟨half, place⟩ := pair_target m i
          rw [target, if_neg (by omega), if_neg (by omega), half, place]
      · have same : (r + 1) / 2 = r / 2 := by omega
        cases i with
        | A =>
          simp only [source, if_neg odd, Option.some.injEq, Prod.mk.injEq] at h
          obtain ⟨rfl, rfl⟩ := h
          refine ⟨.losers (by omega) (by rwa [← same]), Or.inl ⟨rfl, by simp⟩, ?_⟩
          rw [target, if_neg (by omega), if_pos (by omega)]
        | B =>
          simp only [source, if_neg odd, Option.some.injEq, Prod.mk.injEq] at h
          obtain ⟨rfl, rfl⟩ := h
          rw [same, show dd.j - 1 - r / 2 = dd.j - (r / 2 + 1) from by omega] at hm
          obtain ⟨bound, back⟩ := drop_drop hm (even_or_one _) (w := r / 2 + 1)
          refine ⟨.winners (by omega) bound, Or.inr (Or.inl ⟨rfl, by simp⟩), ?_⟩
          rw [target, if_neg (by omega), back, show 2 * (r / 2 + 1) - 1 = r + 1 from by omega]
  | final =>
    cases i with
    | A =>
      cases h
      refine ⟨.winners (by omega) (by simp), Or.inr (Or.inl ⟨rfl, by simp⟩), ?_⟩
      rw [target, if_neg (by omega)]
    | B =>
      cases h
      refine ⟨.losers (by omega) (Nat.two_pow_pos _), Or.inr (Or.inr ⟨rfl, rfl⟩), ?_⟩
      rw [target, if_pos rfl]
  | reset on =>
    cases i with
    | A =>
      cases h
      exact ⟨.final, Or.inl ⟨rfl, by simp⟩, rfl⟩
    | B =>
      cases h
      exact ⟨.final, Or.inl ⟨rfl, by simp⟩, rfl⟩

theorem slot_unit (hs : dd.Valid s) (i : PlayUnit.Place) :
    match source dd.j s i with
    | some (t, take) => (dd.unit s).slot i = .feeder (t.id dd.idPrefix) take
    | none => ∃ p, (dd.unit s).slot i = .participant p := by
  cases hs with
  | @winners r m hr hm =>
    cases r with
    | zero =>
      cases i with
      | A => exact dd.winners_spawn.entry_root rfl (2 * m)
      | B => exact dd.winners_spawn.entry_root rfl (2 * m + 1)
    | succ r => cases i <;> rfl
  | @losers r m hr hm =>
    cases r with
    | zero => cases i <;> rfl
    | succ r =>
      by_cases odd : r % 2 = 1
      · have even : ¬ (r + 1) % 2 = 1 := by omega
        cases i <;> simp only [source, if_pos odd, unit, losersUnit, losersSlots, Cascade.unit,
          PlayUnit.slot, if_neg even, Nat.add_one_ne_zero, if_false, Nat.add_sub_cancel] <;> rfl
      · have even : (r + 1) % 2 = 1 := by omega
        have count : losersCount (2 ^ (dd.j + 1)) (r + 1) = 2 ^ (dd.j - (r / 2 + 1)) := by
          rw [losersCount_eq hr]
          congr 1
          omega
        have w : (r + 1 + 1) / 2 = r / 2 + 1 := by omega
        cases i <;> simp only [source, if_neg odd, unit, losersUnit, losersSlots, Cascade.unit,
          PlayUnit.slot, if_pos even, Nat.add_one_ne_zero, if_false, Nat.add_sub_cancel, count, w]
          <;> rfl
  | final => cases i <;> rfl
  | reset on => cases i <;> rfl

theorem dependsOnFeeders (hs : dd.Valid s) : (dd.unit s).DependsOnFeeders := by
  cases hs with
  | @winners r m hr hm =>
    exact (dd.winners_spawn.dependsOnFeeders hr hm).2
  | @losers r m hr hm => exact fun x => mem_feedersOf
  | final =>
    intro x
    simp [unit, grandFinal, Cascade.unit, eq_comm]
  | reset on =>
    intro x
    simp [unit, grandFinalReset, Cascade.unit, eq_comm]

theorem shape (hs : dd.Valid s) : (dd.unit s).Concrete ∨ (dd.unit s).Waiting := by
  have feeders := dependsOnFeeders hs
  have a := slot_unit hs .A
  have b := slot_unit hs .B
  cases hs with
  | @winners r m hr hm =>
    exact (dd.winners_spawn.dependsOnFeeders hr hm).1
  | @losers r m hr hm =>
    have empty : ∀ {x t}, sideOf (.feeder x t) = [] := rfl
    have fed : ∃ f t g t', (dd.unit ⟨.L, r, m⟩).slotA = .feeder f t ∧
        (dd.unit ⟨.L, r, m⟩).slotB = .feeder g t' := by
      cases r with
      | zero => exact ⟨_, _, _, _, a, b⟩
      | succ r =>
        by_cases odd : r % 2 = 1
        · simp only [source, if_pos odd] at a b
          exact ⟨_, _, _, _, a, b⟩
        · simp only [source, if_neg odd] at a b
          exact ⟨_, _, _, _, a, b⟩
    obtain ⟨f, t, g, t', ha, hb⟩ := fed
    refine Or.inr (waiting_of_feeders ?_ ?_ ha hb feeders)
    · exact (congrArg sideOf ha).trans empty
    · exact (congrArg sideOf hb).trans empty
  | final => exact Or.inr (waiting_of_feeders rfl rfl a b feeders)
  | reset on => exact Or.inr (waiting_of_feeders rfl rfl a b feeders)

theorem source_of_slot (four : 1 ≤ dd.j) (hs : dd.Valid s) {id : PlayUnitId} {take : FeederTake}
    (h : (dd.unit s).slot i = .feeder id take) :
    ∃ t, t.id dd.idPrefix = id ∧ dd.Valid t ∧ Earlier t s ∧ target dd.j t take = (s, i) := by
  have fed := slot_unit hs i
  cases hsrc : source dd.j s i with
  | none =>
    simp only [hsrc] at fed
    obtain ⟨p, hp⟩ := fed
    rw [hp] at h
    cases h
  | some src =>
    obtain ⟨t, take'⟩ := src
    simp only [hsrc] at fed
    rw [fed] at h
    obtain ⟨e, rfl⟩ := BracketSlot.feeder.inj h
    exact ⟨t, e, source_ok four hs hsrc⟩

/-- **Each outcome of a double elimination feeds one slot at most.** -/
theorem fedOnce (four : 1 ≤ dd.j) : FedOnce (allUnits dd.segments) := by
  intro u hu v hv i i' id take hi hi'
  obtain ⟨s, hs, rfl⟩ := mem_segments.mp hu
  obtain ⟨s', hs', rfl⟩ := mem_segments.mp hv
  obtain ⟨t, ht, -, -, back⟩ := source_of_slot four hs hi
  obtain ⟨t', ht', -, -, back'⟩ := source_of_slot four hs' hi'
  obtain rfl := Spot.id_injective (ht.trans ht'.symm)
  obtain ⟨rfl, rfl⟩ := Prod.mk.inj (back.symm.trans back')
  exact ⟨rfl, rfl⟩

theorem source_eq_none (h : source dd.j s i = none) :
    s.wing = .W ∧ s.round = 0 := by
  obtain ⟨wing, r, m⟩ := s
  cases wing with
  | W =>
    cases r with
    | zero => exact ⟨rfl, rfl⟩
    | succ r => cases h
  | L =>
    cases r with
    | zero => cases h
    | succ r =>
      by_cases odd : r % 2 = 1
      · simp only [source, if_pos odd] at h
        cases h
      · cases i <;> simp only [source, if_neg odd] at h <;> cases h
  | GF => cases r <;> cases i <;> cases h

theorem mem_winners (hs : dd.Valid s) (h : s.wing = .W) :
    dd.unit s ∈ allUnits ([dd.winnersPlan].mapIdx dd.winnersDraw.built) := by
  obtain ⟨wing, r, m⟩ := s
  cases h
  obtain ⟨hr, hm⟩ : r < dd.j + 1 ∧ m < 2 ^ (dd.j - r) := by
    cases hs with
    | winners hr hm => exact ⟨hr, hm⟩
  exact dd.winners_spawn.mem_units.mpr ⟨0, dd.winnersPlan, r, m, rfl, hr, hm, rfl⟩

/-- **A double elimination routes every outcome and every entrant.** -/
theorem routed (dd : DoubleDraw) (four : 1 ≤ dd.j) :
    Routed dd.participants (allUnits dd.segments) where
  once := fedOnce four
  feeders := by
    intro u hu
    obtain ⟨s, hs, rfl⟩ := mem_segments.mp hu
    exact dependsOnFeeders hs
  sides := by
    intro u hu i
    obtain ⟨s, hs, rfl⟩ := mem_segments.mp hu
    cases hs with
    | winners hr hm => exact SpawnPlan.side_unitAt i
    | losers hr hm => cases i <;> rfl
    | final => cases i <;> rfl
    | reset on => cases i <;> rfl
  enters := by
    intro distinct u hu v hv i i' x hx hi hi'
    obtain ⟨s, hs, rfl⟩ := mem_segments.mp hu
    obtain ⟨s', hs', rfl⟩ := mem_segments.mp hv
    have first : ∀ {s : Spot} {i : PlayUnit.Place}, dd.Valid s →
        (dd.unit s).slot i = .participant x → s.wing = .W := by
      intro s i hs hi
      have fed := slot_unit hs i
      cases hsrc : source dd.j s i with
      | none => exact (source_eq_none hsrc).1
      | some src =>
        simp only [hsrc] at fed
        rw [fed] at hi
        cases hi
    have main : Routed dd.participants _ := dd.winners_spawn.routed rfl
    exact main.enters distinct _ (mem_winners hs (first hs hi)) _
      (mem_winners hs' (first hs' hi')) i i' x hx hi hi'

def wingOrder : Wing → Nat
  | .W => 0
  | .L => 1
  | .GF => 2

theorem at_segments (h : dd.segments[n]? = some b) :
    ∃ w, wingOrder w = n ∧ b.segment.id = w.segId ∧
      ∀ r m u, At b.units r m u ↔ dd.Valid ⟨w, r, m⟩ ∧ dd.unit ⟨w, r, m⟩ = u := by
  match n, h with
  | 0, h =>
    cases h
    exact ⟨.W, rfl, rfl, fun r m u => at_winners⟩
  | 1, h =>
    cases h
    exact ⟨.L, rfl, rfl, fun r m u => at_losers⟩
  | 2, h =>
    cases h
    exact ⟨.GF, rfl, rfl, fun r m u => at_grandFinal⟩

theorem segments_wing (dd : DoubleDraw) (w : Wing) :
    ∃ b, dd.segments[wingOrder w]? = some b ∧
      ∀ r m u, At b.units r m u ↔ dd.Valid ⟨w, r, m⟩ ∧ dd.unit ⟨w, r, m⟩ = u := by
  cases w with
  | W => exact ⟨_, rfl, fun r m u => at_winners⟩
  | L => exact ⟨_, rfl, fun r m u => at_losers⟩
  | GF => exact ⟨_, rfl, fun r m u => at_grandFinal⟩

theorem metadata_unit (hs : dd.Valid s) :
    (dd.unit s).eventId = dd.eventId ∧ (dd.unit s).metadata.segment = some s.wing.segId ∧
      (dd.unit s).metadata.segmentOrder = wingOrder s.wing ∧ (dd.unit s).metadata.round = s.round ∧
      (dd.unit s).metadata.matchIndex = s.index ∧ (dd.unit s).metadata.positions = none := by
  cases hs with
  | @winners r m hr hm =>
    refine ⟨Cascade.unitAt_eventId _ _ _ _, ?_⟩
    rw [unit, Cascade.unitAt_metadata]
    exact ⟨rfl, rfl, rfl, rfl, rfl⟩
  | losers hr hm => exact ⟨rfl, rfl, rfl, rfl, rfl, rfl⟩
  | final => exact ⟨rfl, rfl, rfl, rfl, rfl, rfl⟩
  | reset on => exact ⟨rfl, rfl, rfl, rfl, rfl, rfl⟩

theorem regular (dd : DoubleDraw) (four : 1 ≤ dd.j) (h : dd.segments[n]? = some b) :
    b.Regular "de" dd.idPrefix dd.eventId n := by
  obtain ⟨w, rfl, name, at_b⟩ := at_segments h
  have facts : b.segment.order = wingOrder w ∧
      b.segment.label = segmentLabel "de" b.segment.id b.segment.positions ∧
      b.segment.positions = none ∧ segmentPositions b.segment.id b.segment.positions = none ∧
      b.segment.rounds = b.units.map (fun round => round.map PlayUnit.id) ∧
      b.units ≠ [] ∧ ∀ round ∈ b.units, round ≠ [] := by
    cases w with
    | W =>
      cases h
      have reg := dd.winners_spawn.regular (List.mem_singleton_self _) 0
      exact ⟨rfl, rfl, rfl, show positionsOfId "W" = none by decide, rfl, reg.nonempty⟩
    | L =>
      cases h
      refine ⟨rfl, rfl, rfl, show positionsOfId "L" = none by decide, rfl, ?_, ?_⟩
      · simp only [builtSegment, losersRounds, ne_eq, List.map_eq_nil_iff, List.range_eq_nil]
        omega
      · intro round hround
        obtain ⟨r, hr, rfl⟩ := List.mem_map.mp hround
        have := Nat.two_pow_pos (dd.j - 1 - r / 2)
        rw [List.mem_range] at hr
        simp only [ne_eq, List.map_eq_nil_iff, List.range_eq_nil,
          losersCount_eq (j := dd.j) (r := r) (by omega)]
        omega
    | GF =>
      cases h
      refine ⟨rfl, rfl, rfl, show positionsOfId "GF" = none by decide, rfl, by
        simp [builtSegment, grandFinalRounds], ?_⟩
      intro round hr
      simp only [builtSegment, grandFinalRounds] at hr
      split at hr <;> simp at hr
      · rcases hr with rfl | rfl <;> simp
      · simp [hr]
  obtain ⟨order, label, pos, named, rounds, nonempty⟩ := facts
  refine ⟨name ▸ w.dashFree, order, label, named.trans pos.symm, rounds, nonempty, ?_, ?_, ?_⟩
  · intro r m u hu
    obtain ⟨valid, rfl⟩ := (at_b r m u).mp hu
    rw [unit_id _ valid, name]
    rfl
  · intro r m u hu
    obtain ⟨valid, rfl⟩ := (at_b r m u).mp hu
    exact (metadata_unit valid).1
  · intro r m u hu
    obtain ⟨valid, rfl⟩ := (at_b r m u).mp hu
    rw [name, pos]
    exact (metadata_unit valid).2

/-- **A double elimination is laid out by its segments.** -/
theorem layout (dd : DoubleDraw) (four : 1 ≤ dd.j) :
    Layout "de" dd.idPrefix dd.eventId dd.segments where
  regular n b h := dd.regular four h
  ids := show ["W", "L", "GF"].Nodup by decide
  nonempty := by simp [segments]
  shape := by
    intro u hu
    obtain ⟨s, hs, rfl⟩ := mem_segments.mp hu
    exact shape hs
  feeders := by
    intro u hu
    obtain ⟨s, hs, rfl⟩ := mem_segments.mp hu
    exact dependsOnFeeders hs
  depends := by
    intro n b hb r m u hu d hd
    obtain ⟨w, rfl, -, at_b⟩ := at_segments hb
    obtain ⟨valid, rfl⟩ := (at_b r m u).mp hu
    have fed : ∃ i take, (dd.unit ⟨w, r, m⟩).slot i = .feeder d take := by
      rcases (dependsOnFeeders valid d).mp hd with h | h
      · cases hs : (dd.unit ⟨w, r, m⟩).slotA with
        | participant p => simp [hs] at h
        | feeder f t =>
          rw [hs, BracketSlot.fedBy_feeder] at h
          exact ⟨.A, t, h ▸ hs⟩
      · cases hs : (dd.unit ⟨w, r, m⟩).slotB with
        | participant p => simp [hs] at h
        | feeder f t =>
          rw [hs, BracketSlot.fedBy_feeder] at h
          exact ⟨.B, t, h ▸ hs⟩
    obtain ⟨i, take, hs⟩ := fed
    obtain ⟨t, rfl, ht, earlier, -⟩ := source_of_slot four valid hs
    obtain ⟨b', hb', at_b'⟩ := dd.segments_wing t.wing
    have stands : At b'.units t.round t.index (dd.unit t) := (at_b' ..).mpr ⟨ht, rfl⟩
    rcases earlier with ⟨same, lt⟩ | ⟨main, other⟩ | ⟨losers, final⟩
    · dsimp only at same lt
      rw [← same, hb'] at hb
      cases hb
      exact Or.inr ⟨t.round, lt, t.index, _, stands, unit_id _ ht⟩
    · refine Or.inl ⟨wingOrder t.wing, ?_, b', hb', t.round, t.index, _, stands, unit_id _ ht⟩
      rw [main]
      cases w with
      | W => exact absurd rfl other
      | L => exact Nat.zero_lt_one
      | GF => exact Nat.zero_lt_two
    · refine Or.inl ⟨wingOrder t.wing, ?_, b', hb', t.round, t.index, _, stands, unit_id _ ht⟩
      dsimp only at final
      rw [losers, final]
      exact Nat.lt_succ_self 1
  once := fedOnce four

end DoubleDraw

/-- **A double-elimination draw is laid out by its three segments.** -/
theorem generateDoubleElimination_ok {participants : List Participant} {eventId : EventId}
    {idPrefix : String} {durationSlots : Nat} {seededCount bracketSize : Option Nat} {reset : Bool}
    {d : Draw}
    (h : generateDoubleElimination participants eventId idPrefix durationSlots seededCount
      bracketSize reset = .ok d) :
    ∃ seeded j, 1 ≤ j ∧
      bracketShape participants seededCount bracketSize true = .ok (2 ^ (j + 1), seeded) ∧
      assemble (knockoutEvent eventId "double_elimination" (2 ^ (j + 1)) participants.length seeded)
        participants (DoubleDraw.segments
          { participants := participants, eventId := eventId, idPrefix := idPrefix
            durationSlots := durationSlots, j := j, reset := reset }) = .ok d := by
  unfold generateDoubleElimination at h
  obtain ⟨⟨size, seeded⟩, hs, h⟩ := bind_eq_ok.mp h
  obtain ⟨⟨j, rfl⟩, least, -, -⟩ := bracketShape_ok hs
  have four : 1 ≤ j := by
    have := least rfl
    by_contra hlt
    obtain rfl : j = 0 := by omega
    simp at this
  dsimp only at h
  rw [buildKnockout_eq (length_entrantSlots participants (2 ^ (j + 1))), ok_bind,
    Nat.log2_two_pow] at h
  exact ⟨seeded, j, four, hs, h⟩

theorem generateDoubleElimination_total {participants : List Participant} {eventId : EventId}
    {idPrefix : String} {durationSlots : Nat} {seededCount bracketSize : Option Nat} {reset : Bool}
    {size seeded : Nat}
    (shape : bracketShape participants seededCount bracketSize true = .ok (size, seeded)) :
    ∃ d, generateDoubleElimination participants eventId idPrefix durationSlots seededCount
      bracketSize reset = .ok d := by
  obtain ⟨⟨j, rfl⟩, least, -, -⟩ := bracketShape_ok shape
  have four : 1 ≤ j := by
    have := least rfl
    by_contra hlt
    obtain rfl : j = 0 := by omega
    simp at this
  let dd : DoubleDraw :=
    { participants := participants, eventId := eventId, idPrefix := idPrefix
      durationSlots := durationSlots, j := j, reset := reset }
  obtain ⟨d, ha, -⟩ := (DoubleDraw.layout dd four).assemble_ok
    (show (knockoutEvent eventId "double_elimination" (2 ^ (j + 1)) participants.length seeded).id =
      dd.eventId from rfl) participants
  refine ⟨d, ?_⟩
  rw [generateDoubleElimination, shape, ok_bind]
  dsimp only
  rw [buildKnockout_eq (length_entrantSlots participants (2 ^ (j + 1))), ok_bind,
    Nat.log2_two_pow]
  exact ha

end Brackets
