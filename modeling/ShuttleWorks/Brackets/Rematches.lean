import ShuttleWorks.Brackets.DoubleRuns

/-! Rematches in the losers bracket. Where the loser of a main round drops in depends on
the order of that drop and on the drops before it: two reversals, or two rotations,
undo each other, and a player meets again whom he beat two rounds earlier. -/

namespace Brackets
open Lib Relation DoubleDraw

/-! ## Orders of drops -/

variable {c w m : Nat} {i : PlayUnit.Place} {s : Spot} {j : Nat}

theorem drop_div {width : Nat} (pos : 0 < width) (even : 2 ∣ c) (hm : m < c * width) :
    drop (c * width) w m / width = drop c w (m / width) := by
  obtain ⟨half, rfl⟩ := even
  have small : m / width < 2 * half := (Nat.div_lt_iff_lt_mul pos).mpr hm
  rw [drop_eq hm, drop_eq small]
  by_cases odd : w % 2 = 1
  · rw [if_pos odd, if_pos odd, Nat.mul_comm (2 * half) width, Nat.sub_sub, Nat.add_comm 1 m,
      Nat.mul_sub_div _ _ _ (by rwa [Nat.mul_comm width])]
    omega
  · have whole : 2 * half * width / 2 = half * width := by
      rw [Nat.mul_assoc, Nat.mul_div_cancel_left _ (by omega)]
    have rest : 2 * half * width - half * width = half * width := by
      rw [Nat.mul_assoc, Nat.two_mul, Nat.add_sub_cancel]
    rw [if_neg odd, if_neg odd, whole, rest, Nat.mul_div_cancel_left _ (by omega)]
    by_cases low : m < half * width
    · have low' : m / width < half := (Nat.div_lt_iff_lt_mul pos).mpr low
      rw [if_pos low, if_pos (by omega), Nat.add_comm, Nat.add_mul_div_right _ _ pos]
      omega
    · have high : half ≤ m / width := (Nat.le_div_iff_mul_le pos).mpr (by omega)
      rw [if_neg low, if_neg (by omega)]
      have back : m = m - half * width + half * width := by omega
      conv_rhs => rw [back, Nat.add_mul_div_right _ _ pos]
      generalize (m - half * width) / width = n
      omega

theorem drop_ne_self (pos : 0 < c) (even : 2 ∣ c) (hm : m < c) :
    drop c w m ≠ m := by
  rw [drop_eq hm]
  split
  · omega
  · split <;> omega

theorem drop_ne_drop {r : Nat} (four : 4 ∣ c) (hm : m < c) (odd : w % 2 ≠ r % 2) :
    drop c w m ≠ drop c r m := by
  rw [drop_eq hm, drop_eq hm]
  split <;> split <;> first | (split <;> omega) | omega

theorem drop_two (w r : Nat) : drop 2 w 0 = drop 2 r 0 := by
  rw [drop_eq (by omega), drop_eq (by omega)]
  simp

theorem drop_congr {r : Nat} (same : w % 2 = r % 2) : drop c w m = drop c r m := by
  rw [drop, drop, dropOrder, dropOrder, same]

/-! ## Where a loser lands -/

def lands (j r m : Nat) : Nat := if r = 0 then m else drop (2 ^ (j - r)) r m

namespace DoubleDraw.Entered

variable {dd : DoubleDraw} {o : List PlayUnit} {units : PlayUnits}
  {res : PlayUnitId → Option Result} {x : ParticipantId} (h : Entered dd o units res)
include h

variable {k : PlayUnit.Place}

/-- **Where somebody in the losers bracket comes from**: his number there is the one he landed on,
halved by every round that pairs. -/
theorem landed {r : Nat} (ht : dd.Valid ⟨.L, r, m⟩)
    (sits : Sits (allUnits dd.segments) units res x (dd.unit ⟨.L, r, m⟩, k)) :
    ∃ r' m' i, dd.Valid ⟨.W, r', m'⟩ ∧ r' ≤ (r + 1) / 2 ∧
      Beaten (allUnits dd.segments) units res x (dd.unit ⟨.W, r', m'⟩, i) ∧
      m = lands dd.j r' m' / 2 ^ (r / 2 + 1 - r') := by
  obtain ⟨-, s₀, i₀, hs₀, main, path⟩ := h.path sits
  have all : ∀ b, ReflTransGen (Moves (allUnits dd.segments) units res x) (dd.unit s₀, i₀) b →
      ∀ r m k, dd.Valid ⟨.L, r, m⟩ → (dd.unit ⟨.L, r, m⟩, k) = b →
      ∃ r' m' i, dd.Valid ⟨.W, r', m'⟩ ∧ r' ≤ (r + 1) / 2 ∧
        Beaten (allUnits dd.segments) units res x (dd.unit ⟨.W, r', m'⟩, i) ∧
        m = lands dd.j r' m' / 2 ^ (r / 2 + 1 - r') := by
    intro b path
    induction path with
    | refl =>
      intro r m k ht e
      rw [← unit_injective ht hs₀ (congrArg Prod.fst e)] at main
      cases main
    | @tail c b before move ih =>
      intro r m k ht e
      subst e
      obtain ⟨u, i⟩ := c
      obtain ⟨s, hs, rfl⟩ := mem_segments.mp move.1.1
      obtain ⟨-, take, -, -, src⟩ := moves_source hs ht move
      have small := offset_lt k
      cases r with
      | zero =>
        cases src
        have beaten := h.routing.beaten_of_moves move (slot_of_source hs ht rfl)
        refine ⟨0, 2 * m + offset k, i, hs, by omega, beaten, ?_⟩
        rw [lands, if_pos rfl]
        omega
      | succ r =>
        by_cases odd : r % 2 = 1
        · simp only [source, if_pos odd, Option.some.injEq, Prod.mk.injEq] at src
          obtain ⟨rfl, rfl⟩ := src
          obtain ⟨r', m', i', hw, early, beaten, number⟩ := ih r _ i hs rfl
          refine ⟨r', m', i', hw, by omega, beaten, ?_⟩
          rw [show (r + 1) / 2 + 1 - r' = r / 2 + 1 - r' + 1 from by omega, Nat.pow_succ,
            ← Nat.div_div_eq_div_mul, ← number]
          omega
        · cases k with
          | A =>
            simp only [source, if_neg odd, Option.some.injEq, Prod.mk.injEq] at src
            obtain ⟨rfl, rfl⟩ := src
            obtain ⟨r', m', i', hw, early, beaten, number⟩ := ih r _ i hs rfl
            refine ⟨r', m', i', hw, by omega, beaten, ?_⟩
            rw [show (r + 1) / 2 = r / 2 from by omega]
            exact number
          | B =>
            have slot := slot_of_source hs ht src
            simp only [source, if_neg odd, Option.some.injEq, Prod.mk.injEq] at src
            obtain ⟨rfl, rfl⟩ := src
            refine ⟨_, _, i, hs, by omega, h.routing.beaten_of_moves move slot, ?_⟩
            have bound : m < 2 ^ (dd.j - (r / 2 + 1)) := by
              cases ht with
              | losers hr hm => rwa [show dd.j - 1 - (r + 1) / 2 = dd.j - (r / 2 + 1) from by omega]
                  at hm
            rw [lands, if_neg (by omega), (drop_drop bound (even_or_one _)).2,
              show (r + 1) / 2 + 1 - (r / 2 + 1) = 0 from by omega, Nat.pow_zero, Nat.div_one]
  exact all _ path r m k ht rfl

theorem main_number {r r' m' : Nat} (hs : dd.Valid ⟨.W, r, m⟩) (ht : dd.Valid ⟨.W, r', m'⟩)
    (later : r < r') (sits : Sits (allUnits dd.segments) units res x (dd.unit ⟨.W, r, m⟩, i))
    (sits' : Sits (allUnits dd.segments) units res x (dd.unit ⟨.W, r', m'⟩, k)) :
    m' = m / 2 ^ (r' - r) := by
  have step : ∀ {r₀ m₀ : Nat} {s t : Spot} {i k : PlayUnit.Place} {take : FeederTake},
      source dd.j t k = some (s, take) →
      (s.wing = .W → r₀ ≤ s.round ∧ s.index = m₀ / 2 ^ (s.round - r₀)) →
      (t.wing = .W → r₀ ≤ t.round ∧ t.index = m₀ / 2 ^ (t.round - r₀)) := by
    intro r₀ m₀ s t i k take src on wing
    obtain ⟨tw, r, m⟩ := t
    cases wing
    cases r with
    | zero => cases src
    | succ r =>
      cases src
      obtain ⟨le, number⟩ := on rfl
      have small := offset_lt k
      refine ⟨Nat.le_succ_of_le le, ?_⟩
      show m = m₀ / 2 ^ (r + 1 - r₀)
      rw [Nat.succ_sub le, Nat.pow_succ, ← Nat.div_div_eq_div_mul, ← number]
      simp only
      omega
  have from_spot : ∀ {r m r' m' : Nat} {i k : PlayUnit.Place}, dd.Valid ⟨.W, r, m⟩ →
      dd.Valid ⟨.W, r', m'⟩ → ReflTransGen (Moves (allUnits dd.segments) units res x)
        (dd.unit ⟨.W, r, m⟩, i) (dd.unit ⟨.W, r', m'⟩, k) → r ≤ r' ∧ m' = m / 2 ^ (r' - r) := by
    intro r m r' m' i k hs ht path
    have start : dd.Stands (fun s _ => s.wing = .W → r ≤ s.round ∧ s.index = m / 2 ^ (s.round - r))
        (dd.unit ⟨.W, r, m⟩, i) := ⟨_, hs, rfl, fun _ => ⟨le_refl _, by simp⟩⟩
    obtain ⟨t, ht', e, number⟩ := start.path (fun src on => step (i := i) src on) path
    obtain rfl := unit_injective ht' ht e
    exact number rfl
  rcases h.routing.linear sits sits' with path | path
  · exact (from_spot hs ht path).2
  · have := (from_spot ht hs path).1
    omega

theorem from_source {t : Spot} {take : FeederTake} (hs : dd.Valid s) (ht : dd.Valid t)
    (src : source dd.j t k = some (s, take))
    (sits : Sits (allUnits dd.segments) units res x (dd.unit t, k)) :
    ∃ i, Moves (allUnits dd.segments) units res x (dd.unit s, i) (dd.unit t, k) := by
  have slot := slot_of_source hs ht src
  rcases h.routing.back sits with entrance | ⟨⟨u, i⟩, move⟩
  · cases slot.symm.trans entrance
  · obtain ⟨w, hw, rfl⟩ := mem_segments.mp move.1.1
    obtain ⟨-, take', -, -, src'⟩ := moves_source hw ht move
    rw [src] at src'
    cases src'
    exact ⟨i, move⟩

/-- **In the first drop, and in the second of a large draw, nobody meets whom he beat.** -/
theorem no_rematch {v : Nat} {y : ParticipantId} (ht : dd.Valid ⟨.L, 2 * v + 1, m⟩)
    (several : v + 1 < dd.j) (early : v = 0 ∨ (v = 1 ∧ 4 ≤ dd.j))
    (hx : Sits (allUnits dd.segments) units res x (dd.unit ⟨.L, 2 * v + 1, m⟩, .A))
    (hy : Sits (allUnits dd.segments) units res y (dd.unit ⟨.L, 2 * v + 1, m⟩, .B))
    (hs : dd.Valid s) (main : s.wing = .W)
    (lost : Beaten (allUnits dd.segments) units res x (dd.unit s, i)) :
    ¬ Sits (allUnits dd.segments) units res y (dd.unit s, k) := by
  intro won
  obtain ⟨c, hc⟩ : ∃ c, c = 2 ^ (dd.j - (v + 1)) := ⟨_, rfl⟩
  have bound : m < c := by
    cases ht with
    | losers hr hm =>
      rwa [show dd.j - 1 - (2 * v + 1) / 2 = dd.j - (v + 1) from by omega, ← hc] at hm
  have even : 2 ∣ c := by
    rw [hc, show dd.j - (v + 1) = dd.j - (v + 2) + 1 from by omega, Nat.pow_succ]
    exact Nat.dvd_mul_left 2 _
  have pos : 0 < c := hc ▸ Nat.two_pow_pos _
  -- `x` came up through the losers bracket, `y` dropped in
  obtain ⟨p, hp⟩ : ∃ p, p = drop c (v + 1) m := ⟨_, rfl⟩
  have srcA : source dd.j ⟨.L, 2 * v + 1, m⟩ .A = some (⟨.L, 2 * v, m⟩, .winner) := by
    simp [source]
  have srcB : source dd.j ⟨.L, 2 * v + 1, m⟩ .B = some (⟨.W, v + 1, p⟩, .loser) := by
    simp [source, hp, hc]
  obtain ⟨validA, -, -⟩ := source_ok h.four ht srcA
  obtain ⟨validB, -, -⟩ := source_ok h.four ht srcB
  obtain ⟨iA, moveA⟩ := h.from_source validA ht srcA hx
  obtain ⟨iB, moveB⟩ := h.from_source validB ht srcB hy
  obtain ⟨r, n, l, hw, before, beaten, number⟩ := h.landed validA moveA.1
  rw [show 2 * v / 2 + 1 = v + 1 from by omega] at number
  obtain rfl := h.beaten_main hs hw main rfl lost beaten
  have numberY := h.main_number hw validB (by omega) won moveB.1
  by_cases first : r = 0
  · subst first
    rw [lands, if_pos rfl, ← numberY, hp] at number
    exact drop_ne_self pos even bound number.symm
  · rcases early with rfl | ⟨rfl, large⟩
    · omega
    obtain rfl : r = 1 := by omega
    have size : 2 ^ (dd.j - 1) = c * 2 := by
      rw [hc, show dd.j - 1 = dd.j - (1 + 1) + 1 from by omega, Nat.pow_succ]
    have four : 4 ∣ c := by
      rw [hc, show dd.j - (1 + 1) = dd.j - 4 + 2 from by omega, Nat.pow_add]
      exact Nat.dvd_mul_left 4 _
    have small : n < c * 2 := by
      cases hw with
      | winners hr hm => rwa [size] at hm
    rw [lands, if_neg first, size, show 1 + 1 - 1 = 1 from rfl, Nat.pow_one,
      drop_div (by omega) even small] at number
    rw [show 1 + 1 - 1 = 1 from rfl, Nat.pow_one] at numberY
    rw [← numberY] at number
    -- a reversal and a rotation would have to agree
    have smallP : p < c := by
      rw [hp]
      exact (drop_drop bound (Or.inl even)).1
    refine drop_ne_drop four bound (show (1 + 1) % 2 ≠ 1 % 2 from by omega) ?_
    conv_rhs => rw [number, (drop_drop smallP (Or.inl even)).2]
    exact hp.symm

end DoubleDraw.Entered

/-! ## Whole runs -/

/-- In drop-in unit `m` for the losers of main round `w` somebody meets whom he lost to in the main
bracket. -/
def Rematch (d : Draw) (eventId : EventId) (s : TournamentState) (w m : Nat) : Prop :=
  ∃ unit, s.playUnits.get (knockoutUnitId eventId "L" (2 * w - 1) m) = some unit ∧
    ∃ x ∈ unit.sideA, ∃ y ∈ unit.sideB, ∃ u ∈ d.playUnits.rows,
      u.metadata.segment = some "W" ∧ s.sent .loser u.id = some x ∧ s.sent .winner u.id = some y

/-- Whatever the field and the results, the losers of main round `w` meet nobody they have beaten
in the losers-bracket unit they drop into. -/
def NeverRematch (size w : Nat) : Prop :=
  ∀ participants eventId options d, generateDraw "de" participants eventId options = .ok d →
    (∃ seeded, bracketShape participants options.seededCount options.bracketSize true =
      .ok (size, seeded)) →
    (participants.map Participant.id).Nodup → (∀ p ∈ participants, p.id ≠ BYE ∧ p.id ≠ "") →
    ∀ ds, d ∈ ds → (∀ d ∈ ds, IsGenerated d) → ∀ s, SessionReached ds s →
      ∀ m < size / 2 ^ (w + 1), ¬ Rematch d eventId s w m

theorem neverRematch_of {v : Nat} (several : v + 1 < j) (early : v = 0 ∨ (v = 1 ∧ 4 ≤ j)) :
    NeverRematch (2 ^ (j + 1)) (v + 1) := by
  rintro participants eventId options d h ⟨seeded, shape⟩ distinct named ds hd all s reached m hm
    ⟨unit, stored, x, hx, y, hy, u, hu, segment, lost, won⟩
  obtain ⟨dd, rfl, rfl, four, rows, seeded', shape'⟩ := generateDraw_double h
  obtain rfl : dd.j = j := by
    have e := Except.ok.inj (shape'.symm.trans shape)
    have := Nat.pow_right_injective (le_refl 2) (congrArg Prod.fst e)
    omega
  have generated := generateDraw_ok h
  have session := reached.session (fun d hd => (all d hd).drawn)
  have routing := session.routing hd generated.drawn.1 (generated.routed (by decide)) distinct
  obtain ⟨-, -, fits, -⟩ := bracketShape_ok shape
  have entered : Entered dd (origin ds) s.playUnits s.result :=
    ⟨four, named, fits, rows ▸ routing⟩
  have valid : dd.Valid ⟨.L, 2 * v + 1, m⟩ := by
    refine .losers (by omega) ?_
    rw [Nat.pow_div (by omega) (by omega)] at hm
    rwa [show dd.j - 1 - (2 * v + 1) / 2 = dd.j + 1 - (v + 1 + 1) from by omega]
  have here : dd.unit ⟨.L, 2 * v + 1, m⟩ ∈ allUnits dd.segments :=
    mem_segments.mpr ⟨_, valid, rfl⟩
  obtain rfl : settleUnit s.playUnits s.result (dd.unit ⟨.L, 2 * v + 1, m⟩) = unit := by
    have shown := entered.routing.consistent.get (entered.routing.sub _ here)
    rw [unit_id _ valid] at shown
    exact Option.some.inj (shown.symm.trans stored)
  obtain ⟨t, ht, rfl⟩ := mem_segments.mp (rows ▸ hu)
  have main : t.wing = .W := by
    have wing := (metadata_unit ht).2.1.symm.trans segment
    exact Wing.segId_injective (Option.some.inj wing)
  obtain ⟨i, beaten⟩ := (routing.sent_loser hu).mp lost
  have won : ∃ k, Sits (allUnits dd.segments) s.playUnits s.result y (dd.unit t, k) := by
    rw [TournamentState.sent, routing.consistent.get (routing.sub _ hu)] at won
    cases hr : s.result (dd.unit t).id with
    | none =>
      rw [hr] at won
      cases won
    | some r =>
      rw [hr] at won
      obtain ⟨k, -, side⟩ := mem_side_of_fed won
      exact ⟨k, rows ▸ hu, side⟩
  obtain ⟨k, won⟩ := won
  exact entered.no_rematch valid several early ⟨here, hx⟩ ⟨here, hy⟩ ht main (rows ▸ beaten) won

/-! ## Scripted draws -/

def PlayUnit.Place.side : PlayUnit.Place → WinnerSide
  | .A => .A
  | .B => .B

namespace DoubleDraw

/-- A full double elimination, played to its end, in which these places win. -/
structure Scripted (dd : DoubleDraw) (picks : Spot → PlayUnit.Place) (o : List PlayUnit)
    (units : PlayUnits) (res : PlayUnitId → Option Result) : Prop
    extends Entered dd o units res where
  full : dd.participants.length = 2 ^ (dd.j + 1)
  played : ∀ s, dd.Valid s → (res (dd.unit s).id).isSome
  follows : ∀ s, dd.Valid s → ∀ r, res (dd.unit s).id = some r →
    Decides (fun _ r => r = { winnerSide := (picks s).side }) (settleUnit units res (dd.unit s)) r

namespace Scripted

variable {dd : DoubleDraw} {picks : Spot → PlayUnit.Place} {o : List PlayUnit} {units : PlayUnits}
  {res : PlayUnitId → Option Result} {x y : ParticipantId}
  (h : Scripted dd picks o units res)
include h

theorem decides (hs : dd.Valid s) {r : Result} (hr : res (dd.unit s).id = some r) :
    Decides (fun _ r => r.Played) (settleUnit units res (dd.unit s)) r := by
  rcases h.follows s hs r hr with walkover | ⟨both, rfl⟩
  · exact Or.inl walkover
  · refine Or.inr ⟨both, ?_⟩
    cases picks s <;> decide

theorem winner_place (hs : dd.Valid s) {r : Result} (hr : res (dd.unit s).id = some r)
    (sits : Sits (allUnits dd.segments) units res x (dd.unit s, picks s)) :
    fedPlace r.winnerSide .winner = some (picks s) := by
  rcases Routing.outcome sits hr (h.decides hs hr) with won | ⟨-, r', hr', lost, -, on⟩
  · exact won
  · cases hr.symm.trans hr'
    rcases h.follows s hs r hr with ⟨side, -, rfl⟩ | ⟨-, rfl⟩
    · exact absurd on (by simp [walkover, loserCannotContinue])
    · cases picks s <;> rfl

theorem wins (hs : dd.Valid s) (before : s.wing ≠ .GF)
    (sits : Sits (allUnits dd.segments) units res x (dd.unit s, picks s)) :
    Moves (allUnits dd.segments) units res x (dd.unit s, picks s)
      (dd.unit (target dd.j s .winner).1, (target dd.j s .winner).2) := by
  obtain ⟨r, hr⟩ := Option.isSome_iff_exists.mp (h.played s hs)
  exact h.moves_target hs before sits hr (h.winner_place hs hr sits) (fun e => by cases e)
    fun _ => rfl

theorem loses (hs : dd.Valid s) (other : i ≠ picks s)
    (sits : Sits (allUnits dd.segments) units res x (dd.unit s, i))
    (opponent : Sits (allUnits dd.segments) units res y (dd.unit s, picks s)) :
    Beaten (allUnits dd.segments) units res x (dd.unit s, i) := by
  obtain ⟨r, hr⟩ := Option.isSome_iff_exists.mp (h.played s hs)
  have both : walkoverSide (settleUnit units res (dd.unit s)) = none := by
    rw [walkoverSide_eq_none_iff]
    have mine := List.ne_nil_of_mem sits.2
    have theirs := List.ne_nil_of_mem opponent.2
    cases hp : picks s <;> rw [hp] at other theirs <;> cases i
    · exact absurd rfl other
    · exact ⟨theirs, mine⟩
    · exact ⟨mine, theirs⟩
    · exact absurd rfl other
  rcases h.follows s hs r hr with ⟨side, due, -⟩ | ⟨-, rfl⟩
  · rw [both] at due
    cases due
  · refine ⟨sits, _, hr, ?_, ?_⟩
    · cases hp : picks s <;> rw [hp] at other <;> cases i <;> first | rfl | exact absurd rfl other
    · cases picks s <;> decide

theorem taken {r : Nat} (hs : dd.Valid ⟨.W, r, m⟩) (i : PlayUnit.Place) :
    ∃ z, Sits (allUnits dd.segments) units res z (dd.unit ⟨.W, r, m⟩, i) := by
  have small := offset_lt i
  induction r generalizing m i with
  | zero =>
    have bound : m < 2 ^ dd.j := by
      cases hs with
      | winners hr hm => exact hm
    have lt : 2 * m + offset i < (entrantSlots dd.participants (2 ^ (dd.j + 1))).length := by
      rw [length_entrantSlots, Nat.pow_succ]
      omega
    have slot : (dd.unit ⟨.W, 0, m⟩).slot i =
        (entrantSlots dd.participants (2 ^ (dd.j + 1)))[2 * m + offset i] := by
      rw [unit, SpawnPlan.slot_unitAt]
      simp only [SpawnPlan.entry, KnockoutDraw.entrySlots, winnersPlan, winnersDraw]
      rw [List.getD_eq_getElem?_getD]
      cases i <;> simp only [offset, reduceCtorEq, ↓reduceIte] at lt ⊢ <;>
        rw [List.getElem?_eq_getElem lt, Option.getD_some]
    obtain ⟨p, hp, e⟩ := entrantSlots_full h.full (List.getElem_mem lt)
    exact ⟨p.id, h.routing.entered (mem_segments.mpr ⟨_, hs, rfl⟩) (slot.trans e)
      (h.named p hp).1⟩
  | succ r ih =>
    have below : dd.Valid ⟨.W, r, 2 * m + offset i⟩ := by
      cases hs with
      | winners hr hm =>
        refine .winners (by omega) ?_
        rw [show dd.j - r = dd.j - (r + 1) + 1 from by omega, Nat.pow_succ]
        omega
    have last : r < dd.j := by
      cases hs with
      | winners hr hm => omega
    obtain ⟨z, hz⟩ := ih below i small
    obtain ⟨res', hr⟩ := Option.isSome_iff_exists.mp (h.played _ below)
    obtain ⟨y, k, hy, place⟩ := Routing.winner hz hr (h.decides below hr)
    have move := h.moves_target below (by simp) hy hr place (fun e => by cases e) fun _ => rfl
    obtain ⟨half, side⟩ := pair_target m i
    rw [target, if_pos last, half, side] at move
    exact ⟨y, move.2.1⟩

end Scripted

/-- The script of a rematch: on the first places up the main bracket until round `v + 1`, and up the
losers bracket from number `e` of the drop after round `r`. -/
def rematchPicks (v r e : Nat) : Spot → PlayUnit.Place
  | ⟨.W, t, _⟩ => if t < v + 1 then .A else .B
  | ⟨.L, t, _⟩ =>
    if t % 2 = 0 then placeOf (e / 2 ^ (t / 2 - r)) else if t = 2 * r - 1 then .B else .A
  | ⟨.GF, _, _⟩ => .A

namespace Scripted

variable {dd : DoubleDraw} {v r e : Nat} {o : List PlayUnit} {units : PlayUnits}
  {res : PlayUnitId → Option Result} {x y : ParticipantId}
  (h : Scripted dd (rematchPicks v r e) o units res)
include h

variable {t : Nat}

/-- The winner of round `r` comes up to round `v + 1`. -/
theorem climbs {p : Nat} (several : v + 1 < dd.j) (hp : p < 2 ^ (dd.j - (v + 1)))
    (sits : Sits (allUnits dd.segments) units res y
      (dd.unit ⟨.W, r, p * 2 ^ (v + 1 - r)⟩, .A)) (ht : t ≤ v + 1 - r) :
    Sits (allUnits dd.segments) units res y
      (dd.unit ⟨.W, r + t, p * 2 ^ (v + 1 - r - t)⟩, .A) := by
  induction t with
  | zero => exact sits
  | succ t ih =>
    have up := ih (by omega)
    have valid : dd.Valid ⟨.W, r + t, p * 2 ^ (v + 1 - r - t)⟩ := by
      refine .winners (by omega) ?_
      rw [show dd.j - (r + t) = dd.j - (v + 1) + (v + 1 - r - t) from by omega, Nat.pow_add]
      exact Nat.mul_lt_mul_of_pos_right hp (Nat.two_pow_pos _)
    have first : rematchPicks v r e ⟨.W, r + t, p * 2 ^ (v + 1 - r - t)⟩ = .A :=
      if_pos (show r + t < v + 1 from by omega)
    have move := h.wins valid (by simp) (first ▸ up)
    have double : p * 2 ^ (v + 1 - r - t) = 2 * (p * 2 ^ (v + 1 - r - (t + 1))) + offset .A := by
      rw [show v + 1 - r - t = v + 1 - r - (t + 1) + 1 from by omega, Nat.pow_succ]
      simp only [offset]
      rw [← Nat.mul_assoc, Nat.mul_comm]
      rfl
    obtain ⟨half, side⟩ := pair_target (p * 2 ^ (v + 1 - r - (t + 1))) .A
    rw [target, if_pos (by omega), double, half, side] at move
    exact move.2.1

/-- Who dropped in after round `r` comes up to the drop after round `v + 1`. -/
theorem comes_up (positive : 1 ≤ r) (several : v + 1 < dd.j) (valid : dd.Valid ⟨.L, 2 * r - 1, e⟩)
    (sits : Sits (allUnits dd.segments) units res x (dd.unit ⟨.L, 2 * r - 1, e⟩, .B)) (hr : r ≤ t)
    (ht : t ≤ v + 1) :
    dd.Valid ⟨.L, 2 * t - 1, e / 2 ^ (t - r)⟩ ∧ Sits (allUnits dd.segments) units res x
      (dd.unit ⟨.L, 2 * t - 1, e / 2 ^ (t - r)⟩, if t = r then .B else .A) := by
  induction t, hr using Nat.le_induction with
  | base => simpa using ⟨valid, sits⟩
  | succ t hr ih =>
    obtain ⟨valid, sits⟩ := ih (by omega)
    -- a drop-in unit, then one that pairs
    have drop_in : rematchPicks v r e ⟨.L, 2 * t - 1, e / 2 ^ (t - r)⟩ =
        if t = r then .B else .A := by
      rw [rematchPicks, if_neg (by omega)]
      by_cases same : t = r
      · rw [if_pos same, if_pos (by omega)]
      · rw [if_neg same, if_neg (by omega)]
    have move := h.wins valid (by simp) (drop_in ▸ sits)
    obtain ⟨valid', -, -⟩ := source_target h.four valid (by simp) fun _ =>
      (rfl : FeederTake.winner = .winner)
    have onward : target dd.j ⟨.L, 2 * t - 1, e / 2 ^ (t - r)⟩ .winner =
        (⟨.L, 2 * t, e / 2 ^ (t - r) / 2⟩, placeOf (e / 2 ^ (t - r))) := by
      rw [target, if_neg (by omega), if_neg (by omega), show 2 * t - 1 + 1 = 2 * t from by omega]
    rw [onward] at move valid'
    have pairing : rematchPicks v r e ⟨.L, 2 * t, e / 2 ^ (t - r) / 2⟩ =
        placeOf (e / 2 ^ (t - r)) := by
      rw [rematchPicks, if_pos (by omega), show 2 * t / 2 = t from by omega]
    have move' := h.wins valid' (by simp) (pairing ▸ move.2.1)
    obtain ⟨valid'', -, -⟩ := source_target h.four valid' (by simp) fun _ =>
      (rfl : FeederTake.winner = .winner)
    have onward' : target dd.j ⟨.L, 2 * t, e / 2 ^ (t - r) / 2⟩ .winner =
        (⟨.L, 2 * (t + 1) - 1, e / 2 ^ (t + 1 - r)⟩, .A) := by
      rw [target, if_neg (by omega), if_pos (by omega), Nat.div_div_eq_div_mul, ← Nat.pow_succ,
        show t + 1 - r = (t - r).succ from by omega,
        show 2 * (t + 1) - 1 = 2 * t + 1 from by omega]
    rw [onward'] at move' valid''
    rw [if_neg (by omega)]
    exact ⟨valid'', move'.2.1⟩

/-- **The script leads to a rematch** where the two drops take the first number to one place. -/
theorem meets_again {n : Nat} (positive : 1 ≤ r) (later : r ≤ v) (several : v + 1 < dd.j)
    (agree : drop (2 ^ (dd.j - (v + 1))) (v + 1) 0 = drop (2 ^ (dd.j - (v + 1))) r 0)
    (hn : n = drop (2 ^ (dd.j - (v + 1))) (v + 1) 0 * 2 ^ (v + 1 - r))
    (he : e = drop (2 ^ (dd.j - r)) r n) :
    dd.Valid ⟨.W, r, n⟩ ∧ dd.Valid ⟨.L, 2 * v + 1, 0⟩ ∧ ∃ x y,
      Beaten (allUnits dd.segments) units res x (dd.unit ⟨.W, r, n⟩, .B) ∧
      Sits (allUnits dd.segments) units res y (dd.unit ⟨.W, r, n⟩, .A) ∧
      Sits (allUnits dd.segments) units res x (dd.unit ⟨.L, 2 * v + 1, 0⟩, .A) ∧
      Sits (allUnits dd.segments) units res y (dd.unit ⟨.L, 2 * v + 1, 0⟩, .B) := by
  obtain ⟨c, hc⟩ : ∃ c, c = 2 ^ (dd.j - (v + 1)) := ⟨_, rfl⟩
  have pos : 0 < c := hc ▸ Nat.two_pow_pos _
  have even : 2 ∣ c := by
    rw [hc, show dd.j - (v + 1) = dd.j - (v + 2) + 1 from by omega, Nat.pow_succ]
    exact Nat.dvd_mul_left 2 _
  obtain ⟨p, hp⟩ : ∃ p, p = drop c (v + 1) 0 := ⟨_, rfl⟩
  rw [← hc] at agree hn
  rw [← hp] at agree hn
  have smallP : p < c := hp ▸ (drop_drop pos (Or.inl even)).1
  have size : 2 ^ (dd.j - r) = c * 2 ^ (v + 1 - r) := by
    rw [hc, ← Nat.pow_add]
    congr 1
    omega
  have smallN : n < 2 ^ (dd.j - r) := by
    rw [hn, size]
    exact Nat.mul_lt_mul_of_pos_right smallP (Nat.two_pow_pos _)
  have spot : dd.Valid ⟨.W, r, n⟩ := .winners (by omega) smallN
  obtain ⟨x, hx⟩ := h.taken spot .B
  obtain ⟨y, hy⟩ := h.taken spot .A
  have first : rematchPicks v r e ⟨.W, r, n⟩ = .A := if_pos (show r < v + 1 from by omega)
  have beaten := h.loses spot (by rw [first]; simp) hx (first ▸ hy)
  -- the winner comes up to round `v + 1`, is beaten there and drops in
  have up := h.climbs several (hc ▸ smallP) (hn ▸ hy) (le_refl _)
  rw [show r + (v + 1 - r) = v + 1 from by omega, Nat.sub_self, Nat.pow_zero, Nat.mul_one] at up
  have spot' : dd.Valid ⟨.W, v + 1, p⟩ := .winners (by omega) (hc ▸ smallP)
  obtain ⟨z, hz⟩ := h.taken spot' .B
  have second : rematchPicks v r e ⟨.W, v + 1, p⟩ = .B := if_neg (Nat.lt_irrefl _)
  have beaten' := h.loses spot' (by rw [second]; simp) up (second ▸ hz)
  obtain ⟨-, r₂, hr₂, place₂, -, on₂⟩ := beaten'
  have dropped := h.moves_target spot' (by simp) up hr₂ place₂ (fun _ => on₂) fun e => by cases e
  have home : target dd.j ⟨.W, v + 1, p⟩ .loser = (⟨.L, 2 * v + 1, 0⟩, .B) := by
    rw [target, if_neg (by omega), ← hc, hp, (drop_drop pos (Or.inl even)).2,
      show 2 * (v + 1) - 1 = 2 * v + 1 from by omega]
  rw [home] at dropped
  -- the loser comes up through the losers bracket
  obtain ⟨r₁, hr₁, place₁, decided₁, on₁⟩ := beaten.2
  have entry := h.moves_target spot (by simp) hx hr₁ place₁ (fun _ => on₁) fun e => by cases e
  obtain ⟨validE, -, -⟩ := source_target h.four spot (by simp)
    (show Wing.W = .L → FeederTake.loser = .winner from fun e => by cases e)
  have lands : target dd.j ⟨.W, r, n⟩ .loser = (⟨.L, 2 * r - 1, e⟩, .B) := by
    rw [target, if_neg (by omega), he]
  rw [lands] at entry validE
  obtain ⟨valid, arrives⟩ := h.comes_up positive several validE entry.2.1
    (Nat.le_succ_of_le later) (le_refl _)
  have number : e / 2 ^ (v + 1 - r) = 0 := by
    rw [he, size, drop_div (Nat.two_pow_pos _) even (size ▸ smallN), hn,
      Nat.mul_div_cancel _ (Nat.two_pow_pos _), agree, (drop_drop pos (Or.inl even)).2]
  rw [number, show 2 * (v + 1) - 1 = 2 * v + 1 from by omega] at valid arrives
  rw [if_neg (by omega)] at arrives
  exact ⟨spot, valid, x, y, ⟨hx, r₁, hr₁, place₁, decided₁, on₁⟩, hy, arrives, dropped.2.1⟩

end Scripted

end DoubleDraw

/-! ## Rematches -/

def numbered (n : Nat) : List Participant :=
  (List.range n).map fun i => { id := "P" ++ toString i, name := "P" ++ toString i }

theorem numbered_ids (n : Nat) : ((numbered n).map Participant.id).Nodup ∧
    ∀ p ∈ numbered n, p.id ≠ BYE ∧ p.id ≠ "" := by
  constructor
  · rw [numbered, List.map_map]
    refine List.nodup_range.map fun i i' e => ?_
    exact toString_injective ((String.append_right_inj _).mp e)
  · intro p hp
    obtain ⟨i, -, rfl⟩ := List.mem_map.mp hp
    have head : ("P" ++ toString i).toList.head? = some 'P' := by
      simp [String.toList_append]
    constructor <;> intro e <;> replace e : "P" ++ toString i = _ := e <;> rw [e] at head <;>
      cases head

theorem length_numbered (n : Nat) : (numbered n).length = n := by
  rw [numbered, List.length_map, List.length_range]

theorem numbered_shape (j : Nat) (four : 1 ≤ j) :
    bracketShape (numbered (2 ^ (j + 1))) none (some (2 ^ (j + 1))) true =
      .ok (2 ^ (j + 1), 2 ^ (j + 1)) := by
  have size : resolveSize (some (2 ^ (j + 1))) (2 ^ (j + 1)) = .ok (2 ^ (j + 1)) := by
    obtain ⟨n, hn⟩ : ∃ n, 2 ^ (j + 1) = n + 1 := ⟨_, (Nat.sub_one_add_one (by simp)).symm⟩
    rw [hn, resolveSize]
  have large : 2 ^ 2 ≤ 2 ^ (j + 1) := Nat.pow_le_pow_right (by omega) (show 2 ≤ j + 1 by omega)
  have power : 2 ^ (j + 1) &&& (2 ^ (j + 1) - 1) = 0 := by
    rw [Nat.and_two_pow_sub_one_eq_mod, Nat.mod_self]
  rw [bracketShape, length_numbered, if_neg (by omega), size]
  show checkShape true (2 ^ (j + 1)) (2 ^ (j + 1)) (2 ^ (j + 1)) = _
  unfold checkShape
  rw [if_neg (by rw [power]; omega), if_neg (by omega), if_neg (by omega), if_neg (by omega)]

/-- Results for all units of a double elimination, from the places that win. -/
noncomputable def scriptedResult (idPrefix : String) (picks : Spot → PlayUnit.Place) :
    PlayUnitId → Result :=
  Function.extend (fun s : Spot => s.id idPrefix) (fun s => { winnerSide := (picks s).side })
    fun _ => { winnerSide := .A }

theorem scriptedResult_id (idPrefix : String) (picks : Spot → PlayUnit.Place) (s : Spot) :
    scriptedResult idPrefix picks (s.id idPrefix) = { winnerSide := (picks s).side } :=
  Function.Injective.extend_apply (fun _ _ e => Spot.id_injective e) _ _ s

/-- **Two drops that agree lead to a rematch** in the draw of a full field. -/
theorem rematch_reached {v r : Nat} (positive : 1 ≤ r) (later : r ≤ v) (several : v + 1 < j)
    (agree : drop (2 ^ (j - (v + 1))) (v + 1) 0 = drop (2 ^ (j - (v + 1))) r 0) :
    ∃ d s, generateDraw "de" (numbered (2 ^ (j + 1))) "MS"
        { bracketSize := some (2 ^ (j + 1)) } = .ok d ∧
      SessionReached [d] s ∧ Rematch d "MS" s (v + 1) 0 := by
  have shape := numbered_shape j (by omega)
  obtain ⟨d, h⟩ := @generateDoubleElimination_total _ "MS" "MS" 1 _ _ false _ _ shape
  replace h : generateDraw "de" (numbered (2 ^ (j + 1))) "MS"
    { bracketSize := some (2 ^ (j + 1)) } = .ok d := h
  obtain ⟨dd, field, event, four, rows, seeded, shape'⟩ := generateDraw_double h
  obtain rfl : dd.j = j := by
    have e := Except.ok.inj (shape'.symm.trans shape)
    have := Nat.pow_right_injective (le_refl 2) (congrArg Prod.fst e)
    omega
  have generated := generateDraw_ok h
  have drawn := generated.drawn.1
  have final : dd.unit Spot.grandFinal ∈ d.playUnits.rows :=
    rows ▸ mem_segments.mpr ⟨_, .final, rfl⟩
  obtain ⟨s₀, registered⟩ := registerDraws_total drawn (List.ne_nil_of_mem final)
  -- play the draw as the script says
  obtain ⟨e, he⟩ : ∃ e, e = drop (2 ^ (dd.j - r)) r
    (drop (2 ^ (dd.j - (v + 1))) (v + 1) 0 * 2 ^ (v + 1 - r)) := ⟨_, rfl⟩
  let choice := scriptedResult dd.idPrefix (rematchPicks v r e)
  have all : ∀ d' ∈ [d], Drawn d' := by
    intro d' hd'
    rwa [List.mem_singleton.mp hd']
  have session : Session [d] (fun id r => r = choice id) s₀ := registerDraws_session all registered
  obtain ⟨calls, s, run, chosen, complete⟩ := session.completes choice fun _ => rfl
  replace session := session.run run chosen
  have ids := numbered_ids (2 ^ (dd.j + 1))
  have routing := session.routing List.mem_cons_self drawn (generated.routed (by decide)) ids.1
  have scripted : Scripted dd (rematchPicks v r e) (origin [d]) s.playUnits s.result := by
    refine ⟨⟨four, ?_, ?_, ?_⟩, ?_, ?_, ?_⟩
    · rw [field]
      exact ids.2
    · rw [field, length_numbered]
    · rw [← rows, field]
      exact routing
    · rw [field, length_numbered]
    · intro t ht
      exact complete (dd.unit t) (List.mem_flatMap.mpr ⟨d, List.mem_cons_self,
        rows ▸ mem_segments.mpr ⟨t, ht, rfl⟩⟩)
    · intro t ht res hres
      have stored := routing.consistent.get (routing.sub (dd.unit t)
        (rows ▸ mem_segments.mpr ⟨t, ht, rfl⟩))
      rcases session.sound.explained _ _ res stored hres with walkover | ⟨both, rfl⟩
      · exact Or.inl walkover
      · refine Or.inr ⟨both, ?_⟩
        show choice (dd.unit t).id = _
        rw [unit_id _ ht]
        exact scriptedResult_id _ _ t
  obtain ⟨spot, valid, x, y, beaten, won, hx, hy⟩ :=
    scripted.meets_again positive later several agree rfl he
  refine ⟨d, s, h, show SessionReached [d] s from .run (.init registered) run, ?_⟩
  have here : dd.unit ⟨.L, 2 * v + 1, 0⟩ ∈ d.playUnits.rows :=
    rows ▸ mem_segments.mpr ⟨_, valid, rfl⟩
  have met : dd.unit ⟨.W, r, drop (2 ^ (dd.j - (v + 1))) (v + 1) 0 * 2 ^ (v + 1 - r)⟩ ∈
    d.playUnits.rows := rows ▸ mem_segments.mpr ⟨_, spot, rfl⟩
  have shown := routing.consistent.get (routing.sub _ here)
  rw [unit_id _ valid] at shown
  rw [event] at shown
  refine ⟨_, shown, x, hx.2, y, hy.2, _, met, (metadata_unit spot).2.1, ?_, ?_⟩
  · exact (routing.sent_loser met).mpr ⟨.B, rows ▸ beaten⟩
  · obtain ⟨res, hres, lost, -⟩ := beaten.2
    rw [TournamentState.sent, routing.consistent.get (routing.sub _ met),
      show s.result (dd.unit ⟨.W, r, _⟩).id = some res from hres]
    refine fed_of_mem (scripted.routing.alone won).1 ?_ fun e => by cases e
    cases hw : res.winnerSide <;> rw [hw] at lost <;> first | rfl | cases lost

/-- **Which rounds of losers are kept from rematches**: the first, and the second where it
drops four losers or more. -/
theorem neverRematch_iff {k w : Nat} (large : 3 ≤ k) (positive : 1 ≤ w) (several : w + 2 ≤ k) :
    NeverRematch (2 ^ k) w ↔ w = 1 ∨ (w = 2 ∧ 5 ≤ k) := by
  obtain ⟨j, rfl⟩ : ∃ j, k = j + 1 := ⟨k - 1, by omega⟩
  obtain ⟨v, rfl⟩ : ∃ v, w = v + 1 := ⟨w - 1, by omega⟩
  constructor
  · intro never
    by_contra late
    -- two rounds earlier the losers dropped in the same order, and with two units in any order
    obtain ⟨r, positive, later, agree⟩ : ∃ r, 1 ≤ r ∧ r ≤ v ∧
        drop (2 ^ (j - (v + 1))) (v + 1) 0 = drop (2 ^ (j - (v + 1))) r 0 := by
      by_cases third : 2 ≤ v
      · exact ⟨v - 1, by omega, by omega, drop_congr (by omega)⟩
      · obtain rfl : v = 1 := by omega
        obtain rfl : j = 3 := by omega
        exact ⟨1, le_refl _, le_refl _, drop_two _ _⟩
    obtain ⟨d, s, h, reached, rematch⟩ := rematch_reached positive later (by omega) agree
    have ids := numbered_ids (2 ^ (j + 1))
    refine never _ _ _ d h ⟨_, numbered_shape j (by omega)⟩ ids.1 ids.2 [d] List.mem_cons_self
      (fun d' hd' => ?_) s reached 0 (Nat.div_pos ?_ (Nat.two_pow_pos _)) rematch
    · rw [List.mem_singleton.mp hd']
      exact ⟨_, _, _, _, h⟩
    · exact Nat.pow_le_pow_right (by omega) (by omega)
  · intro early
    exact neverRematch_of (by omega) (by omega)

/-- In a draw of 32 the second drop is kept from rematches, the third is not. -/
theorem neverRematch_thirtyTwo : NeverRematch 32 2 ∧ ¬ NeverRematch 32 3 := by
  constructor
  · exact (neverRematch_iff (k := 5) (by decide) (by decide) (by decide)).mpr (by decide)
  · intro never
    have := (neverRematch_iff (k := 5) (by decide) (by decide) (by decide)).mp never
    omega

/-- In a draw of sixteen a player beaten in the second round of the main bracket meets his
winner again when that one is beaten in the third. -/
theorem rematch_at_sixteen : ∃ d s,
    generateDraw "de" (numbered 16) "MS" { bracketSize := some 16 } = .ok d ∧
      SessionReached [d] s ∧ Rematch d "MS" s 2 0 :=
  rematch_reached (j := 3) (v := 1) (r := 1) (by decide) (by decide) (by decide) (drop_two 2 1)

end Brackets
