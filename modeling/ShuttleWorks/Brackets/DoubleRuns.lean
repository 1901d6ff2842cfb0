import ShuttleWorks.Brackets.Formats.Placement
import ShuttleWorks.Brackets.Guarantees
import ShuttleWorks.Brackets.Playing

/-! A double elimination played to its end. Each outcome but a second defeat leads on
towards the grand final; whoever is in the losers bracket lost once before, whoever
comes out of the main bracket never did. -/

namespace Brackets
open Lib Relation

variable {t : Spot} {k : PlayUnit.Place}

namespace DoubleDraw

variable {dd : DoubleDraw} {o : List PlayUnit} {units : PlayUnits}
  {res : PlayUnitId → Option Result} {x y : ParticipantId} {a b : Seat} {i : PlayUnit.Place}
  {r : Result}

/-! ## Where outcomes lead -/

def Spot.grandFinal : Spot := ⟨.GF, 0, 0⟩

def togo (j : Nat) : Spot → Nat
  | ⟨.W, r, _⟩ => 3 * j + 1 - r
  | ⟨.L, r, _⟩ => 2 * j - r
  | ⟨.GF, _, _⟩ => 0

theorem offset_placeOf (m : Nat) : 2 * (m / 2) + offset (placeOf m) = m := by
  unfold placeOf
  split
  · simp only [offset]
    omega
  · simp only [offset]
    omega

/-- **An outcome leads to the slot that takes it**, nearer to the grand final. Only losers of the
losers bracket are led nowhere. -/
theorem source_target (four : 1 ≤ dd.j) {s : Spot} (hs : dd.Valid s) (before : s.wing ≠ .GF)
    {take : FeederTake} (on : s.wing = .L → take = .winner) :
    dd.Valid (target dd.j s take).1 ∧
      source dd.j (target dd.j s take).1 (target dd.j s take).2 = some (s, take) ∧
      togo dd.j (target dd.j s take).1 < togo dd.j s := by
  cases hs with
  | final => exact absurd rfl before
  | reset => exact absurd rfl before
  | @winners r m hr hm =>
    have pair := offset_placeOf m
    cases take with
    | winner =>
      by_cases last : r < dd.j
      · rw [target, if_pos last]
        refine ⟨.winners (by omega) ?_, by rw [source, pair], by simp only [togo]; omega⟩
        rw [show dd.j - r = dd.j - (r + 1) + 1 from by omega, Nat.pow_succ] at hm
        omega
      · obtain rfl : r = dd.j := by omega
        rw [Nat.sub_self, Nat.pow_zero] at hm
        obtain rfl : m = 0 := by omega
        rw [target, if_neg last]
        exact ⟨.final, rfl, by simp only [togo]; omega⟩
    | loser =>
      by_cases first : r = 0
      · subst first
        rw [target, if_pos rfl]
        refine ⟨.losers (by omega) ?_, by rw [source, pair], by simp only [togo]; omega⟩
        rw [show dd.j - 0 = dd.j - 1 - 0 / 2 + 1 from by omega, Nat.pow_succ] at hm
        omega
      · obtain ⟨q, rfl⟩ : ∃ q, r = q + 1 := ⟨r - 1, by omega⟩
        obtain ⟨bound, back⟩ := drop_drop hm (even_or_one _) (w := q + 1)
        rw [target, if_neg first, show 2 * (q + 1) - 1 = 2 * q + 1 from by omega]
        refine ⟨.losers (by omega) ?_, ?_, by simp only [togo]; omega⟩
        · rw [show dd.j - 1 - (2 * q + 1) / 2 = dd.j - (q + 1) from by omega]
          exact bound
        · rw [source, if_neg (by omega), show 2 * q / 2 + 1 = q + 1 from by omega]
          simp only [back]
  | @losers r m hr hm =>
    obtain rfl := on rfl
    have pair := offset_placeOf m
    by_cases last : r = 2 * dd.j - 1
    · subst last
      rw [show dd.j - 1 - (2 * dd.j - 1) / 2 = 0 from by omega, Nat.pow_zero] at hm
      obtain rfl : m = 0 := by omega
      rw [target, if_pos rfl]
      exact ⟨.final, rfl, by simp only [togo]; omega⟩
    · rw [target, if_neg last]
      by_cases even : r % 2 = 0
      · rw [if_pos even]
        have paired : ¬ r % 2 = 1 := by omega
        refine ⟨.losers (by omega) ?_, by simp only [source, if_neg paired],
          by simp only [togo]; omega⟩
        rwa [show (r + 1) / 2 = r / 2 from by omega]
      · rw [if_neg even]
        have unpaired : r % 2 = 1 := by omega
        refine ⟨.losers (by omega) ?_, by simp only [source, if_pos unpaired, pair],
          by simp only [togo]; omega⟩
        rw [show dd.j - 1 - r / 2 = dd.j - 1 - (r + 1) / 2 + 1 from by omega, Nat.pow_succ] at hm
        omega

theorem slot_of_source {s : Spot} (hs : dd.Valid s) (ht : dd.Valid t) {take : FeederTake}
    (h : source dd.j t k = some (s, take)) :
    (dd.unit t).slot k = .feeder (dd.unit s).id take := by
  have fed := slot_unit ht k
  rw [h] at fed
  rw [unit_id s hs]
  exact fed

/-! ## Stages -/

def Dropped (s : Spot) (i : PlayUnit.Place) : Prop :=
  s.wing = .L ∨ (s.wing = .GF ∧ (s.round = 0 → i = .B))

theorem source_dropped {s : Spot} {take : FeederTake} (h : source dd.j t k = some (s, take))
    (hs : Dropped s i) : Dropped t k := by
  obtain ⟨wing, r, m⟩ := t
  cases wing with
  | W =>
    cases r with
    | zero => cases h
    | succ r =>
      cases h
      rcases hs with hs | ⟨hs, -⟩ <;> cases hs
  | L => exact Or.inl rfl
  | GF =>
    refine Or.inr ⟨rfl, ?_⟩
    rintro rfl
    cases k with
    | A =>
      cases h
      rcases hs with hs | ⟨hs, -⟩ <;> cases hs
    | B => rfl

theorem source_of_dropped {s : Spot} {take : FeederTake} (h : source dd.j t k = some (s, take))
    (first : t.wing = .GF → t.round = 0) (ht : Dropped t k) :
    (s.wing = .W ∧ take = .loser) ∨ (s.wing = .L ∧ take = .winner) := by
  obtain ⟨wing, r, m⟩ := t
  cases wing with
  | W => rcases ht with ht | ⟨ht, -⟩ <;> cases ht
  | L =>
    cases r with
    | zero =>
      cases h
      exact Or.inl ⟨rfl, rfl⟩
    | succ r =>
      by_cases odd : r % 2 = 1
      · simp only [source, if_pos odd, Option.some.injEq, Prod.mk.injEq] at h
        obtain ⟨rfl, rfl⟩ := h
        exact Or.inr ⟨rfl, rfl⟩
      · cases k <;> simp only [source, if_neg odd, Option.some.injEq, Prod.mk.injEq] at h
        · obtain ⟨rfl, rfl⟩ := h
          exact Or.inr ⟨rfl, rfl⟩
        · obtain ⟨rfl, rfl⟩ := h
          exact Or.inl ⟨rfl, rfl⟩
  | GF =>
    obtain rfl := first rfl
    rcases ht with ht | ⟨-, ht⟩
    · cases ht
    · obtain rfl := ht rfl
      cases h
      exact Or.inr ⟨rfl, rfl⟩

theorem source_ne_losers {s : Spot} (hs : s.wing = .L) :
    source dd.j t k ≠ some (s, .loser) := by
  intro h
  obtain ⟨wing, r, m⟩ := t
  cases wing with
  | W =>
    cases r with
    | zero => cases h
    | succ r => cases h
  | L =>
    rcases source_of_dropped h (fun e => by cases e) (Or.inl rfl) with ⟨main, -⟩ | ⟨-, take⟩
    · rw [hs] at main
      cases main
    · cases take
  | GF =>
    cases r <;> cases k <;> cases h
    cases hs

def Stands (dd : DoubleDraw) (P : Spot → PlayUnit.Place → Prop) (a : Seat) : Prop :=
  ∃ s, dd.Valid s ∧ dd.unit s = a.1 ∧ P s a.2

theorem unit_injective {s : Spot} (hs : dd.Valid s) (ht : dd.Valid t) (e : dd.unit s = dd.unit t) :
    s = t := by
  have ids := congrArg PlayUnit.id e
  rw [unit_id s hs, unit_id t ht] at ids
  exact Spot.id_injective ids

theorem moves_source {s : Spot} (hs : dd.Valid s) (ht : dd.Valid t)
    (move : Moves (allUnits dd.segments) units res x (dd.unit s, i) (dd.unit t, k)) :
    ∃ r take, res (dd.unit s).id = some r ∧ fedPlace r.winnerSide take = some i ∧
      source dd.j t k = some (s, take) := by
  obtain ⟨-, -, r, take, hr, place, slot⟩ := move
  refine ⟨r, take, hr, place, ?_⟩
  have fed := slot_unit ht k
  cases hsrc : source dd.j t k with
  | none =>
    rw [hsrc] at fed
    obtain ⟨p, hp⟩ := fed
    cases slot.symm.trans hp
  | some src =>
    obtain ⟨s', take'⟩ := src
    rw [hsrc] at fed
    obtain ⟨e, rfl⟩ := BracketSlot.feeder.inj (fed.symm.trans slot)
    rw [show (dd.unit s, i).1.id = (dd.unit s).id from rfl, unit_id s hs] at e
    rw [Spot.id_injective e]

theorem Stands.path {P : Spot → PlayUnit.Place → Prop}
    (step : ∀ {s t i k take}, source dd.j t k = some (s, take) → P s i → P t k)
    (ha : dd.Stands P a) (path : ReflTransGen (Moves (allUnits dd.segments) units res x) a b) :
    dd.Stands P b := by
  induction path with
  | refl => exact ha
  | @tail b c _ move ih =>
    obtain ⟨s, hs, e, hP⟩ := ih
    obtain ⟨t, ht, e'⟩ := mem_segments.mp move.2.1.1
    obtain ⟨u, i⟩ := b
    obtain ⟨v, k⟩ := c
    obtain rfl : dd.unit s = u := e
    obtain rfl : dd.unit t = v := e'
    obtain ⟨-, take, -, -, src⟩ := moves_source hs ht move
    exact ⟨t, ht, rfl, step src hP⟩

theorem after_drop {s : Spot} (hs : dd.Valid s) (ht : dd.Valid t) {c : Seat} (main : s.wing = .W)
    (beaten : Beaten (allUnits dd.segments) units res x (dd.unit s, i))
    (move : Moves (allUnits dd.segments) units res x (dd.unit s, i) c)
    (path : ReflTransGen (Moves (allUnits dd.segments) units res x) c (dd.unit t, k)) :
    Dropped t k := by
  obtain ⟨v, l⟩ := c
  obtain ⟨w, hw, rfl⟩ := mem_segments.mp move.2.1.1
  have slot := Routing.beaten_take beaten move
  obtain ⟨r, take, -, -, src⟩ := moves_source hs hw move
  obtain rfl : FeederTake.loser = take :=
    (BracketSlot.feeder.inj (slot.symm.trans (slot_of_source hs hw src))).2
  have down : Dropped w l := by
    obtain ⟨wing, r, m⟩ := w
    cases wing with
    | W => cases r <;> cases src
    | L => exact Or.inl rfl
    | GF =>
      cases r <;> cases l <;> cases src
      cases main
  obtain ⟨t', ht', e, stage⟩ := Stands.path (P := Dropped) source_dropped ⟨w, hw, rfl, down⟩ path
  rw [unit_injective ht' ht e] at stage
  exact stage

theorem beaten_stays {s : Spot} (hs : dd.Valid s) (losers : s.wing = .L)
    (beaten : Beaten (allUnits dd.segments) units res x (dd.unit s, i)) :
    ¬ Moves (allUnits dd.segments) units res x (dd.unit s, i) b := by
  intro move
  obtain ⟨v, l⟩ := b
  obtain ⟨w, hw, rfl⟩ := mem_segments.mp move.2.1.1
  have slot := Routing.beaten_take beaten move
  obtain ⟨r, take, -, -, src⟩ := moves_source hs hw move
  obtain rfl : FeederTake.loser = take :=
    (BracketSlot.feeder.inj (slot.symm.trans (slot_of_source hs hw src))).2
  exact source_ne_losers losers src

theorem final_stays {s : Spot} (hs : dd.Valid s)
    (path : ReflTransGen (Moves (allUnits dd.segments) units res x) (dd.unit ⟨.GF, 0, 0⟩, k)
      (dd.unit s, i)) : s.wing = .GF := by
  have start : dd.Stands (fun s _ => s.wing = .GF) (dd.unit ⟨.GF, 0, 0⟩, k) := ⟨_, .final, rfl, rfl⟩
  have stay := start.path ?_ path
  · obtain ⟨s', hs', e, wing⟩ := stay
    exact unit_injective hs' hs e ▸ wing
  · intro s t i k take src wing
    obtain ⟨tw, r, m⟩ := t
    cases tw with
    | W =>
      cases r <;> cases src
      cases wing
    | L =>
      rcases source_of_dropped src (fun e => by cases e) (Or.inl rfl) with ⟨e, -⟩ | ⟨e, -⟩ <;>
        rw [wing] at e <;> cases e
    | GF => rfl

def Spot.reset : Spot := ⟨.GF, 1, 0⟩

theorem grandFinal_of_source {s : Spot} {take : FeederTake} (ht : dd.Valid t)
    (h : source dd.j t k = some (s, take)) (hs : s.wing ≠ .GF) (final : t.wing = .GF) :
    t = Spot.grandFinal := by
  cases ht with
  | winners => cases final
  | losers => cases final
  | final => rfl
  | reset =>
    cases k <;> cases h <;> exact absurd rfl hs

def exitOf : Wing → PlayUnit.Place
  | .W => .A
  | _ => .B

theorem target_winner {j : Nat} {s : Spot} (before : s.wing ≠ .GF) :
    (target j s .winner).1.wing = s.wing ∨
      target j s .winner = (Spot.grandFinal, exitOf s.wing) := by
  obtain ⟨wing, r, m⟩ := s
  cases wing with
  | W =>
    rw [target]
    split
    · exact Or.inl rfl
    · exact Or.inr rfl
  | L =>
    rw [target]
    split
    · exact Or.inr rfl
    · split <;> exact Or.inl rfl
  | GF => exact absurd rfl before

/-- A table over a double elimination of named entrants. -/
structure Entered (dd : DoubleDraw) (o : List PlayUnit) (units : PlayUnits)
    (res : PlayUnitId → Option Result) : Prop where
  four : 1 ≤ dd.j
  named : ∀ p ∈ dd.participants, p.id ≠ BYE ∧ p.id ≠ ""
  fits : dd.participants.length ≤ 2 ^ (dd.j + 1)
  routing : Routing dd.participants o (allUnits dd.segments) units res

/-- One in which every unit with a result, but for the reset, was decided by walkover or on the
court. -/
structure Contested (dd : DoubleDraw) (o : List PlayUnit) (units : PlayUnits)
    (res : PlayUnitId → Option Result) : Prop extends Entered dd o units res where
  decides : ∀ s, dd.Valid s → s ≠ Spot.reset → ∀ r, res (dd.unit s).id = some r →
    Decides (fun _ r => r.Played) (settleUnit units res (dd.unit s)) r

namespace Entered

variable (h : Entered dd o units res)
include h

/-! ## Entrants -/

theorem entrance {s : Spot} (hs : dd.Valid s) (real : x ≠ BYE)
    (slot : (dd.unit s).slot i = .participant x) :
    s.wing = .W ∧ s.round = 0 ∧ x ∈ dd.participants.map Participant.id := by
  have fed := slot_unit hs i
  cases hsrc : source dd.j s i with
  | some src =>
    rw [hsrc] at fed
    cases slot.symm.trans fed
  | none =>
    obtain ⟨wing, round⟩ := source_eq_none hsrc
    refine ⟨wing, round, (mem_entrantSlots h.fits real).mp ?_⟩
    obtain ⟨w, r, m⟩ := s
    cases wing
    cases round
    rw [unit, SpawnPlan.slot_unitAt] at slot
    exact List.mem_of_getElem? (getElem?_of_getD real slot)

theorem enters (hx : x ∈ dd.participants.map Participant.id) :
    ∃ s i, dd.Valid s ∧ s.wing = .W ∧
      Sits (allUnits dd.segments) units res x (dd.unit s, i) := by
  obtain ⟨p, hp, rfl⟩ := List.mem_map.mp hx
  have real := (h.named p hp).1
  obtain ⟨n, hn⟩ := List.getElem?_of_mem ((mem_entrantSlots h.fits real).mpr hx)
  have lt : n < 2 ^ (dd.j + 1) := by
    rw [← length_entrantSlots dd.participants (2 ^ (dd.j + 1))]
    exact (List.getElem?_eq_some_iff.mp hn).1
  rw [Nat.pow_succ] at lt
  have valid : dd.Valid ⟨.W, 0, n / 2⟩ := .winners (by omega) (by rw [Nat.sub_zero]; omega)
  refine ⟨⟨.W, 0, n / 2⟩, placeOf n, valid, rfl, ?_⟩
  refine h.routing.entered (mem_segments.mpr ⟨_, valid, rfl⟩) ?_ real
  show (dd.unit ⟨.W, 0, n / 2⟩).slot (placeOf n) = .participant p.id
  rw [unit, SpawnPlan.slot_unitAt]
  simp only [placeOf_number, SpawnPlan.entry, KnockoutDraw.entrySlots, winnersPlan, winnersDraw]
  rw [List.getD_eq_getElem?_getD, hn, Option.getD_some]

theorem path (sits : Sits (allUnits dd.segments) units res x (dd.unit t, k)) :
    x ∈ dd.participants.map Participant.id ∧ ∃ s i, dd.Valid s ∧ s.wing = .W ∧
      ReflTransGen (Moves (allUnits dd.segments) units res x) (dd.unit s, i) (dd.unit t, k) := by
  obtain ⟨⟨u, i⟩, entered, slot, path⟩ := h.routing.path sits
  obtain ⟨s, hs, rfl⟩ := mem_segments.mp entered.1
  obtain ⟨wing, -, listed⟩ := h.entrance hs (h.routing.alone sits).2 slot
  exact ⟨listed, s, i, hs, wing, path⟩

theorem real {a : Seat} (sits : Sits (allUnits dd.segments) units res x a) : x ≠ "" := by
  obtain ⟨u, i⟩ := a
  obtain ⟨s, hs, rfl⟩ := mem_segments.mp sits.1
  obtain ⟨p, hp, rfl⟩ := List.mem_map.mp (h.path sits).1
  exact (h.named p hp).2

/-! ## One step on -/

theorem moves_target {s : Spot} (hs : dd.Valid s) (before : s.wing ≠ .GF) {take : FeederTake}
    (sits : Sits (allUnits dd.segments) units res x (dd.unit s, i))
    (hr : res (dd.unit s).id = some r) (place : fedPlace r.winnerSide take = some i)
    (on : take = .loser → loserCannotContinue r.walkover r.reason = false)
    (losers : s.wing = .L → take = .winner) :
    Moves (allUnits dd.segments) units res x (dd.unit s, i)
      (dd.unit (target dd.j s take).1, (target dd.j s take).2) := by
  obtain ⟨valid, src, -⟩ := source_target h.four hs before losers
  exact h.routing.forward sits (h.real sits) hr place on (mem_segments.mpr ⟨_, valid, rfl⟩)
    (slot_of_source hs valid src)

/-! ## Defeats -/

theorem dropped (ht : dd.Valid t) (first : t.wing = .GF → t.round = 0) (stage : Dropped t k)
    (sits : Sits (allUnits dd.segments) units res x (dd.unit t, k)) :
    ∃ s i, dd.Valid s ∧ s.wing = .W ∧ Beaten (allUnits dd.segments) units res x (dd.unit s, i) ∧
      TransGen (Moves (allUnits dd.segments) units res x) (dd.unit s, i) (dd.unit t, k) := by
  obtain ⟨-, s₀, i₀, hs₀, wing, path⟩ := h.path sits
  have all : ∀ b, ReflTransGen (Moves (allUnits dd.segments) units res x) (dd.unit s₀, i₀) b →
      ∀ t k, dd.Valid t → (dd.unit t, k) = b → (t.wing = .GF → t.round = 0) → Dropped t k →
      ∃ s i, dd.Valid s ∧ s.wing = .W ∧ Beaten (allUnits dd.segments) units res x (dd.unit s, i) ∧
        TransGen (Moves (allUnits dd.segments) units res x) (dd.unit s, i) b := by
    intro b path
    induction path with
    | refl =>
      intro t k ht e _ stage
      obtain rfl := unit_injective ht hs₀ (congrArg Prod.fst e)
      rcases stage with stage | ⟨stage, -⟩ <;> rw [wing] at stage <;> cases stage
    | @tail c b before move ih =>
      intro t k ht e first stage
      subst e
      obtain ⟨u, i⟩ := c
      obtain ⟨s, hs, rfl⟩ := mem_segments.mp move.1.1
      obtain ⟨r, take, hr, place, src⟩ := moves_source hs ht move
      rcases source_of_dropped src first stage with ⟨main, rfl⟩ | ⟨losers, -⟩
      · have beaten := h.routing.beaten_of_moves move (slot_of_source hs ht src)
        exact ⟨s, i, hs, main, beaten, .single move⟩
      · obtain ⟨s', i', hs', main, beaten, path⟩ :=
          ih s i hs rfl (fun e => by rw [losers] at e; cases e) (Or.inl losers)
        exact ⟨s', i', hs', main, beaten, path.tail move⟩
  exact all _ path t k ht rfl first stage

theorem beaten_main {s : Spot} (hs : dd.Valid s) (ht : dd.Valid t) (main : s.wing = .W)
    (main' : t.wing = .W) (beaten : Beaten (allUnits dd.segments) units res x (dd.unit s, i))
    (beaten' : Beaten (allUnits dd.segments) units res x (dd.unit t, k)) : s = t := by
  have stays : ∀ {s : Spot} {i}, s.wing = .W → ¬ Dropped s i := by
    rintro s i main (stage | ⟨stage, -⟩) <;> rw [main] at stage <;> cases stage
  rcases h.routing.linear beaten.1 beaten'.1 with path | path
  · rcases path.cases_head with e | ⟨c, move, path⟩
    · exact unit_injective hs ht (congrArg Prod.fst e)
    · exact absurd (after_drop hs ht main beaten move path) (stays main')
  · rcases path.cases_head with e | ⟨c, move, path⟩
    · exact (unit_injective ht hs (congrArg Prod.fst e)).symm
    · exact absurd (after_drop ht hs main' beaten' move path) (stays main)

theorem beaten_losers {s : Spot} (hs : dd.Valid s) (losers : s.wing = .L)
    (beaten : Beaten (allUnits dd.segments) units res x (dd.unit s, i)) {a : Seat}
    (sits : Sits (allUnits dd.segments) units res x a) :
    ReflTransGen (Moves (allUnits dd.segments) units res x) a (dd.unit s, i) := by
  rcases h.routing.linear sits beaten.1 with path | path
  · exact path
  rcases path.cases_head with e | ⟨c, move, -⟩
  · rw [e]
  · exact absurd move (beaten_stays hs losers beaten)

theorem unbeaten {s : Spot} (hs : dd.Valid s) (before : s.wing ≠ .GF)
    (sits : Sits (allUnits dd.segments) units res x (dd.unit Spot.grandFinal, .A)) :
    ¬ Beaten (allUnits dd.segments) units res x (dd.unit s, i) := by
  intro beaten
  have main : ¬ Dropped Spot.grandFinal .A := by
    rintro (stage | ⟨-, stage⟩)
    · cases stage
    · cases stage rfl
  rcases h.routing.linear beaten.1 sits with path | path
  · rcases path.cases_head with e | ⟨c, move, path⟩
    · exact before (unit_injective hs .final (congrArg Prod.fst e) ▸ rfl)
    · by_cases losers : s.wing = .L
      · exact beaten_stays hs losers beaten move
      · have wing : s.wing = .W := by
          cases hw : s.wing with
          | W => rfl
          | L => exact absurd hw losers
          | GF => exact absurd hw before
        exact main (after_drop hs .final wing beaten move path)
  · exact before (final_stays hs path)

end Entered

namespace Contested

variable (h : Contested dd o units res)
include h

theorem goes_on {s : Spot} (hs : dd.Valid s) (before : s.wing ≠ .GF)
    (sits : Sits (allUnits dd.segments) units res x (dd.unit s, i))
    (hr : res (dd.unit s).id = some r) :
    (∃ take, (s.wing = .L → take = .winner) ∧ Moves (allUnits dd.segments) units res x (dd.unit s, i)
      (dd.unit (target dd.j s take).1, (target dd.j s take).2)) ∨
    (s.wing = .L ∧ Beaten (allUnits dd.segments) units res x (dd.unit s, i)) := by
  have early : s ≠ Spot.reset := fun e => before (e ▸ rfl)
  rcases Routing.outcome sits hr (h.decides s hs early r hr) with won | beaten
  · exact Or.inl ⟨.winner, fun _ => rfl,
      h.moves_target hs before sits hr won (fun e => by cases e) (fun _ => rfl)⟩
  · by_cases losers : s.wing = .L
    · exact Or.inr ⟨losers, beaten⟩
    · obtain ⟨-, r', hr', place, -, on⟩ := beaten
      cases hr.symm.trans hr'
      exact Or.inl ⟨.loser, fun e => absurd e losers,
        h.moves_target hs before sits hr place (fun _ => on) (fun e => absurd e losers)⟩

/-! ## The end of the draw -/

theorem reaches (complete : ∀ s, dd.Valid s → s ≠ Spot.reset → (res (dd.unit s).id).isSome)
    {s : Spot} (hs : dd.Valid s) (before : s.wing ≠ .GF)
    (sits : Sits (allUnits dd.segments) units res x (dd.unit s, i)) :
    (∃ k, Sits (allUnits dd.segments) units res x (dd.unit Spot.grandFinal, k)) ∨
      ∃ t k, dd.Valid t ∧ t.wing = .L ∧ Beaten (allUnits dd.segments) units res x (dd.unit t, k) := by
  obtain ⟨n, hn⟩ : ∃ n, n = togo dd.j s := ⟨_, rfl⟩
  induction n using Nat.strong_induction_on generalizing s i with
  | h n ih =>
    have early : s ≠ Spot.reset := fun e => before (e ▸ rfl)
    obtain ⟨r, hr⟩ := Option.isSome_iff_exists.mp (complete s hs early)
    rcases h.goes_on hs before sits hr with ⟨take, losers, move⟩ | ⟨losers, beaten⟩
    · obtain ⟨valid, src, nearer⟩ := source_target h.four hs before losers
      by_cases final : (target dd.j s take).1.wing = .GF
      · have e := grandFinal_of_source valid src before final
        exact Or.inl ⟨_, e ▸ move.2.1⟩
      · exact ih _ (hn ▸ nearer) valid final move.2.1 rfl
    · exact Or.inr ⟨s, i, hs, losers, beaten⟩

theorem occupied (complete : ∀ s, dd.Valid s → s ≠ Spot.reset → (res (dd.unit s).id).isSome)
    {s : Spot} (hs : dd.Valid s) (before : s.wing ≠ .GF)
    (sits : Sits (allUnits dd.segments) units res x (dd.unit s, i)) :
    ∃ y, Sits (allUnits dd.segments) units res y (dd.unit Spot.grandFinal, exitOf s.wing) := by
  obtain ⟨n, hn⟩ : ∃ n, n = togo dd.j s := ⟨_, rfl⟩
  induction n using Nat.strong_induction_on generalizing s i x with
  | h n ih =>
    have early : s ≠ Spot.reset := fun e => before (e ▸ rfl)
    obtain ⟨r, hr⟩ := Option.isSome_iff_exists.mp (complete s hs early)
    obtain ⟨y, k, sitsY, place⟩ := Routing.winner sits hr (h.decides s hs early r hr)
    have move := h.moves_target hs before sitsY hr place (fun e => by cases e) (fun _ => rfl)
    have winners : s.wing = .L → FeederTake.winner = .winner := fun _ => rfl
    obtain ⟨valid, -, nearer⟩ := source_target h.four hs before winners
    rcases target_winner before with same | last
    · obtain ⟨z, hz⟩ := ih _ (hn ▸ nearer) valid (by rw [same]; exact before) move.2.1 rfl
      rw [same] at hz
      exact ⟨z, hz⟩
    · rw [last] at move
      exact ⟨y, move.2.1⟩

/-- **The two finalists.** Of two entrants or more one comes to the grand final unbeaten and one
after a single defeat; everyone else is beaten once in each bracket, the second time at the end. -/
theorem finish (complete : ∀ s, dd.Valid s → s ≠ Spot.reset → (res (dd.unit s).id).isSome)
    (two : 2 ≤ dd.participants.length) :
    ∃ champion challenger,
      Sits (allUnits dd.segments) units res champion (dd.unit Spot.grandFinal, .A) ∧
      Sits (allUnits dd.segments) units res challenger (dd.unit Spot.grandFinal, .B) ∧
      ∀ x ∈ dd.participants.map Participant.id, x ≠ champion → x ≠ challenger →
        (∀ k, ¬ Sits (allUnits dd.segments) units res x (dd.unit Spot.grandFinal, k)) ∧
        ∃ t k, dd.Valid t ∧ t.wing = .L ∧ Beaten (allUnits dd.segments) units res x (dd.unit t, k) := by
  have alone : ∀ {x y k}, Sits (allUnits dd.segments) units res x (dd.unit Spot.grandFinal, k) →
      Sits (allUnits dd.segments) units res y (dd.unit Spot.grandFinal, k) → x = y := by
    intro x y k hx hy
    have := (h.routing.alone hx).1.symm.trans (h.routing.alone hy).1
    exact List.singleton_inj.mp this
  obtain ⟨p, hp⟩ := List.exists_mem_of_length_pos (show 0 < dd.participants.length by omega)
  obtain ⟨s, i, hs, main, sits⟩ := h.enters (List.mem_map_of_mem (f := Participant.id) hp)
  obtain ⟨champion, first⟩ := h.occupied complete hs (by rw [main]; simp) sits
  rw [main] at first
  -- somebody else entered, and is not the champion
  obtain ⟨q, hq, other⟩ : ∃ q ∈ dd.participants.map Participant.id, q ≠ champion := by
    by_contra all
    push Not at all
    have same : dd.participants.map Participant.id =
        List.replicate dd.participants.length champion :=
      List.eq_replicate_iff.mpr ⟨by simp, all⟩
    have distinct := h.routing.distinct
    rw [same, List.nodup_replicate] at distinct
    omega
  have losers : ∀ {x}, x ∈ dd.participants.map Participant.id →
      (∃ k, Sits (allUnits dd.segments) units res x (dd.unit Spot.grandFinal, k)) ∨
        ∃ t k, dd.Valid t ∧ t.wing = .L ∧
          Beaten (allUnits dd.segments) units res x (dd.unit t, k) := by
    intro x hx
    obtain ⟨s, i, hs, main, sits⟩ := h.enters hx
    exact h.reaches complete hs (by rw [main]; simp) sits
  obtain ⟨challenger, second⟩ : ∃ y,
      Sits (allUnits dd.segments) units res y (dd.unit Spot.grandFinal, .B) := by
    rcases losers hq with ⟨k, final⟩ | ⟨t, k, ht, wing, beaten⟩
    · cases k with
      | A => exact absurd (alone final first) other
      | B => exact ⟨q, final⟩
    · have := h.occupied complete ht (by rw [wing]; simp) beaten.1
      rwa [wing] at this
  refine ⟨champion, challenger, first, second, fun x hx ne ne' => ?_⟩
  have out : ∀ k, ¬ Sits (allUnits dd.segments) units res x (dd.unit Spot.grandFinal, k) := by
    intro k final
    cases k with
    | A => exact ne (alone final first)
    | B => exact ne' (alone final second)
  rcases losers hx with ⟨k, final⟩ | beaten
  · exact absurd final (out k)
  · exact ⟨out, beaten⟩

end Contested

theorem conditional_unit {s : Spot} (hs : dd.Valid s) :
    (dd.unit s).metadata.conditional = true ↔ s = Spot.reset := by
  cases hs with
  | winners hr hm =>
    rw [unit, Cascade.unitAt_metadata]
    simp [KnockoutDraw.cascade, segmentCascade, Spot.reset]
  | losers hr hm => simp [unit, losersUnit, Cascade.unit, segmentCascade, Spot.reset]
  | final => simp [unit, grandFinal, Cascade.unit, segmentCascade, Spot.reset]
  | reset on => simp [unit, grandFinalReset, Spot.reset]

end DoubleDraw

open DoubleDraw

/-! ## Whole runs -/

def grandFinalId (eventId : EventId) : PlayUnitId := knockoutUnitId eventId "GF" 0 0

def grandFinalResetId (eventId : EventId) : PlayUnitId := knockoutUnitId eventId "GF" 1 0

/-- The matches that the participant lost before the grand final. -/
def Draw.lossesBefore (d : Draw) (eventId : EventId) (s : TournamentState) (x : ParticipantId) :
    List PlayUnitId :=
  (d.lossesOf s x).filter fun id => id ≠ grandFinalId eventId ∧ id ≠ grandFinalResetId eventId

variable {ds : List Draw} {d : Draw} {s : TournamentState} {participants : List Participant}
  {eventId : EventId} {options : DrawOptions} {x : ParticipantId}

theorem generateDraw_double (h : generateDraw "de" participants eventId options = .ok d) :
    ∃ dd : DoubleDraw, dd.participants = participants ∧ dd.idPrefix = eventId ∧ 1 ≤ dd.j ∧
      d.playUnits.rows = allUnits dd.segments ∧ ∃ seeded, bracketShape participants
        options.seededCount options.bracketSize true = .ok (2 ^ (dd.j + 1), seeded) := by
  obtain ⟨reset, -, h⟩ : ∃ reset, normalizeDeConfig options.config = .ok reset ∧
      generateDoubleElimination participants eventId eventId options.durationSlots
        options.seededCount options.bracketSize reset = .ok d := bind_eq_ok.mp h
  obtain ⟨seeded, j, four, shape, h⟩ := generateDoubleElimination_ok h
  let dd : DoubleDraw :=
    { participants := participants, eventId := eventId, idPrefix := eventId
      durationSlots := options.durationSlots, j := j, reset := reset }
  obtain ⟨d', ha, -, -, rows, -⟩ := (DoubleDraw.layout dd four).assemble_ok
    (show (knockoutEvent eventId "double_elimination" (2 ^ (j + 1)) participants.length seeded).id =
      dd.eventId from rfl) participants
  obtain rfl : d' = d := Except.ok.inj (ha.symm.trans h)
  exact ⟨dd, rfl, rfl, four, rows, seeded, shape⟩

theorem id_ne_final {v : Spot} {idPrefix : String} (before : v.wing ≠ .GF) :
    v.id idPrefix ≠ grandFinalId idPrefix ∧ v.id idPrefix ≠ grandFinalResetId idPrefix :=
  ⟨fun e => before (congrArg Spot.wing (@Spot.id_injective idPrefix v Spot.grandFinal e)),
    fun e => before (congrArg Spot.wing (@Spot.id_injective idPrefix v Spot.reset e))⟩

/-- Two defeats, the second at the end of the path: all the units of `x` come before it. -/
structure TwiceBeaten (d : Draw) (s : TournamentState) (x : ParticipantId) : Prop where
  twice : (d.lossesOf s x).length = 2
  last : ∃ last ∈ d.lossesOf s x, ∀ id ∈ d.ids, x ∈ s.seats id → id = last ∨ d.Precedes id last

section Run

variable {dd : DoubleDraw} (rows : d.playUnits.rows = allUnits dd.segments)
  (h : Contested dd (origin ds) s.playUnits s.result)
include rows h

theorem routing_of_contested :
    Routing dd.participants (origin ds) d.playUnits.rows s.playUnits s.result :=
  rows ▸ h.routing

theorem mem_lossesOf_spot {id : PlayUnitId} : id ∈ d.lossesOf s x ↔ ∃ t k, dd.Valid t ∧
    t.id dd.idPrefix = id ∧ Beaten (allUnits dd.segments) s.playUnits s.result x (dd.unit t, k) := by
  rw [(routing_of_contested rows h).mem_lossesOf, rows]
  constructor
  · rintro ⟨u, hu, rfl, k, beaten⟩
    obtain ⟨t, ht, rfl⟩ := mem_segments.mp hu
    exact ⟨t, k, ht, (unit_id t ht).symm, beaten⟩
  · rintro ⟨t, k, ht, rfl, beaten⟩
    exact ⟨dd.unit t, mem_segments.mpr ⟨t, ht, rfl⟩, unit_id t ht, k, beaten⟩

omit rows in
theorem sits_reset (ht : dd.Valid Spot.reset)
    (sits : Sits (allUnits dd.segments) s.playUnits s.result x (dd.unit Spot.reset, k)) :
    ∃ l, Sits (allUnits dd.segments) s.playUnits s.result x (dd.unit Spot.grandFinal, l) := by
  obtain ⟨-, s₀, i₀, hs₀, main, path⟩ := h.path sits
  rcases path.cases_tail with e | ⟨⟨v, l⟩, -, move⟩
  · -- nobody enters in the reset
    rw [← unit_injective ht hs₀ (congrArg Prod.fst e)] at main
    cases main
  · obtain ⟨w, hw, rfl⟩ := mem_segments.mp move.1.1
    obtain ⟨r, take, -, -, src⟩ := moves_source hw ht move
    cases k with
    | A =>
      cases src
      exact ⟨l, move.1⟩
    | B =>
      cases src
      exact ⟨l, move.1⟩

theorem twiceBeaten (out : ∀ k, ¬ Sits (allUnits dd.segments) s.playUnits s.result x
      (dd.unit Spot.grandFinal, k)) (ht : dd.Valid t) (wing : t.wing = .L)
    (beaten : Beaten (allUnits dd.segments) s.playUnits s.result x (dd.unit t, k)) :
    TwiceBeaten d s x ∧ (d.lossesBefore dd.idPrefix s x).length = 2 := by
  obtain ⟨w, i, hw, main, beaten', before⟩ :=
    h.dropped ht (fun e => by rw [wing] at e; cases e) (Or.inl wing) beaten.1
  have members : ∀ id, id ∈ d.lossesOf s x ↔ id ∈ [w.id dd.idPrefix, t.id dd.idPrefix] := by
    intro id
    rw [mem_lossesOf_spot rows h, List.mem_pair]
    constructor
    · rintro ⟨v, l, hv, rfl, lost⟩
      cases hwing : v.wing with
      | W => exact Or.inl (by rw [h.beaten_main hv hw hwing main lost beaten'])
      | L =>
        have path := h.beaten_losers ht wing beaten lost.1
        rcases path.cases_head with e | ⟨c, move, -⟩
        · exact Or.inr (by rw [unit_injective hv ht (congrArg Prod.fst e)])
        · exact absurd move (beaten_stays hv hwing lost)
      | GF =>
        exfalso
        cases hv with
        | winners => cases hwing
        | losers => cases hwing
        | final => exact out l lost.1
        | reset on =>
          obtain ⟨l', final⟩ := sits_reset h (.reset on) lost.1
          exact out l' final
    · rintro (rfl | rfl)
      · exact ⟨w, i, hw, rfl, beaten'⟩
      · exact ⟨t, k, ht, rfl, beaten⟩
  have distinct : w.id dd.idPrefix ≠ t.id dd.idPrefix := by
    intro e
    have := congrArg Spot.wing (Spot.id_injective e)
    rw [main, wing] at this
    cases this
  have perm : (d.lossesOf s x).Perm [w.id dd.idPrefix, t.id dd.idPrefix] :=
    (List.perm_ext_iff_of_nodup (d.playUnits.unique.filter _) (by simpa using distinct)).mpr members
  refine ⟨⟨by simpa using perm.length_eq, t.id dd.idPrefix, (members _).mpr (by simp), ?_⟩, ?_⟩
  · intro id hid seated
    obtain ⟨u, hu, rfl⟩ := List.mem_map.mp hid
    have routing := routing_of_contested rows h
    obtain ⟨l, sits⟩ := (routing.mem_seats hu).mp seated
    rw [rows] at sits
    have path := h.beaten_losers ht wing beaten sits
    rcases Relation.reflTransGen_iff_eq_or_transGen.mp path with e | path
    · have e := congrArg (fun a : Seat => a.1.id) e
      exact Or.inl (e.symm.trans (unit_id t ht))
    · rw [← rows] at path
      exact Or.inr (unit_id t ht ▸ routing.precedes path)
  · have kept : d.lossesBefore dd.idPrefix s x = d.lossesOf s x := by
      refine List.filter_eq_self.mpr fun id hid => ?_
      rw [decide_eq_true_eq]
      rcases List.mem_pair.mp ((members id).mp hid) with rfl | rfl
      · exact id_ne_final (by rw [main]; simp)
      · exact id_ne_final (by rw [wing]; simp)
    rw [kept]
    simpa using perm.length_eq

theorem mem_lossesBefore {id : PlayUnitId} : id ∈ d.lossesBefore dd.idPrefix s x ↔
    ∃ t k, dd.Valid t ∧ t.wing ≠ .GF ∧ t.id dd.idPrefix = id ∧
      Beaten (allUnits dd.segments) s.playUnits s.result x (dd.unit t, k) := by
  rw [Draw.lossesBefore, List.mem_filter, decide_eq_true_eq, mem_lossesOf_spot rows h]
  constructor
  · rintro ⟨⟨t, k, ht, rfl, beaten⟩, first, second⟩
    refine ⟨t, k, ht, ?_, rfl, beaten⟩
    cases ht with
    | winners => simp
    | losers => simp
    | final => exact absurd rfl first
    | reset => exact absurd rfl second
  · rintro ⟨t, k, ht, before, rfl, beaten⟩
    exact ⟨⟨t, k, ht, rfl, beaten⟩, id_ne_final before⟩

theorem lossesBefore_champion
    (sits : Sits (allUnits dd.segments) s.playUnits s.result x (dd.unit Spot.grandFinal, .A)) :
    d.lossesBefore dd.idPrefix s x = [] := by
  rw [List.eq_nil_iff_forall_not_mem]
  intro id hid
  obtain ⟨t, k, ht, before, -, beaten⟩ := (mem_lossesBefore rows h).mp hid
  exact h.unbeaten ht before sits beaten

theorem lossesBefore_challenger
    (sits : Sits (allUnits dd.segments) s.playUnits s.result x (dd.unit Spot.grandFinal, .B)) :
    (d.lossesBefore dd.idPrefix s x).length = 1 := by
  obtain ⟨w, i, hw, main, beaten, -⟩ :=
    h.dropped .final (fun _ => rfl) (Or.inr ⟨rfl, fun _ => rfl⟩) sits
  have members : ∀ id, id ∈ d.lossesBefore dd.idPrefix s x ↔ id ∈ [w.id dd.idPrefix] := by
    intro id
    rw [mem_lossesBefore rows h, List.mem_singleton]
    constructor
    · rintro ⟨v, l, hv, before, rfl, lost⟩
      cases hwing : v.wing with
      | W => rw [h.beaten_main hv hw hwing main lost beaten]
      | L =>
        -- a defeat in the losers bracket would have kept him out of the grand final
        have final := final_stays hv (h.beaten_losers hv hwing lost sits)
        exact absurd final before
      | GF => exact absurd hwing before
    · rintro rfl
      exact ⟨w, i, hw, by rw [main]; simp, rfl, beaten⟩
  have perm : (d.lossesBefore dd.idPrefix s x).Perm [w.id dd.idPrefix] :=
    (List.perm_ext_iff_of_nodup ((d.playUnits.unique.filter _).filter _) (by simp)).mpr members
  exact perm.length_eq

omit rows in
theorem playedAt_iff (ht : dd.Valid t) (first : t ≠ Spot.reset) :
    s.PlayedAt (t.id dd.idPrefix) ↔ (s.sent .loser (t.id dd.idPrefix)).isSome := by
  rw [← unit_id t ht]
  exact h.routing.playedAt_iff (mem_segments.mpr ⟨t, ht, rfl⟩) (h.decides t ht first)

theorem length_played (complete : ∀ t, dd.Valid t → t ≠ Spot.reset →
      (s.result (dd.unit t).id).isSome) {champion challenger : ParticipantId}
    (first : Sits (allUnits dd.segments) s.playUnits s.result champion (dd.unit Spot.grandFinal, .A))
    (second : Sits (allUnits dd.segments) s.playUnits s.result challenger
      (dd.unit Spot.grandFinal, .B)) (ne : champion ≠ challenger)
    (others : ∀ x ∈ dd.participants.map Participant.id, x ≠ champion → x ≠ challenger →
      (d.lossesBefore dd.idPrefix s x).length = 2) :
    (d.ids.filter fun id => id ≠ grandFinalResetId dd.idPrefix ∧ s.PlayedAt id).length =
      2 * dd.participants.length - 2 := by
  have nodup := h.routing.distinct
  have hc := (h.path first).1
  have hc' := (h.path second).1
  -- everyone but the finalists, twice, and the challenger
  obtain ⟨rest, hrest⟩ : ∃ l, l =
    ((dd.participants.map Participant.id).erase champion).erase challenger := ⟨_, rfl⟩
  obtain ⟨before, hbefore⟩ : ∃ l, l = d.ids.filter fun id =>
    id ≠ grandFinalId dd.idPrefix ∧ id ≠ grandFinalResetId dd.idPrefix := ⟨_, rfl⟩
  have kept : challenger ∈ (dd.participants.map Participant.id).erase champion :=
    nodup.mem_erase_iff.mpr ⟨ne.symm, hc'⟩
  have nodup' : rest.Nodup := hrest ▸ (nodup.erase _).erase _
  have lengths : rest.length = dd.participants.length - 2 := by
    rw [hrest, List.length_erase_of_mem kept, List.length_erase_of_mem hc, List.length_map]
    omega
  have losses : ∀ x, before.countP (fun id => s.sent .loser id = some x) =
      (d.lossesBefore dd.idPrefix s x).length := by
    intro x
    rw [List.countP_eq_length_filter, Draw.lossesBefore, Draw.lossesOf, hbefore, List.filter_comm]
  have each : ∀ x, before.countP (fun id => s.sent .loser id = some x) =
      (challenger :: (rest ++ rest)).count x := by
    intro x
    rw [losses, List.count_cons, List.count_append, nodup'.count]
    have member : x ∈ rest ↔ x ≠ challenger ∧ x ≠ champion ∧
        x ∈ dd.participants.map Participant.id := by
      rw [hrest, (nodup.erase _).mem_erase_iff, nodup.mem_erase_iff]
    by_cases isChampion : x = champion
    · subst isChampion
      rw [lossesBefore_champion rows h first, if_neg (fun hx => (member.mp hx).2.1 rfl)]
      simp [ne.symm]
    by_cases isChallenger : x = challenger
    · subst isChallenger
      rw [lossesBefore_challenger rows h second, if_neg (fun hx => (member.mp hx).1 rfl)]
      simp
    by_cases listed : x ∈ dd.participants.map Participant.id
    · rw [others x listed isChampion isChallenger,
        if_pos (member.mpr ⟨isChallenger, isChampion, listed⟩)]
      simp [Ne.symm isChallenger]
    · have never : d.lossesBefore dd.idPrefix s x = [] := by
        rw [List.eq_nil_iff_forall_not_mem]
        intro id hid
        obtain ⟨t, k, -, -, -, lost⟩ := (mem_lossesBefore rows h).mp hid
        exact listed (h.path lost.1).1
      rw [never, if_neg (fun hx => listed (member.mp hx).2.2)]
      simp [Ne.symm isChallenger]
  have total := countP_isSome_eq each
  -- the grand final itself is played
  have final : s.PlayedAt (grandFinalId dd.idPrefix) := by
    have other : Spot.grandFinal ≠ Spot.reset := by decide
    obtain ⟨r, hr⟩ := Option.isSome_iff_exists.mp (complete Spot.grandFinal .final other)
    refine ⟨r, hr, ?_⟩
    rcases h.decides Spot.grandFinal .final other r hr with ⟨side, due, -⟩ | ⟨-, played⟩
    · have both := walkoverSide_eq_none_iff.mpr
        ⟨List.ne_nil_of_mem first.2, List.ne_nil_of_mem second.2⟩
      rw [both] at due
      cases due
    · exact played
  have ids : ∀ {id}, id ∈ d.ids ↔ ∃ t, dd.Valid t ∧ t.id dd.idPrefix = id := by
    intro id
    rw [Draw.ids, rows, List.mem_map]
    constructor
    · rintro ⟨u, hu, rfl⟩
      obtain ⟨t, ht, rfl⟩ := mem_segments.mp hu
      exact ⟨t, ht, (unit_id t ht).symm⟩
    · rintro ⟨t, ht, rfl⟩
      exact ⟨dd.unit t, mem_segments.mpr ⟨t, ht, rfl⟩, unit_id t ht⟩
  have split : (d.ids.filter fun id => id ≠ grandFinalResetId dd.idPrefix ∧ s.PlayedAt id).Perm
      (grandFinalId dd.idPrefix :: before.filter fun id => (s.sent .loser id).isSome) := by
    refine (List.perm_ext_iff_of_nodup (d.playUnits.unique.filter _) ?_).mpr fun id => ?_
    · rw [List.nodup_cons]
      refine ⟨fun hmem => ?_, (hbefore ▸ d.playUnits.unique.filter _).filter _⟩
      have := (List.mem_filter.mp hmem).1
      simp [hbefore] at this
    · have ne_reset : grandFinalId dd.idPrefix ≠ grandFinalResetId dd.idPrefix := by
        intro e
        cases (@Spot.id_injective dd.idPrefix Spot.grandFinal Spot.reset e)
      simp only [List.mem_filter, List.mem_cons, hbefore, decide_eq_true_eq]
      constructor
      · rintro ⟨hid, notReset, played⟩
        by_cases e : id = grandFinalId dd.idPrefix
        · exact Or.inl e
        · obtain ⟨t, ht, rfl⟩ := ids.mp hid
          refine Or.inr ⟨⟨hid, e, notReset⟩, (playedAt_iff h ht ?_).mp played⟩
          rintro rfl
          exact notReset rfl
      · rintro (rfl | ⟨⟨hid, -, notReset⟩, sends⟩)
        · exact ⟨ids.mpr ⟨Spot.grandFinal, .final, rfl⟩, ne_reset, final⟩
        · obtain ⟨t, ht, rfl⟩ := ids.mp hid
          refine ⟨hid, notReset, (playedAt_iff h ht ?_).mpr sends⟩
          rintro rfl
          exact notReset rfl
  rw [split.length_eq, List.length_cons, ← List.countP_eq_length_filter, total, List.length_cons,
    List.length_append, lengths]
  have two : 2 ≤ dd.participants.length := by
    have := List.length_pos_of_mem kept
    rw [List.length_erase_of_mem hc, List.length_map] at this
    omega
  omega

end Run

/-- **Every entrant but two is beaten twice.** In a double elimination of any size that is played to
its end, no match but the reset decided by walkover between two present sides, retirement or
forfeit: one finalist comes to the grand final unbeaten, the other after one defeat; every other
entrant loses two matches and appears in none after the second; and for `n` entrants `2 * n - 2`
matches are played besides the reset. -/
theorem doubleElimination_defeats (h : generateDraw "de" participants eventId options = .ok d)
    (distinct : (participants.map Participant.id).Nodup)
    (named : ∀ p ∈ participants, p.id ≠ BYE ∧ p.id ≠ "") (hd : d ∈ ds)
    (all : ∀ d ∈ ds, IsGenerated d) (reached : PlayedReached ds d s) (completed : d.Completed s) :
    ∃ champion challenger, s.seats (grandFinalId eventId) = [champion, challenger] ∧
      champion ≠ challenger ∧ d.lossesBefore eventId s champion = [] ∧
      (d.lossesBefore eventId s challenger).length = 1 ∧
      (∀ p ∈ participants, p.id ≠ champion → p.id ≠ challenger → TwiceBeaten d s p.id) ∧
      (d.ids.filter fun id => id ≠ grandFinalResetId eventId ∧ s.PlayedAt id).length =
        2 * participants.length - 2 := by
  obtain ⟨dd, rfl, rfl, four, rows, seeded, shape⟩ := generateDraw_double h
  obtain ⟨-, -, fits, two⟩ := bracketShape_ok shape
  have generated := generateDraw_ok h
  have session := reached.session (fun d hd => (all d hd).drawn)
  have routing := session.routing hd generated.drawn.1 (generated.routed (by decide)) distinct
  have contested : Contested dd (origin ds) s.playUnits s.result := by
    refine ⟨⟨four, named, fits, rows ▸ routing⟩, fun t ht first r hr => ?_⟩
    refine session.decides hd (rows ▸ mem_segments.mpr ⟨t, ht, rfl⟩) ?_ hr
    rw [← Bool.not_eq_true, conditional_unit ht]
    exact first
  have complete : ∀ t, dd.Valid t → t ≠ Spot.reset → (s.result (dd.unit t).id).isSome := by
    intro t ht first
    refine completed (dd.unit t) (rows ▸ mem_segments.mpr ⟨t, ht, rfl⟩) ?_
    rw [← Bool.not_eq_true, conditional_unit ht]
    exact first
  obtain ⟨champion, challenger, first, second, others⟩ := contested.finish complete two
  have one := lossesBefore_challenger rows contested second
  have none := lossesBefore_champion rows contested first
  have ne : champion ≠ challenger := by
    rintro rfl
    rw [none] at one
    cases one
  have twice : ∀ x ∈ dd.participants.map Participant.id, x ≠ champion → x ≠ challenger →
      TwiceBeaten d s x ∧ (d.lossesBefore dd.idPrefix s x).length = 2 := by
    intro x hx notChampion notChallenger
    obtain ⟨out, t, k, ht, wing, beaten⟩ := others x hx notChampion notChallenger
    exact twiceBeaten rows contested out ht wing beaten
  refine ⟨champion, challenger, ?_, ne, none, one,
    fun p hp notChampion notChallenger =>
      (twice p.id (List.mem_map_of_mem hp) notChampion notChallenger).1,
    length_played rows contested complete first second ne
      fun x hx notChampion notChallenger => (twice x hx notChampion notChallenger).2⟩
  have stored := contested.routing.consistent.get (contested.routing.sub _ first.1)
  have seats : s.seats (grandFinalId dd.idPrefix) =
      sideAt s.playUnits s.result (dd.unit Spot.grandFinal) .A ++
        sideAt s.playUnits s.result (dd.unit Spot.grandFinal) .B := by
    rw [TournamentState.seats, show grandFinalId dd.idPrefix = (dd.unit Spot.grandFinal).id from rfl,
      stored]
    rfl
  rw [seats, (contested.routing.alone first).1, (contested.routing.alone second).1]
  rfl

def doubleQuartet : Draw :=
  match generateDraw "de" quartet "MS" {} with
  | .ok d => d
  | .error _ => plainDraw { id := "MS" } [] []

theorem doubleQuartet_eq : generateDraw "de" quartet "MS" {} = .ok doubleQuartet := rfl

theorem doubleElimination_defeats_quartet : ∃ s champion challenger,
    PlayedReached [doubleQuartet] doubleQuartet s ∧ doubleQuartet.Completed s ∧
      s.seats (grandFinalId "MS") = [champion, challenger] ∧
      (doubleQuartet.ids.filter fun id => id ≠ grandFinalResetId "MS" ∧ s.PlayedAt id).length = 6 := by
  have generated : ∀ d ∈ [doubleQuartet], IsGenerated d := by
    intro d hd
    rw [List.mem_singleton.mp hd]
    exact ⟨_, _, _, _, doubleQuartet_eq⟩
  obtain ⟨s₀, h₀⟩ := exists_ok_of_toOption
    (show (registerDraws [doubleQuartet]).toOption.isSome by decide)
  have member := List.mem_singleton_self doubleQuartet
  have start : PlayedReached [doubleQuartet] doubleQuartet s₀ := .init h₀
  obtain ⟨s, reached, completed⟩ := start.completes (fun d hd => (generated d hd).drawn) member
    (fun _ => { winnerSide := .A }) fun _ => by decide
  obtain ⟨champion, challenger, seats, -, -, -, -, played⟩ :=
    doubleElimination_defeats doubleQuartet_eq (by decide) (by decide) member generated reached
      completed
  exact ⟨s, champion, challenger, reached, completed, seats, played⟩

end Brackets
