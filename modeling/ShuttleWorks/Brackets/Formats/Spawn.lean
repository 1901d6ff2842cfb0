import ShuttleWorks.Brackets.Formats.Seeding
import ShuttleWorks.Brackets.Formats.Segments

/-! Draws made of knockouts alone: the first over the entrants, every other over
the losers of one round of an earlier one. Such a plan lays out a draw when no
round is spawned from twice. -/

namespace Brackets
open Lib

/-- One planned knockout: its size `2 ^ (k + 1)`, and the round its entries lost in. -/
structure PlannedKnockout where
  segId : String
  positions : Option (Nat × Nat) := none
  k : Nat
  source : Option (String × Nat) := none
  deriving DecidableEq, Repr

/-- What all knockouts of a draw share. -/
structure KnockoutDraw where
  formatId : String
  idPrefix : String
  eventId : EventId
  durationSlots : Nat
  entrants : List BracketSlot

namespace KnockoutDraw

def losers (idPrefix segId : String) (r n : Nat) : List BracketSlot :=
  (List.range n).map fun m => .feeder (knockoutUnitId idPrefix segId r m) .loser

def entrySlots (kd : KnockoutDraw) (p : PlannedKnockout) : List BracketSlot :=
  match p.source with
  | none => kd.entrants
  | some (segId, r) => losers kd.idPrefix segId r (2 ^ (p.k + 1))

def cascade (kd : KnockoutDraw) (p : PlannedKnockout) (order : Nat) : Cascade :=
  segmentCascade kd.eventId kd.idPrefix p.segId order kd.durationSlots p.positions

/-- The segment this knockout becomes as number `order` of the draw. -/
def built (kd : KnockoutDraw) (order : Nat) (p : PlannedKnockout) : BuiltSegment :=
  builtSegment kd.formatId p.segId order p.positions
    ((kd.cascade p order).rounds (kd.entrySlots p))

end KnockoutDraw

/-- A plan of which one knockout holds the entrants and the others are spawned, each by a round of
an earlier one that no other is spawned by. -/
structure SpawnPlan (kd : KnockoutDraw) (plan : List PlannedKnockout) : Prop where
  nonempty : plan ≠ []
  entrants : ∀ s ∈ kd.entrants, ∃ p, s = .participant p
  root : ∀ (i : Nat) p, plan[i]? = some p → p.source = none →
    kd.entrants.length = 2 ^ (p.k + 1)
  spawned : ∀ (i : Nat) p, plan[i]? = some p → ∀ segId r, p.source = some (segId, r) →
    ∃ j < i, ∃ q, plan[j]? = some q ∧ q.segId = segId ∧ q.k = p.k + 1 + r
  once : ∀ p ∈ plan, ∀ q ∈ plan, p.source = q.source → p.segId = q.segId
  ids : (plan.map PlannedKnockout.segId).Nodup
  dashFree : ∀ p ∈ plan, DashFree p.segId
  positions : ∀ p ∈ plan, segmentPositions p.segId p.positions = p.positions

variable {kd : KnockoutDraw} {plan : List PlannedKnockout}

theorem entrantSlots_participants (participants : List Participant) (size : Nat) :
    ∀ s ∈ entrantSlots participants size, ∃ p, s = .participant p := by
  intro s hs
  obtain ⟨p, -, rfl⟩ := List.mem_map.mp hs
  exact ⟨p.id, rfl⟩

namespace SpawnPlan

variable {k : Nat} {p : PlannedKnockout} {r m : Nat} {u : PlayUnit} {c : Cascade}

theorem single {segId : String} (entrants : ∀ s ∈ kd.entrants, ∃ p, s = .participant p)
    (length : kd.entrants.length = 2 ^ (k + 1)) (dash : DashFree segId)
    (named : positionsOfId segId = none) : SpawnPlan kd [{ segId := segId, k := k }] where
  nonempty := by simp
  entrants := entrants
  root := by
    intro i p hi _
    rw [List.mem_singleton.mp (List.mem_of_getElem? hi)]
    exact length
  spawned := by
    intro i p hi segId r hs
    rw [List.mem_singleton.mp (List.mem_of_getElem? hi)] at hs
    cases hs
  once := by
    intro p hp q hq _
    rw [List.mem_singleton.mp hp, List.mem_singleton.mp hq]
  ids := by simp
  dashFree := by
    intro p hp
    rw [List.mem_singleton.mp hp]
    exact dash
  positions := by
    intro p hp
    rw [List.mem_singleton.mp hp]
    exact named

theorem length_entrySlots (h : SpawnPlan kd plan) (hp : p ∈ plan) :
    (kd.entrySlots p).length = 2 ^ (p.k + 1) := by
  obtain ⟨i, hi⟩ := List.getElem?_of_mem hp
  unfold KnockoutDraw.entrySlots
  cases hs : p.source with
  | none => exact h.root i p hi hs
  | some src => simp [KnockoutDraw.losers]

def entry (kd : KnockoutDraw) (p : PlannedKnockout) (i : Nat) : BracketSlot :=
  (kd.entrySlots p).getD i (.participant BYE)

theorem entry_root (h : SpawnPlan kd plan) (hs : p.source = none) (i : Nat) :
    ∃ q, entry kd p i = .participant q := by
  unfold entry KnockoutDraw.entrySlots
  rw [hs]
  dsimp only
  rw [List.getD_eq_getElem?_getD]
  cases hi : kd.entrants[i]? with
  | none => exact ⟨BYE, rfl⟩
  | some s => exact h.entrants s (List.mem_of_getElem? hi)

theorem entry_spawned {p : PlannedKnockout} {segId : String} {r : Nat}
    (hs : p.source = some (segId, r)) {i : Nat} (hi : i < 2 ^ (p.k + 1)) :
    entry kd p i = .feeder (knockoutUnitId kd.idPrefix segId r i) .loser := by
  unfold entry KnockoutDraw.entrySlots
  rw [hs]
  simp [KnockoutDraw.losers, hi]

theorem at_built (h : SpawnPlan kd plan) (hp : p ∈ plan) {order : Nat} :
    At (kd.built order p).units r m u ↔
      r < p.k + 1 ∧ m < 2 ^ (p.k - r) ∧ (kd.cascade p order).unitAt (entry kd p) r m = u := by
  show At ((kd.cascade p order).rounds (kd.entrySlots p)) r m u ↔ _
  rw [Cascade.rounds_eq _ (h.length_entrySlots hp) (.participant BYE), at_table]
  rfl

theorem regular (h : SpawnPlan kd plan) (hp : p ∈ plan) (order : Nat) :
    (kd.built order p).Regular kd.formatId kd.idPrefix kd.eventId order where
  dashFree := h.dashFree p hp
  index := rfl
  label := rfl
  positions := h.positions p hp
  rounds := rfl
  nonempty := by
    show (kd.cascade p order).rounds (kd.entrySlots p) ≠ [] ∧
      ∀ round ∈ (kd.cascade p order).rounds (kd.entrySlots p), round ≠ []
    rw [Cascade.rounds_eq _ (h.length_entrySlots hp) (.participant BYE)]
    refine ⟨by simp, fun round hr => ?_⟩
    obtain ⟨r, -, rfl⟩ := List.mem_map.mp hr
    have : 0 < 2 ^ (p.k - r) := Nat.two_pow_pos _
    simp only [ne_eq, List.map_eq_nil_iff, List.range_eq_nil]
    omega
  id := by
    intro r m u hu
    obtain ⟨-, -, rfl⟩ := (h.at_built hp).mp hu
    exact Cascade.unitAt_id _ _ _ _
  event := by
    intro r m u hu
    obtain ⟨-, -, rfl⟩ := (h.at_built hp).mp hu
    exact Cascade.unitAt_eventId _ _ _ _
  metadata := by
    intro r m u hu
    obtain ⟨-, -, rfl⟩ := (h.at_built hp).mp hu
    rw [Cascade.unitAt_metadata]
    exact ⟨rfl, rfl, rfl, rfl, rfl⟩

/-- Entry slots `2m` and `2m + 1` of a planned knockout are entries. -/
theorem entry_bound (hm : m < 2 ^ (p.k - 0)) :
    2 * m < 2 ^ (p.k + 1) ∧ 2 * m + 1 < 2 ^ (p.k + 1) := by
  rw [Nat.pow_succ, Nat.sub_zero] at *
  omega

theorem next_bound (hr : r + 1 < k + 1) (hm : m < 2 ^ (k - (r + 1))) :
    2 * m < 2 ^ (k - r) ∧ 2 * m + 1 < 2 ^ (k - r) := by
  have : k - r = k - (r + 1) + 1 := by omega
  rw [this, Nat.pow_succ]
  omega

theorem slot_unitAt {entry : Nat → BracketSlot} (i : PlayUnit.Place) :
    (c.unitAt entry r m).slot i =
      match r with
      | 0 => entry (2 * m + (if i = .A then 0 else 1))
      | r + 1 => .feeder (c.unitId r (2 * m + (if i = .A then 0 else 1))) .winner := by
  cases r <;> cases i <;> rfl

theorem dependsOnFeeders (h : SpawnPlan kd plan) {order : Nat} (hr : r < p.k + 1)
    (hm : m < 2 ^ (p.k - r)) :
    let u := (kd.cascade p order).unitAt (entry kd p) r m
    (u.Concrete ∨ u.Waiting) ∧ u.DependsOnFeeders := by
  cases r with
  | zero =>
    obtain ⟨hA, hB⟩ := entry_bound hm
    cases hs : p.source with
    | none =>
      obtain ⟨a, ha⟩ := h.entry_root hs (2 * m)
      obtain ⟨b, hb⟩ := h.entry_root hs (2 * m + 1)
      have concrete : ((kd.cascade p order).unitAt (entry kd p) 0 m).Concrete := by
        simp only [Cascade.unitAt, ha, hb]
        exact ⟨rfl, ⟨a, rfl⟩, b, rfl⟩
      exact ⟨Or.inl concrete, dependsOnFeeders_of_concrete concrete⟩
    | some src =>
      obtain ⟨segId, r⟩ := src
      have ha := @entry_spawned kd _ _ _ hs _ hA
      have hb := @entry_spawned kd _ _ _ hs _ hB
      have feeders : ((kd.cascade p order).unitAt (entry kd p) 0 m).DependsOnFeeders :=
        fun x => mem_feedersOf
      refine ⟨Or.inr (waiting_of_feeders ?_ ?_ ha hb feeders), feeders⟩
      · simp [Cascade.unitAt, Cascade.unit, ha, sideOf]
      · simp [Cascade.unitAt, Cascade.unit, hb, sideOf]
  | succ r =>
    have feeders : ((kd.cascade p order).unitAt (entry kd p) (r + 1) m).DependsOnFeeders := by
      intro x
      simp [Cascade.unitAt, Cascade.unit, eq_comm]
    exact ⟨Or.inr (waiting_of_feeders rfl rfl rfl rfl feeders), feeders⟩

theorem mem_units (h : SpawnPlan kd plan) :
    u ∈ allUnits (plan.mapIdx kd.built) ↔ ∃ (i : Nat) (p : PlannedKnockout) (r m : Nat),
      plan[i]? = some p ∧ r < p.k + 1 ∧ m < 2 ^ (p.k - r) ∧
        (kd.cascade p i).unitAt (entry kd p) r m = u := by
  rw [mem_allUnits]
  constructor
  · rintro ⟨i, b, r, m, hi, hu⟩
    rw [List.getElem?_mapIdx, Option.map_eq_some_iff] at hi
    obtain ⟨p, hp, rfl⟩ := hi
    exact ⟨i, p, r, m, hp, (h.at_built (List.mem_of_getElem? hp)).mp hu⟩
  · rintro ⟨i, p, r, m, hp, hu⟩
    refine ⟨i, _, r, m, ?_, (h.at_built (List.mem_of_getElem? hp)).mpr hu⟩
    rw [List.getElem?_mapIdx, hp]
    rfl

theorem eq_of_segId (h : SpawnPlan kd plan) {i j : Nat} {q : PlannedKnockout}
    (hp : plan[i]? = some p) (hq : plan[j]? = some q) (e : p.segId = q.segId) : i = j ∧ p = q := by
  have hi : (plan.map PlannedKnockout.segId)[i]? = some p.segId := by simp [hp]
  have hj : (plan.map PlannedKnockout.segId)[j]? = some p.segId := by simp [hq, e]
  have ij : i = j := by
    have lt : i < (plan.map PlannedKnockout.segId).length := (List.getElem?_eq_some_iff.mp hi).1
    exact (List.getElem?_inj lt h.ids).mp (hi.trans hj.symm)
  subst ij
  rw [hp] at hq
  exact ⟨rfl, Option.some.inj hq⟩

theorem place_inj {m' : Nat} {i j : PlayUnit.Place}
    (e : 2 * m + (if i = .A then 0 else 1) = 2 * m' + (if j = .A then 0 else 1)) :
    m = m' ∧ i = j := by
  cases i <;> cases j <;> simp only [reduceCtorEq, ↓reduceIte, and_true, and_false] at e ⊢ <;>
    omega

theorem fedOnce (h : SpawnPlan kd plan) : FedOnce (allUnits (plan.mapIdx kd.built)) := by
  intro u hu v hv i j id take hi hj
  obtain ⟨a, p, r, m, hp, hr, hm, rfl⟩ := h.mem_units.mp hu
  obtain ⟨b, q, r', m', hq, hr', hm', rfl⟩ := h.mem_units.mp hv
  have dp := h.dashFree p (List.mem_of_getElem? hp)
  have dq := h.dashFree q (List.mem_of_getElem? hq)
  rw [slot_unitAt] at hi hj
  have bound : ∀ {k m} (i : PlayUnit.Place), m < 2 ^ (k - 0) →
      2 * m + (if i = .A then 0 else 1) < 2 ^ (k + 1) := by
    intro k m i hm
    rw [Nat.sub_zero] at hm
    rw [Nat.pow_succ]
    split <;> omega
  -- the losers of a round enter one knockout
  have spawn : ∀ {p : PlannedKnockout} {m : Nat} {i : PlayUnit.Place}, m < 2 ^ (p.k - 0) →
      entry kd p (2 * m + (if i = .A then 0 else 1)) = .feeder id take →
      ∃ segId r, p.source = some (segId, r) ∧ take = .loser ∧
        id = knockoutUnitId kd.idPrefix segId r (2 * m + (if i = .A then 0 else 1)) := by
    intro p m i hm e
    cases hs : p.source with
    | none =>
      obtain ⟨x, hx⟩ := h.entry_root hs (2 * m + (if i = .A then 0 else 1))
      rw [hx] at e
      cases e
    | some src =>
      obtain ⟨segId, r⟩ := src
      rw [entry_spawned hs (bound i hm)] at e
      cases e
      exact ⟨segId, r, rfl, rfl, rfl⟩
  cases r with
  | zero =>
    obtain ⟨s, t, hs, ht, rfl⟩ := spawn hm hi
    cases r' with
    | zero =>
      obtain ⟨s', t', hs', -, e⟩ := spawn hm' hj
      obtain ⟨k, hk, w, hw, rfl, -⟩ := h.spawned a p hp s t hs
      obtain ⟨k', hk', w', hw', rfl, -⟩ := h.spawned b q hq s' t' hs'
      obtain ⟨hseg, hround, hmatch⟩ := knockoutUnitId_inj
        (h.dashFree w (List.mem_of_getElem? hw)) (h.dashFree w' (List.mem_of_getElem? hw')) e
      have same := h.once p (List.mem_of_getElem? hp) q (List.mem_of_getElem? hq)
        (by rw [hs, hs', hseg, hround])
      obtain ⟨rfl, rfl⟩ := h.eq_of_segId hp hq same
      obtain ⟨rfl, rfl⟩ := place_inj hmatch
      exact ⟨rfl, rfl⟩
    | succ r' =>
      have := (BracketSlot.feeder.inj hj).2
      rw [ht] at this
      cases this
  | succ r =>
    cases r' with
    | zero =>
      obtain ⟨s', t', -, ht, -⟩ := spawn hm' hj
      have := (BracketSlot.feeder.inj hi).2
      rw [ht] at this
      cases this
    | succ r' =>
      have e := (BracketSlot.feeder.inj hi).1.trans (BracketSlot.feeder.inj hj).1.symm
      obtain ⟨hseg, rfl, hmatch⟩ := knockoutUnitId_inj dp dq e
      obtain ⟨rfl, rfl⟩ := h.eq_of_segId hp hq hseg
      obtain ⟨rfl, rfl⟩ := place_inj hmatch
      exact ⟨rfl, rfl⟩

theorem side_unitAt {entry : Nat → BracketSlot} (i : PlayUnit.Place) :
    (c.unitAt entry r m).side i = sideOf ((c.unitAt entry r m).slot i) := by
  cases r <;> cases i <;> rfl

theorem entersOnce (h : SpawnPlan kd plan)
    (inj : ∀ {i j : Nat} {x : ParticipantId}, x ≠ BYE → kd.entrants[i]? = some (.participant x) →
      kd.entrants[j]? = some (.participant x) → i = j) :
    EntersOnce (allUnits (plan.mapIdx kd.built)) := by
  intro u hu v hv i j x hx hi hj
  obtain ⟨a, p, r, m, hp, -, hm, rfl⟩ := h.mem_units.mp hu
  obtain ⟨b, q, r', m', hq, -, hm', rfl⟩ := h.mem_units.mp hv
  -- a participant stands in round 0 of the knockout over the entrants
  have root : ∀ {p : PlannedKnockout} {order r m : Nat} {i : PlayUnit.Place}, m < 2 ^ (p.k - r) →
      ((kd.cascade p order).unitAt (entry kd p) r m).slot i = .participant x →
      r = 0 ∧ p.source = none ∧
        kd.entrants[2 * m + (if i = .A then 0 else 1)]? = some (.participant x) := by
    intro p order r m i hm e
    rw [slot_unitAt] at e
    cases r with
    | succ r => cases e
    | zero =>
      dsimp only at e
      cases hs : p.source with
      | some src =>
        obtain ⟨segId, r⟩ := src
        rw [entry_spawned hs] at e
        · cases e
        · rw [Nat.sub_zero] at hm
          rw [Nat.pow_succ]
          split <;> omega
      | none =>
        refine ⟨rfl, rfl, ?_⟩
        simp only [entry, KnockoutDraw.entrySlots, hs] at e
        exact getElem?_of_getD hx e
  obtain ⟨rfl, hs, entrant⟩ := root hm hi
  obtain ⟨rfl, hs', entrant'⟩ := root hm' hj
  have same := h.once p (List.mem_of_getElem? hp) q (List.mem_of_getElem? hq) (hs.trans hs'.symm)
  obtain ⟨rfl, rfl⟩ := h.eq_of_segId hp hq same
  obtain ⟨rfl, rfl⟩ := place_inj (inj hx entrant entrant')
  exact ⟨rfl, rfl⟩

/-- **The knockouts of a plan over the entrants route every outcome and every entrant.** -/
theorem routed (h : SpawnPlan kd plan) {participants : List Participant} {size : Nat}
    (he : kd.entrants = entrantSlots participants size) :
    Routed participants (allUnits (plan.mapIdx kd.built)) where
  once := h.fedOnce
  feeders := by
    intro u hu
    obtain ⟨i, p, r, m, hp, hr, hm, rfl⟩ := h.mem_units.mp hu
    exact (h.dependsOnFeeders hr hm).2
  sides := by
    intro u hu i
    obtain ⟨-, p, r, m, -, -, -, rfl⟩ := h.mem_units.mp hu
    exact side_unitAt i
  enters distinct := h.entersOnce (fun hx hi hj =>
    entrantSlots_inj size distinct hx (he ▸ hi) (he ▸ hj))

/-- **A spawn plan lays out a draw.** -/
theorem layout (h : SpawnPlan kd plan) :
    Layout kd.formatId kd.idPrefix kd.eventId (plan.mapIdx kd.built) where
  regular := by
    intro i b hb
    rw [List.getElem?_mapIdx, Option.map_eq_some_iff] at hb
    obtain ⟨p, hp, rfl⟩ := hb
    exact h.regular (List.mem_of_getElem? hp) i
  ids := by
    have : (plan.mapIdx kd.built).map (fun b => b.segment.id) = plan.map PlannedKnockout.segId := by
      refine List.ext_getElem (by simp) (fun i hi hi' => ?_)
      simp [KnockoutDraw.built, builtSegment]
    rw [this]
    exact h.ids
  nonempty := by simpa using h.nonempty
  shape := by
    intro u hu
    obtain ⟨i, p, r, m, hp, hr, hm, rfl⟩ := h.mem_units.mp hu
    exact (h.dependsOnFeeders hr hm).1
  feeders := by
    intro u hu
    obtain ⟨i, p, r, m, hp, hr, hm, rfl⟩ := h.mem_units.mp hu
    exact (h.dependsOnFeeders hr hm).2
  depends := by
    intro i b hb r m u hu d hd
    rw [List.getElem?_mapIdx, Option.map_eq_some_iff] at hb
    obtain ⟨p, hp, rfl⟩ := hb
    have hmem := List.mem_of_getElem? hp
    obtain ⟨hr, hm, rfl⟩ := (h.at_built hmem).mp hu
    rw [(h.dependsOnFeeders hr hm).2] at hd
    cases r with
    | zero =>
      obtain ⟨hA, hB⟩ := entry_bound hm
      cases hs : p.source with
      | none =>
        obtain ⟨a, ha⟩ := h.entry_root hs (2 * m)
        obtain ⟨b, hb⟩ := h.entry_root hs (2 * m + 1)
        simp [Cascade.unitAt, Cascade.unit, ha, hb] at hd
      | some src =>
        obtain ⟨segId, r⟩ := src
        obtain ⟨j, hj, q, hq, rfl, hk⟩ := h.spawned i p hp segId r hs
        refine Or.inl ⟨j, hj, kd.built j q, by rw [List.getElem?_mapIdx, hq]; rfl, ?_⟩
        have feeds : ∀ n, n < 2 ^ (p.k + 1) → ∃ r' m' u', At (kd.built j q).units r' m' u' ∧
            u'.id = knockoutUnitId kd.idPrefix q.segId r n := by
          intro n hn
          refine ⟨r, n, _, (h.at_built (List.mem_of_getElem? hq)).mpr ⟨by omega, ?_, rfl⟩,
            Cascade.unitAt_id _ _ _ _⟩
          rw [hk, Nat.add_sub_cancel]
          exact hn
        simp only [Cascade.unitAt, Cascade.unit, entry_spawned hs hA, entry_spawned hs hB,
          BracketSlot.fedBy_feeder] at hd
        rcases hd with rfl | rfl
        · exact feeds _ hA
        · exact feeds _ hB
    | succ r =>
      obtain ⟨hA, hB⟩ := next_bound hr hm
      right
      simp only [Cascade.unitAt, Cascade.unit, BracketSlot.fedBy_feeder] at hd
      rcases hd with rfl | rfl
      · exact ⟨r, by omega, 2 * m, _, (h.at_built hmem).mpr ⟨by omega, hA, rfl⟩,
          Cascade.unitAt_id _ _ _ _⟩
      · exact ⟨r, by omega, 2 * m + 1, _, (h.at_built hmem).mpr ⟨by omega, hB, rfl⟩,
          Cascade.unitAt_id _ _ _ _⟩
  once := h.fedOnce

end SpawnPlan

end Brackets
