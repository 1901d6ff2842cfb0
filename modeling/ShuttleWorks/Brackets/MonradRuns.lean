import ShuttleWorks.Brackets.Formats.Placement
import ShuttleWorks.Brackets.Guarantees
import ShuttleWorks.Brackets.Playing

/-! A Monrad draw of a full field, played to its end. Winners go on in their bracket and
losers in the bracket their round spawns, so everybody plays one match at each depth, the
last of them a final. -/

namespace Brackets
open Lib Relation

/-! ## Rounds of a plan -/

namespace SpawnPlan

variable {kd : KnockoutDraw} {plan : List PlannedKnockout} {p q : PlannedKnockout} {r r' : Nat}
  {u v : PlayUnit}

/-- The unit is one of round `r` of the planned knockout. -/
def InRound (kd : KnockoutDraw) (plan : List PlannedKnockout) (p : PlannedKnockout) (r : Nat)
    (u : PlayUnit) : Prop :=
  ∃ (i : Nat) (m : Nat), plan[i]? = some p ∧ r < p.k + 1 ∧ m < 2 ^ (p.k - r) ∧
    (kd.cascade p i).unitAt (entry kd p) r m = u

theorem mem_units_iff (h : SpawnPlan kd plan) :
    u ∈ allUnits (plan.mapIdx kd.built) ↔ ∃ p r, InRound kd plan p r u := by
  rw [h.mem_units]
  constructor
  · rintro ⟨i, p, r, m, unit⟩
    exact ⟨p, r, i, m, unit⟩
  · rintro ⟨p, r, i, m, unit⟩
    exact ⟨i, p, r, m, unit⟩

theorem InRound.inj (h : SpawnPlan kd plan) (hu : InRound kd plan p r u)
    (hv : InRound kd plan q r' v) (e : u.id = v.id) : p = q ∧ r = r' ∧ u = v := by
  obtain ⟨i, m, hp, -, -, rfl⟩ := hu
  obtain ⟨j, m', hq, -, -, rfl⟩ := hv
  rw [Cascade.unitAt_id, Cascade.unitAt_id] at e
  obtain ⟨seg, rfl, rfl⟩ := knockoutUnitId_inj (h.dashFree p (List.mem_of_getElem? hp))
    (h.dashFree q (List.mem_of_getElem? hq)) e
  obtain ⟨rfl, rfl⟩ := h.eq_of_segId hp hq seg
  exact ⟨rfl, rfl, rfl⟩

theorem InRound.fed (h : SpawnPlan kd plan) (hu : InRound kd plan p r u)
    (hv : InRound kd plan q r' v) {i : PlayUnit.Place} {take : FeederTake}
    (slot : v.slot i = .feeder u.id take) : r + 1 + q.k = r' + p.k := by
  obtain ⟨a, m, hp, hr, hm, rfl⟩ := hu
  obtain ⟨b, m', hq, hr', hm', rfl⟩ := hv
  rw [slot_unitAt, Cascade.unitAt_id] at slot
  have dash := h.dashFree p (List.mem_of_getElem? hp)
  have small : (if i = .A then 0 else 1) < 2 := by
    split <;> omega
  cases r' with
  | zero =>
    dsimp only at slot
    have bound : 2 * m' + (if i = .A then 0 else 1) < 2 ^ (q.k + 1) := by
      rw [Nat.sub_zero] at hm'
      rw [Nat.pow_succ]
      omega
    cases hs : q.source with
    | none =>
      obtain ⟨x, hx⟩ := h.entry_root hs (2 * m' + (if i = .A then 0 else 1))
      rw [hx] at slot
      cases slot
    | some source =>
      obtain ⟨segId, t⟩ := source
      rw [entry_spawned hs bound] at slot
      obtain ⟨j, -, w, hw, rfl, size⟩ := h.spawned b q hq segId t hs
      obtain ⟨seg, rfl, -⟩ := knockoutUnitId_inj (h.dashFree w (List.mem_of_getElem? hw)) dash
        (BracketSlot.feeder.inj slot).1
      obtain ⟨-, rfl⟩ := h.eq_of_segId hw hp seg
      omega
  | succ r' =>
    obtain ⟨seg, rfl, -⟩ := knockoutUnitId_inj (h.dashFree q (List.mem_of_getElem? hq)) dash
      (BracketSlot.feeder.inj slot).1
    obtain ⟨-, rfl⟩ := h.eq_of_segId hq hp seg
    omega

theorem pair_of (m : Nat) :
    ∃ i : PlayUnit.Place, 2 * (m / 2) + (if i = .A then 0 else 1) = m := by
  by_cases even : m % 2 = 0
  · exact ⟨.A, by rw [if_pos rfl]; omega⟩
  · exact ⟨.B, by rw [if_neg (by simp)]; omega⟩

theorem InRound.winner (hu : InRound kd plan p r u) (hr : r < p.k) :
    ∃ v i, InRound kd plan p (r + 1) v ∧ v.slot i = .feeder u.id .winner := by
  obtain ⟨a, m, hp, -, hm, rfl⟩ := hu
  obtain ⟨i, number⟩ := pair_of m
  refine ⟨_, i, ⟨a, m / 2, hp, by omega, ?_, rfl⟩, ?_⟩
  · rw [show p.k - r = p.k - (r + 1) + 1 from by omega, Nat.pow_succ] at hm
    omega
  · rw [slot_unitAt, Cascade.unitAt_id]
    dsimp only
    rw [number]

theorem InRound.loser (hu : InRound kd plan p r u) (hq : q ∈ plan)
    (source : q.source = some (p.segId, r)) (size : p.k = q.k + 1 + r) :
    ∃ v i, InRound kd plan q 0 v ∧ v.slot i = .feeder u.id .loser := by
  obtain ⟨a, m, -, -, hm, rfl⟩ := hu
  obtain ⟨b, hb⟩ := List.getElem?_of_mem hq
  obtain ⟨i, number⟩ := pair_of m
  rw [show p.k - r = q.k + 1 from by omega] at hm
  refine ⟨_, i, ⟨b, m / 2, hb, by omega, ?_, rfl⟩, ?_⟩
  · rw [Nat.pow_succ] at hm
    rw [Nat.sub_zero]
    omega
  · rw [slot_unitAt, Cascade.unitAt_id]
    dsimp only
    rw [number, entry_spawned source hm]
    rfl

theorem root_mem (h : SpawnPlan kd plan) : ∃ p, plan[0]? = some p ∧ p.source = none := by
  obtain ⟨p, hp⟩ : ∃ p, plan[0]? = some p :=
    ⟨_, List.getElem?_eq_getElem (List.length_pos_of_ne_nil h.nonempty)⟩
  refine ⟨p, hp, ?_⟩
  cases hs : p.source with
  | none => rfl
  | some source =>
    obtain ⟨j, hj, -⟩ := h.spawned 0 p hp source.1 source.2 hs
    omega

theorem size_le (h : SpawnPlan kd plan) {K : Nat} (size : kd.entrants.length = 2 ^ (K + 1))
    {i : Nat} (hp : plan[i]? = some p) : p.k ≤ K := by
  induction i using Nat.strong_induction_on generalizing p with
  | h i ih =>
    cases hs : p.source with
    | none =>
      have same := Nat.pow_right_injective (le_refl 2) ((h.root i p hp hs).symm.trans size)
      omega
    | some source =>
      obtain ⟨j, hj, q, hq, -, larger⟩ := h.spawned i p hp source.1 source.2 hs
      have := ih j hj hq
      omega

end SpawnPlan

/-! ## Through a full field -/

open SpawnPlan

theorem Result.Played.place {result : Result} (played : result.Played) (take : FeederTake) :
    ∃ i, fedPlace result.winnerSide take = some i := by
  cases hw : result.winnerSide with
  | NONE => exact absurd hw played.1
  | A => cases take <;> exact ⟨_, rfl⟩
  | B => cases take <;> exact ⟨_, rfl⟩

theorem Result.Played.take {result : Result} (played : result.Played) (i : PlayUnit.Place) :
    ∃ take, fedPlace result.winnerSide take = some i := by
  cases hw : result.winnerSide with
  | NONE => exact absurd hw played.1
  | A =>
    cases i with
    | A => exact ⟨.winner, rfl⟩
    | B => exact ⟨.loser, rfl⟩
  | B =>
    cases i with
    | A => exact ⟨.loser, rfl⟩
    | B => exact ⟨.winner, rfl⟩

/-- A plan over a full field in which every round but the finals spawns a knockout, and every unit
is decided on the court or by walkover. -/
structure Classified (participants : List Participant) (kd : KnockoutDraw)
    (plan : List PlannedKnockout) (K : Nat) (o : List PlayUnit) (units : PlayUnits)
    (res : PlayUnitId → Option Result) : Prop where
  plans : SpawnPlan kd plan
  field : kd.entrants = entrantSlots participants (2 ^ (K + 1))
  full : participants.length = 2 ^ (K + 1)
  named : ∀ p ∈ participants, p.id ≠ BYE ∧ p.id ≠ ""
  spawns : ∀ p ∈ plan, ∀ r < p.k, ∃ q ∈ plan, q.source = some (p.segId, r) ∧ p.k = q.k + 1 + r
  routing : Routing participants o (allUnits (plan.mapIdx kd.built)) units res
  decided : ∀ u ∈ allUnits (plan.mapIdx kd.built), ∃ r, res u.id = some r ∧
    Decides (fun _ r => r.Played) (settleUnit units res u) r

namespace Classified

variable {participants : List Participant} {kd : KnockoutDraw} {plan : List PlannedKnockout}
  {K : Nat} {o : List PlayUnit} {units : PlayUnits} {res : PlayUnitId → Option Result}
  {x : ParticipantId} {a b : Seat} {p q : PlannedKnockout} {r r' : Nat}
  (h : Classified participants kd plan K o units res)
include h

theorem entrant {u : PlayUnit} (hu : u ∈ allUnits (plan.mapIdx kd.built)) {i : PlayUnit.Place}
    (slot : u.slot i = .participant x) : ∃ e ∈ participants, x = e.id := by
  obtain ⟨p, r, a, m, hp, hr, hm, rfl⟩ := h.plans.mem_units_iff.mp hu
  rw [slot_unitAt] at slot
  cases r with
  | succ r => cases slot
  | zero =>
    have bound : 2 * m + (if i = .A then 0 else 1) < 2 ^ (p.k + 1) := by
      rw [Nat.sub_zero] at hm
      rw [Nat.pow_succ]
      split <;> omega
    dsimp only at slot
    cases hs : p.source with
    | some source =>
      rw [@entry_spawned kd p source.1 source.2 hs _ bound] at slot
      cases slot
    | none =>
      rw [← h.plans.root a p hp hs] at bound
      simp only [entry, KnockoutDraw.entrySlots, hs] at slot
      rw [List.getD_eq_getElem?_getD, List.getElem?_eq_getElem bound, Option.getD_some] at slot
      have member := List.getElem_mem bound
      rw [slot, h.field] at member
      obtain ⟨e, he, same⟩ := entrantSlots_full h.full member
      exact ⟨e, he, BracketSlot.participant.inj same⟩

theorem named_of_sits (ha : Sits (allUnits (plan.mapIdx kd.built)) units res x a) : x ≠ "" := by
  rcases h.routing.back ha with entrance | ⟨b, sits, -, r, take, hr, -, slot⟩
  · obtain ⟨e, he, rfl⟩ := h.entrant ha.1 entrance
    exact (h.named e he).2
  · have stored := h.routing.consistent.get (h.routing.sub b.1 sits.1)
    exact ((sideAt_of_fed (h.routing.routed.sides a.1 ha.1 a.2) slot hr stored).mp ha.2).2.2

theorem played_of_taken {u : PlayUnit} (hu : u ∈ allUnits (plan.mapIdx kd.built))
    (taken : ∀ i, ∃ x, Sits (allUnits (plan.mapIdx kd.built)) units res x (u, i)) :
    ∃ r, res u.id = some r ∧ r.Played := by
  obtain ⟨r, hr, decides⟩ := h.decided u hu
  refine ⟨r, hr, ?_⟩
  rcases decides with ⟨side, due, -⟩ | ⟨-, played⟩
  · obtain ⟨y, hy⟩ := taken .A
    obtain ⟨z, hz⟩ := taken .B
    have both : walkoverSide (settleUnit units res u) = none :=
      walkoverSide_eq_none_iff.mpr ⟨List.ne_nil_of_mem hy.2, List.ne_nil_of_mem hz.2⟩
    rw [both] at due
    cases due
  · exact played

/-- **Nobody is missing.** Both sides of every unit are taken. -/
theorem taken : ∀ u ∈ allUnits (plan.mapIdx kd.built), ∀ i,
    ∃ x, Sits (allUnits (plan.mapIdx kd.built)) units res x (u, i) := by
  have all : ∀ u ∈ o, ∀ v ∈ allUnits (plan.mapIdx kd.built), v.id = u.id → ∀ i,
      ∃ x, Sits (allUnits (plan.mapIdx kd.built)) units res x (v, i) := by
    refine h.routing.wf.ordered.induction (P := fun id => ∀ v ∈ allUnits (plan.mapIdx kd.built),
      v.id = id → ∀ i, ∃ x, Sits (allUnits (plan.mapIdx kd.built)) units res x (v, i)) (by simp) ?_
    intro u hu ih v hv e i
    obtain rfl := h.routing.wf.eq_of_id_eq (h.routing.sub v hv) hu e
    cases hs : v.slot i with
    | participant x =>
      obtain ⟨e, he, rfl⟩ := h.entrant hv hs
      exact ⟨e.id, h.routing.entered hv hs (h.named e he).1⟩
    | feeder f take =>
      have dep : f ∈ v.dependencies := by
        rw [h.routing.routed.feeders v hv]
        cases i with
        | A => exact Or.inl (by rw [show v.slotA = _ from hs]; simp)
        | B => exact Or.inr (by rw [show v.slotB = _ from hs]; simp)
      obtain ⟨w, hw, rfl⟩ := h.routing.wf.closed (h.routing.sub v hv) dep
      have hwD := h.routing.closed v hv w hw dep
      have seated := ih w.id dep w hwD rfl
      obtain ⟨r, hr, played⟩ := h.played_of_taken hwD seated
      obtain ⟨k, place⟩ := played.place take
      obtain ⟨y, hy⟩ := seated k
      exact ⟨y, (h.routing.forward hy (h.named_of_sits hy) hr place (fun _ => played.2) hv hs).2.1⟩
  exact fun u hu => all u (h.routing.sub u hu) u hu rfl

theorem played {u : PlayUnit} (hu : u ∈ allUnits (plan.mapIdx kd.built)) :
    ∃ r, res u.id = some r ∧ r.Played := h.played_of_taken hu (h.taken u hu)

/-- **Everybody goes on until he has played a final.** -/
theorem goes_on (ha : Sits (allUnits (plan.mapIdx kd.built)) units res x a)
    (at_a : InRound kd plan p r a.1) (before : r < p.k) :
    ∃ b, Moves (allUnits (plan.mapIdx kd.built)) units res x a b := by
  obtain ⟨result, hr, played⟩ := h.played ha.1
  obtain ⟨take, place⟩ := played.take a.2
  have next : ∃ v i q r', InRound kd plan q r' v ∧ v.slot i = .feeder a.1.id take := by
    cases take with
    | winner =>
      obtain ⟨v, i, hv, slot⟩ := at_a.winner before
      exact ⟨v, i, p, r + 1, hv, slot⟩
    | loser =>
      have hp : p ∈ plan := by
        obtain ⟨i, -, hp, -⟩ := at_a
        exact List.mem_of_getElem? hp
      obtain ⟨q, hq, source, size⟩ := h.spawns p hp r before
      obtain ⟨v, i, hv, slot⟩ := at_a.loser hq source size
      exact ⟨v, i, q, 0, hv, slot⟩
  obtain ⟨v, i, q, r', hv, slot⟩ := next
  exact ⟨(v, i), h.routing.forward ha (h.named_of_sits ha) hr place (fun _ => played.2)
    (h.plans.mem_units_iff.mpr ⟨q, r', hv⟩) slot⟩

theorem moves_round (move : Moves (allUnits (plan.mapIdx kd.built)) units res x a b)
    (at_a : InRound kd plan p r a.1) (at_b : InRound kd plan q r' b.1) :
    r + 1 + q.k = r' + p.k := by
  obtain ⟨-, -, -, take, -, -, slot⟩ := move
  exact at_a.fed h.plans at_b slot

theorem starts (hx : x ∈ participants.map Participant.id) : ∃ a p,
    Sits (allUnits (plan.mapIdx kd.built)) units res x a ∧ InRound kd plan p 0 a.1 ∧ p.k = K := by
  obtain ⟨p, hp, hs⟩ := h.plans.root_mem
  have length : kd.entrants.length = 2 ^ (K + 1) := h.field ▸ length_entrantSlots _ _
  have size : p.k = K := by
    have := Nat.pow_right_injective (le_refl 2) ((h.plans.root 0 p hp hs).symm.trans length)
    omega
  have real : x ≠ BYE := by
    obtain ⟨e, he, rfl⟩ := List.mem_map.mp hx
    exact (h.named e he).1
  obtain ⟨n, hn⟩ := List.getElem?_of_mem ((mem_entrantSlots h.full.le real).mpr hx)
  rw [← h.field] at hn
  have lt := (List.getElem?_eq_some_iff.mp hn).1
  obtain ⟨i, number⟩ := pair_of n
  have at_u : InRound kd plan p 0 ((kd.cascade p 0).unitAt (entry kd p) 0 (n / 2)) := by
    refine ⟨0, n / 2, hp, by omega, ?_, rfl⟩
    rw [length, Nat.pow_succ] at lt
    rw [size, Nat.sub_zero]
    omega
  have slot : ((kd.cascade p 0).unitAt (entry kd p) 0 (n / 2)).slot i = .participant x := by
    rw [slot_unitAt]
    simp only [entry, KnockoutDraw.entrySlots, hs]
    rw [number, List.getD_eq_getElem?_getD, hn]
    rfl
  have member := h.plans.mem_units_iff.mpr ⟨p, 0, at_u⟩
  exact ⟨(_, i), p, h.routing.entered member slot real, at_u, size⟩

/-- **At every depth everybody has a match.** -/
theorem reaches (hx : x ∈ participants.map Participant.id) {t : Nat} (ht : t ≤ K) : ∃ a p r,
    Sits (allUnits (plan.mapIdx kd.built)) units res x a ∧ InRound kd plan p r a.1 ∧
      r + K = t + p.k := by
  induction t with
  | zero =>
    obtain ⟨a, p, sits, at_a, size⟩ := h.starts hx
    exact ⟨a, p, 0, sits, at_a, by omega⟩
  | succ t ih =>
    obtain ⟨a, p, r, sits, at_a, depth⟩ := ih (by omega)
    obtain ⟨b, move⟩ := h.goes_on sits at_a (by omega)
    obtain ⟨q, r', at_b⟩ := h.plans.mem_units_iff.mp move.2.1.1
    have := h.moves_round move at_a at_b
    exact ⟨b, q, r', move.2.1, at_b, by omega⟩

theorem path_round (path : ReflTransGen (Moves (allUnits (plan.mapIdx kd.built)) units res x) a b)
    (at_a : InRound kd plan p r a.1) (at_b : InRound kd plan q r' b.1) :
    ∃ n, r' + p.k = r + q.k + n ∧ (n = 0 → a = b) := by
  induction path generalizing q r' with
  | refl =>
    obtain ⟨rfl, rfl, -⟩ := at_a.inj h.plans at_b rfl
    exact ⟨0, rfl, fun _ => rfl⟩
  | tail _ move ih =>
    obtain ⟨w, t, at_c⟩ := h.plans.mem_units_iff.mp move.1.1
    obtain ⟨n, rise, -⟩ := ih at_c
    have := h.moves_round move at_c at_b
    exact ⟨n + 1, by omega, fun e => by omega⟩

theorem one_at_depth (ha : Sits (allUnits (plan.mapIdx kd.built)) units res x a)
    (hb : Sits (allUnits (plan.mapIdx kd.built)) units res x b)
    (at_a : InRound kd plan p r a.1) (at_b : InRound kd plan q r' b.1)
    (depth : r + q.k = r' + p.k) : a = b := by
  rcases h.routing.linear ha hb with path | path
  · obtain ⟨n, rise, same⟩ := h.path_round path at_a at_b
    exact same (by omega)
  · obtain ⟨n, rise, same⟩ := h.path_round path at_b at_a
    exact (same (by omega)).symm

theorem depth_le {u : PlayUnit} (at_u : InRound kd plan p r u) : r ≤ p.k ∧ p.k ≤ K := by
  obtain ⟨i, m, hp, hr, -⟩ := at_u
  exact ⟨by omega, h.plans.size_le (h.field ▸ length_entrantSlots _ _) hp⟩

/-- **The last match of everybody is a final.** -/
theorem ends (hx : x ∈ participants.map Participant.id) : ∃ a p,
    Sits (allUnits (plan.mapIdx kd.built)) units res x a ∧ InRound kd plan p p.k a.1 ∧
      ∀ b, Sits (allUnits (plan.mapIdx kd.built)) units res x b →
        ReflTransGen (Moves (allUnits (plan.mapIdx kd.built)) units res x) b a := by
  obtain ⟨a, p, r, sits, at_a, depth⟩ := h.reaches hx (le_refl K)
  obtain rfl : r = p.k := by omega
  refine ⟨a, p, sits, at_a, fun b hb => ?_⟩
  rcases h.routing.linear hb sits with path | path
  · exact path
  · obtain ⟨q, r', at_b⟩ := h.plans.mem_units_iff.mp hb.1
    obtain ⟨n, rise, same⟩ := h.path_round path at_a at_b
    have := (h.depth_le at_b).1
    rw [same (by omega)]

/-- **Everybody sits in one unit for each depth.** -/
theorem length_seated (hx : x ∈ participants.map Participant.id) {l : List PlayUnit}
    (distinct : l.Nodup) (seated : ∀ u, u ∈ l ↔
      ∃ i, Sits (allUnits (plan.mapIdx kd.built)) units res x (u, i)) : l.length = K + 1 := by
  choose f p r spot using fun t : Fin (K + 1) => h.reaches hx (Nat.le_of_lt_succ t.isLt)
  have perm : l.Perm ((List.finRange (K + 1)).map fun t => (f t).1) := by
    refine (List.perm_ext_iff_of_nodup distinct (List.Nodup.map ?_ (List.nodup_finRange _))).mpr
      fun u => ?_
    · intro t t' e
      obtain ⟨-, at_t, depth⟩ := spot t
      obtain ⟨-, at_t', depth'⟩ := spot t'
      obtain ⟨same, same', -⟩ := at_t.inj h.plans at_t' (congrArg PlayUnit.id e)
      rw [same, same'] at depth
      exact Fin.ext (by omega)
    · rw [seated, List.mem_map]
      constructor
      · rintro ⟨i, sits⟩
        obtain ⟨q, r', at_u⟩ := h.plans.mem_units_iff.mp sits.1
        obtain ⟨le, small⟩ := h.depth_le at_u
        let t : Fin (K + 1) := ⟨r' + K - q.k, by omega⟩
        obtain ⟨sits', at_t, depth⟩ := spot t
        have value : t.val = r' + K - q.k := rfl
        exact ⟨t, List.mem_finRange t, congrArg Prod.fst
          (h.one_at_depth sits' sits at_t at_u (by omega))⟩
      · rintro ⟨t, -, rfl⟩
        exact ⟨(f t).2, (spot t).1⟩
  rw [perm.length_eq, List.length_map, List.length_finRange]

end Classified

/-! ## The finals of a full classification -/

namespace DrawSegment

def final (seg : DrawSegment) : PlayUnitId := (seg.rounds.getLast?.bind List.head?).getD ""

def lo (seg : DrawSegment) : Nat :=
  match seg.positions with
  | some (lo, _) => lo
  | none => 1

end DrawSegment

/-- What the finals give: each its two positions. -/
def ranking (segments : List DrawSegment) (s : TournamentState) :
    List (Nat × Option ParticipantId) :=
  segments.flatMap fun seg =>
    [(seg.lo, s.sent .winner seg.final), (seg.lo + 1, s.sent .loser seg.final)]

theorem SpawnPlan.getLast_rounds {kd : KnockoutDraw} {plan : List PlannedKnockout}
    (h : SpawnPlan kd plan) {p : PlannedKnockout} (hp : p ∈ plan) (i : Nat) :
    (kd.built i p).segment.rounds.getLast? = some [knockoutUnitId kd.idPrefix p.segId p.k 0] := by
  show (((kd.cascade p i).rounds (kd.entrySlots p)).map fun round =>
    round.map PlayUnit.id).getLast? = _
  rw [Cascade.rounds_eq _ (h.length_entrySlots hp) (.participant BYE), List.range_succ,
    List.map_append, List.map_append, List.map_singleton, List.map_singleton,
    List.getLast?_concat, Nat.sub_self]
  exact congrArg (fun id => some [id]) (Cascade.unitAt_id _ _ _ _)

theorem SpawnPlan.final_built {kd : KnockoutDraw} {plan : List PlannedKnockout}
    (h : SpawnPlan kd plan) {p : PlannedKnockout} (hp : p ∈ plan) (i : Nat) :
    (kd.built i p).segment.final = knockoutUnitId kd.idPrefix p.segId p.k 0 := by
  rw [DrawSegment.final, h.getLast_rounds hp]
  rfl

/-- **The finals of a full classification decide every position once.** -/
theorem fullPlan_positions (kd : KnockoutDraw) (k : Nat) :
    ((((fullPlan k).mapIdx kd.built).map BuiltSegment.segment).flatMap
      fun seg => [seg.lo, seg.lo + 1]).Perm (List.range' 1 (2 ^ (k + 1))) := by
  have los : (((fullPlan k).mapIdx kd.built).map BuiltSegment.segment).map DrawSegment.lo =
      1 :: (sortedChildren k).map Child.lo := by
    refine List.ext_getElem? fun i => ?_
    rw [List.getElem?_map, List.getElem?_map, List.getElem?_mapIdx, fullPlan]
    cases i with
    | zero => rfl
    | succ i =>
      rw [List.getElem?_cons_succ, List.getElem?_cons_succ, List.getElem?_map, List.getElem?_map]
      cases (sortedChildren k)[i]? <;> rfl
  have enough : k ≤ 2 ^ (k + 1) := by
    have := Nat.lt_two_pow_self (n := k + 1)
    omega
  have children : ((sortedChildren k).flatMap fun c => [c.lo, c.lo + 1]).Perm
      (List.range' (1 + 2) (2 ^ (k + 1) - 2)) :=
    ((List.perm_insertionSort _ _).flatMap_right _).trans (children_positions enough)
  have size : 2 ^ (k + 1) = 2 + (2 ^ (k + 1) - 2) := by
    have pos : 0 < 2 ^ k := Nat.two_pow_pos k
    rw [Nat.pow_succ]
    omega
  have pairs : (((fullPlan k).mapIdx kd.built).map BuiltSegment.segment).flatMap
      (fun seg => [seg.lo, seg.lo + 1]) =
      [1, 2] ++ (sortedChildren k).flatMap fun c => [c.lo, c.lo + 1] := by
    rw [← List.flatMap_map (f := DrawSegment.lo) (g := fun n => [n, n + 1]), los, List.flatMap_cons,
      List.flatMap_map]
  rw [pairs, size, ← List.range'_append_1]
  exact (List.Perm.refl [1, 2]).append children

theorem fullPlan_children {k : Nat} {p : PlannedKnockout} (hp : p ∈ fullPlan k) {r : Nat}
    (hr : r < p.k) :
    ∃ q ∈ fullPlan k, q.source = some (p.segId, r) ∧ p.k = q.k + 1 + r := by
  have enough : k ≤ 2 ^ (k + 1) := by
    have := Nat.lt_two_pow_self (n := k + 1)
    omega
  have planned : ∀ {c}, c ∈ children (2 ^ (k + 1)) "M" 1 k → c.toKnockout ∈ fullPlan k := fun hc =>
    List.mem_cons_of_mem _ (List.mem_map_of_mem (mem_sortedChildren.mpr hc))
  rcases List.mem_cons.mp hp with rfl | hp
  · have hr : r < k := hr
    refine ⟨_, planned (c := childOf "M" 1 k r) ?_, rfl, ?_⟩
    · obtain ⟨fuel, hf⟩ : ∃ fuel, 2 ^ (k + 1) = fuel + 1 := ⟨2 ^ (k + 1) - 1, by omega⟩
      rw [hf, children, List.mem_flatMap]
      exact ⟨r, List.mem_range.mpr hr, List.mem_cons_self⟩
    · simp only [mainKnockout, Child.toKnockout, childOf]
      omega
  · obtain ⟨c, hc, rfl⟩ := List.mem_map.mp hp
    have hr : r < c.k := hr
    refine ⟨_, planned (children_complete enough c (mem_sortedChildren.mp hc) r hr), rfl, ?_⟩
    simp only [Child.toKnockout, childOf]
    omega

theorem generateDraw_monrad {participants : List Participant} {eventId : EventId}
    {options : DrawOptions} {d : Draw}
    (h : generateDraw "monrad" participants eventId options = .ok d)
    (full : normalizeMonradConfig options.config = .ok "full") : ∃ k seeded,
      bracketShape participants options.seededCount options.bracketSize =
        .ok (2 ^ (k + 1), seeded) ∧
      ∃ kd : KnockoutDraw, kd.entrants = entrantSlots participants (2 ^ (k + 1)) ∧
        SpawnPlan kd (fullPlan k) ∧ d.playUnits.rows = allUnits ((fullPlan k).mapIdx kd.built) ∧
        d.segments = some (((fullPlan k).mapIdx kd.built).map BuiltSegment.segment) := by
  obtain ⟨consolation, hc, h⟩ : ∃ consolation,
      normalizeMonradConfig options.config = .ok consolation ∧
      generateMonrad participants eventId eventId options.durationSlots options.seededCount
        options.bracketSize consolation = .ok d := bind_eq_ok.mp h
  rw [full] at hc
  cases hc
  obtain ⟨size, seeded, k, plan, rfl, shape, rfl, spawn, h⟩ := generateMonrad_ok h
  rw [if_neg (by decide)] at spawn h
  obtain ⟨d', ha, -, -, rows, segments, -⟩ := spawn.layout.assemble_ok
    (show (knockoutEvent eventId "monrad" (2 ^ (k + 1)) participants.length seeded).id = _ from rfl)
    participants
  obtain rfl : d' = d := Except.ok.inj (ha.symm.trans h)
  exact ⟨k, seeded, shape, _, rfl, spawn, rows, segments⟩

/-! ## The ranking of a run -/

variable {participants : List Participant} {eventId : EventId} {options : DrawOptions} {d : Draw}
  {ds : List Draw} {s : TournamentState} {x : ParticipantId}

/-- The participant sits in this final and in no other, and all his matches lead up to it. -/
structure EndsIn (d : Draw) (segments : List DrawSegment) (s : TournamentState) (x : ParticipantId)
    (seg : DrawSegment) : Prop where
  seated : x ∈ s.seats seg.final
  only : ∀ seg' ∈ segments, x ∈ s.seats seg'.final → seg' = seg
  last : ∀ id ∈ d.matchesOf s x, id = seg.final ∨ d.Precedes id seg.final

section Run

variable {kd : KnockoutDraw} {plan : List PlannedKnockout} {K : Nat}
  (rows : d.playUnits.rows = allUnits (plan.mapIdx kd.built))
  (h : Classified participants kd plan K (origin ds) s.playUnits s.result)
include rows h

theorem seated_iff {u : PlayUnit} (hu : u ∈ d.playUnits.rows) : x ∈ s.seats u.id ↔
    ∃ i, Sits (allUnits (plan.mapIdx kd.built)) s.playUnits s.result x (u, i) :=
  have routing : Routing participants (origin ds) d.playUnits.rows s.playUnits s.result :=
    rows ▸ h.routing
  rows ▸ routing.mem_seats hu

theorem length_matchesOf (distinct : d.playUnits.rows.Nodup)
    (hx : x ∈ participants.map Participant.id) : (d.matchesOf s x).length = K + 1 := by
  rw [Draw.matchesOf, Draw.ids, List.filter_map, List.length_map]
  refine h.length_seated hx (distinct.filter _) fun u => ?_
  rw [List.mem_filter]
  constructor
  · rintro ⟨hu, both⟩
    exact (seated_iff rows h hu).mp (of_decide_eq_true both).1
  · rintro ⟨i, sits⟩
    have hu : u ∈ d.playUnits.rows := rows ▸ sits.1
    obtain ⟨r, hr, on⟩ := h.played sits.1
    exact ⟨hu, decide_eq_true ⟨(seated_iff rows h hu).mpr ⟨i, sits⟩, r, hr, on⟩⟩

theorem final_segment {seg : DrawSegment}
    (hs : seg ∈ (plan.mapIdx kd.built).map BuiltSegment.segment) :
    ∃ i p u, plan[i]? = some p ∧ seg = (kd.built i p).segment ∧ u ∈ d.playUnits.rows ∧
      InRound kd plan p p.k u ∧ seg.final = u.id := by
  obtain ⟨b, hb, rfl⟩ := List.mem_map.mp hs
  obtain ⟨i, hi⟩ := List.getElem?_of_mem hb
  rw [List.getElem?_mapIdx, Option.map_eq_some_iff] at hi
  obtain ⟨p, hp, rfl⟩ := hi
  have at_u : InRound kd plan p p.k ((kd.cascade p i).unitAt (entry kd p) p.k 0) :=
    ⟨i, 0, hp, by omega, Nat.two_pow_pos _, rfl⟩
  refine ⟨i, p, _, hp, rfl, rows ▸ h.plans.mem_units_iff.mpr ⟨p, p.k, at_u⟩, at_u, ?_⟩
  rw [h.plans.final_built (List.mem_of_getElem? hp), Cascade.unitAt_id]
  rfl

/-- **Everybody ends in one final**, as its winner or as its loser. -/
theorem endsIn (hx : x ∈ participants.map Participant.id) :
    ∃ seg ∈ (plan.mapIdx kd.built).map BuiltSegment.segment,
      EndsIn d ((plan.mapIdx kd.built).map BuiltSegment.segment) s x seg ∧
        ∃ take, s.sent take seg.final = some x := by
  obtain ⟨⟨u, i⟩, p, sits, at_u, last⟩ := h.ends hx
  have hu : u ∈ d.playUnits.rows := rows ▸ sits.1
  obtain ⟨n, hn, final⟩ : ∃ n, plan[n]? = some p ∧ (kd.built n p).segment.final = u.id := by
    obtain ⟨n, m, hn, -, hm, rfl⟩ := at_u
    obtain rfl : m = 0 := by simpa using hm
    refine ⟨n, hn, ?_⟩
    rw [h.plans.final_built (List.mem_of_getElem? hn) n, Cascade.unitAt_id]
    rfl
  have segment : (kd.built n p).segment ∈ (plan.mapIdx kd.built).map BuiltSegment.segment := by
    refine List.mem_map_of_mem (List.mem_of_getElem? (i := n) ?_)
    rw [List.getElem?_mapIdx, hn]
    rfl
  have routing : Routing participants (origin ds) d.playUnits.rows s.playUnits s.result :=
    rows ▸ h.routing
  refine ⟨_, segment, ⟨?_, ?_, ?_⟩, ?_⟩
  · rw [final]
    exact (seated_iff rows h hu).mpr ⟨i, sits⟩
  · intro seg hs seated
    obtain ⟨m, q, v, hq, rfl, hv, at_v, final'⟩ := final_segment rows h hs
    rw [final'] at seated
    obtain ⟨k, sits'⟩ := (seated_iff rows h hv).mp seated
    obtain rfl : v = u := congrArg Prod.fst
      (h.one_at_depth sits' sits at_v at_u (Nat.add_comm _ _))
    obtain ⟨rfl, -, -⟩ := at_v.inj h.plans at_u rfl
    obtain ⟨rfl, -⟩ := h.plans.eq_of_segId hq hn rfl
    rfl
  · intro id hid
    rw [final]
    obtain ⟨hid, both⟩ := List.mem_filter.mp hid
    obtain ⟨v, hv, rfl⟩ := List.mem_map.mp hid
    obtain ⟨k, sits'⟩ := (seated_iff rows h hv).mp (of_decide_eq_true both).1
    have path := last (v, k) sits'
    rw [← rows] at path
    rcases reflTransGen_iff_eq_or_transGen.mp path with same | path
    · exact Or.inl (congrArg (fun a : Seat => a.1.id) same.symm)
    · exact Or.inr (routing.precedes path)
  · obtain ⟨r, hr, on⟩ := h.played sits.1
    obtain ⟨take, place⟩ := on.take i
    refine ⟨take, ?_⟩
    rw [final, TournamentState.sent, routing.consistent.get (routing.sub u hu),
      show s.result u.id = some r from hr]
    exact fed_of_mem (h.routing.alone sits).1 place fun _ => on.2

end Run

/-- **A full classification ranks the whole field.** For every size `2 ^ k` the finals of the
segments decide the positions from 1 to `2 ^ k`, each once. Where the field is full and every match
is decided on the court, each participant plays `k` matches, the last of them one final, and the
finals give every position to one participant and every participant one position. -/
theorem monrad_ranking (h : generateDraw "monrad" participants eventId options = .ok d)
    (full : normalizeMonradConfig options.config = .ok "full") : ∃ k segments,
      (∃ seeded, bracketShape participants options.seededCount options.bracketSize =
        .ok (2 ^ k, seeded)) ∧ d.segments = some segments ∧
      (∀ seg ∈ segments, seg.rounds.getLast? = some [seg.final]) ∧
      (segments.flatMap fun seg => [seg.lo, seg.lo + 1]).Perm (List.range' 1 (2 ^ k)) ∧
      (participants.length = 2 ^ k → (participants.map Participant.id).Nodup →
        (∀ p ∈ participants, p.id ≠ BYE ∧ p.id ≠ "") → ∀ ds, d ∈ ds →
        (∀ d ∈ ds, IsGenerated d) → ∀ s, PlayedReached ds d s → d.Completed s →
          (∀ p ∈ participants, (d.matchesOf s p.id).length = k ∧
            ∃ seg ∈ segments, EndsIn d segments s p.id seg) ∧
          ((ranking segments s).map Prod.fst).Perm (List.range' 1 (2 ^ k)) ∧
          ((ranking segments s).map Prod.snd).Perm (participants.map fun p => some p.id)) := by
  obtain ⟨k, seeded, shape, kd, field, plans, rows, segments⟩ := generateDraw_monrad h full
  refine ⟨k + 1, _, ⟨seeded, shape⟩, segments, ?_, fullPlan_positions kd k, ?_⟩
  · intro seg hs
    obtain ⟨b, hb, rfl⟩ := List.mem_map.mp hs
    obtain ⟨i, hi⟩ := List.getElem?_of_mem hb
    rw [List.getElem?_mapIdx, Option.map_eq_some_iff] at hi
    obtain ⟨p, hp, rfl⟩ := hi
    rw [plans.final_built (List.mem_of_getElem? hp), plans.getLast_rounds (List.mem_of_getElem? hp)]
  intro fills distinct named ds hd all s reached completed
  have generated := generateDraw_ok h
  have drawn := generated.drawn.1
  have session := reached.session fun d hd => (all d hd).drawn
  have routing := session.routing hd drawn (generated.routed (by decide)) distinct
  have always : ∀ u ∈ d.playUnits.rows, u.metadata.conditional = false := by
    intro u hu
    obtain ⟨i, p, r, m, -, -, -, rfl⟩ := plans.mem_units.mp (rows ▸ hu)
    rw [Cascade.unitAt_metadata]
    rfl
  have classified : Classified participants kd (fullPlan k) k (origin ds) s.playUnits s.result := by
    refine ⟨plans, field, fills, named, fun p hp r hr => fullPlan_children hp hr, rows ▸ routing, ?_⟩
    intro u hu
    rw [← rows] at hu
    obtain ⟨r, hr⟩ := Option.isSome_iff_exists.mp (completed u hu (always u hu))
    exact ⟨r, hr, session.decides hd hu (always u hu) hr⟩
  have positions : ∀ segments : List DrawSegment, (ranking segments s).map Prod.fst =
      segments.flatMap fun seg => [seg.lo, seg.lo + 1] := by
    intro segments
    rw [ranking, List.map_flatMap]
    rfl
  refine ⟨fun p hp => ?_, ?_, ?_⟩
  · have hx := List.mem_map_of_mem (f := Participant.id) hp
    obtain ⟨seg, hs, ends, -⟩ := endsIn rows classified hx
    exact ⟨length_matchesOf rows classified drawn.units.unique.of_map hx, seg, hs, ends⟩
  · rw [positions]
    exact fullPlan_positions kd k
  · -- as many positions as participants, and everybody has one
    refine (List.Subperm.perm_of_length_le (List.subperm_of_subset ?_ ?_) ?_).symm
    · show (participants.map (some ∘ Participant.id)).Nodup
      rw [← List.map_map]
      exact distinct.map (Option.some_injective _)
    · intro y hy
      obtain ⟨p, hp, rfl⟩ := List.mem_map.mp hy
      obtain ⟨seg, hs, -, take, sent⟩ := endsIn rows classified (List.mem_map_of_mem hp)
      rw [ranking, List.map_flatMap, List.mem_flatMap]
      refine ⟨seg, hs, ?_⟩
      cases take with
      | winner => simp [sent]
      | loser => simp [sent]
    · have length := congrArg List.length (positions
        (((fullPlan k).mapIdx kd.built).map BuiltSegment.segment))
      rw [List.length_map, (fullPlan_positions kd k).length_eq, List.length_range'] at length
      rw [List.length_map, List.length_map, length, fills]

def monradQuartet : Draw :=
  match generateDraw "monrad" quartet "MS" {} with
  | .ok d => d
  | .error _ => plainDraw { id := "MS" } [] []

theorem monradQuartet_eq : generateDraw "monrad" quartet "MS" {} = .ok monradQuartet := rfl

theorem monrad_ranking_quartet : ∃ segments s, monradQuartet.segments = some segments ∧
    PlayedReached [monradQuartet] monradQuartet s ∧ monradQuartet.Completed s ∧
      ((ranking segments s).map Prod.fst).Perm [1, 2, 3, 4] ∧
      ((ranking segments s).map Prod.snd).Perm (quartet.map fun p => some p.id) := by
  have generated : ∀ d ∈ [monradQuartet], IsGenerated d := by
    intro d hd
    rw [List.mem_singleton.mp hd]
    exact ⟨_, _, _, _, monradQuartet_eq⟩
  obtain ⟨s₀, h₀⟩ := exists_ok_of_toOption
    (show (registerDraws [monradQuartet]).toOption.isSome by decide)
  have member := List.mem_singleton_self monradQuartet
  have start : PlayedReached [monradQuartet] monradQuartet s₀ := .init h₀
  obtain ⟨s, reached, completed⟩ := start.completes (fun d hd => (generated d hd).drawn) member
    (fun _ => { winnerSide := .A }) fun _ => by decide
  obtain ⟨k, segments, ⟨seeded, shape⟩, shown, -, -, run⟩ := monrad_ranking monradQuartet_eq rfl
  have size : 2 ^ k = 4 := (congrArg Prod.fst (Except.ok.inj shape)).symm
  obtain ⟨-, positions, participants⟩ := run size.symm (by decide) (by decide) _ member generated s
    reached completed
  rw [size] at positions
  exact ⟨segments, s, shown, reached, completed, positions, participants⟩

end Brackets
