import ShuttleWorks.Brackets.Seating

/-! The way a participant takes through a draw. Whoever sits in a unit entered the
draw there or was sent there by the result of one earlier unit; results send nobody
to two places, so the seats of one participant form a single path. -/

namespace Brackets
open Lib Relation

def Result.Played (r : Result) : Prop :=
  r.winnerSide ≠ .NONE ∧ loserCannotContinue r.walkover r.reason = false

instance (r : Result) : Decidable r.Played := inferInstanceAs (Decidable (_ ∧ _))

/-- One side of a unit. -/
abbrev Seat := PlayUnit × PlayUnit.Place

/-- A consistent table over a draw that routes distinct entrants. -/
structure Routing (participants : List Participant) (o D : List PlayUnit) (units : PlayUnits)
    (res : PlayUnitId → Option Result) : Prop where
  wf : WellFormed o
  sub : ∀ u ∈ D, u ∈ o
  closed : ∀ u ∈ D, ∀ v ∈ o, v.id ∈ u.dependencies → v ∈ D
  routed : Routed participants D
  distinct : (participants.map Participant.id).Nodup
  consistent : Consistent o units res

variable {participants : List Participant} {o D : List PlayUnit} {units : PlayUnits}
  {res : PlayUnitId → Option Result} {x : ParticipantId} {a b c : Seat} {u : PlayUnit}
  {i : PlayUnit.Place} {r : Result}

def Sits (D : List PlayUnit) (units : PlayUnits) (res : PlayUnitId → Option Result)
    (x : ParticipantId) (a : Seat) : Prop :=
  a.1 ∈ D ∧ x ∈ sideAt units res a.1 a.2

/-- The result of the one seat's unit sends who sits there to the other seat. -/
def Leads (res : PlayUnitId → Option Result) (a b : Seat) : Prop :=
  ∃ r take, res a.1.id = some r ∧ fedPlace r.winnerSide take = some a.2 ∧
    b.1.slot b.2 = .feeder a.1.id take

def Moves (D : List PlayUnit) (units : PlayUnits) (res : PlayUnitId → Option Result)
    (x : ParticipantId) (a b : Seat) : Prop :=
  Sits D units res x a ∧ Sits D units res x b ∧ Leads res a b

/-- The participant lost the unit of this seat on the court. -/
def Beaten (D : List PlayUnit) (units : PlayUnits) (res : PlayUnitId → Option Result)
    (x : ParticipantId) (a : Seat) : Prop :=
  Sits D units res x a ∧
    ∃ r, res a.1.id = some r ∧ fedPlace r.winnerSide .loser = some a.2 ∧ r.Played

/-! ## What stands on a side -/

theorem mem_refreshSide {slot : BracketSlot} (h : x ∈ slot.refreshSide []) :
    slot.refreshSide [] = [x] ∧ x ≠ BYE := by
  cases slot with
  | participant p =>
    rw [BracketSlot.refreshSide] at h ⊢
    split at h
    · cases h
    · next real =>
      rw [List.mem_singleton] at h
      subst h
      exact ⟨if_neg real, real⟩
  | feeder f take => cases h

theorem sideAt_eq_singleton (sides : u.side i = sideOf (u.slot i)) (h : x ∈ sideAt units res u i) :
    sideAt units res u i = [x] ∧ x ≠ BYE := by
  rw [sideAt_eq, sides] at h ⊢
  cases hs : u.slot i with
  | participant p =>
    rw [hs] at h
    exact mem_refreshSide (show x ∈ BracketSlot.refreshSide [] (.participant p) from h)
  | feeder f take =>
    rw [hs] at h
    exact mem_refreshSide h

theorem sideAt_of_fed {w : PlayUnit} {take : FeederTake} (sides : u.side i = sideOf (u.slot i))
    (fed : u.slot i = .feeder w.id take) (hr : res w.id = some r)
    (hw : units.get w.id = some (settleUnit units res w)) :
    x ∈ sideAt units res u i ↔
      (settleUnit units res w).fed r take = some x ∧ x ≠ BYE ∧ x ≠ "" := by
  rw [sideAt_eq, sides, fed]
  simp only [settleSide, settleSlot, hr, hw, BracketSlot.refreshSide]
  cases (settleUnit units res w).fed r take with
  | none => simp [orBye]
  | some p =>
    by_cases empty : p = ""
    · simp only [orBye, if_pos empty, reduceIte, List.not_mem_nil, Option.some.injEq, ne_eq,
        false_iff, not_and, not_not]
      intro e _
      rw [← e, empty]
    · simp only [orBye, if_neg empty, Option.some.injEq]
      split
      · next bye =>
        constructor
        · intro h
          cases h
        · rintro ⟨rfl, real, -⟩
          exact absurd bye real
      · next real =>
        rw [List.mem_singleton]
        constructor
        · rintro rfl
          exact ⟨rfl, real, empty⟩
        · rintro ⟨rfl, -⟩
          rfl

theorem fed_of_mem {take : FeederTake} (alone : u.side i = [x])
    (from_here : fedPlace r.winnerSide take = some i)
    (on : take = .loser → loserCannotContinue r.walkover r.reason = false) :
    u.fed r take = some x := by
  cases take with
  | winner =>
    cases hw : r.winnerSide <;> rw [hw] at from_here <;> cases from_here <;>
      simp only [PlayUnit.side] at alone <;>
      simp [PlayUnit.fed, PlayUnit.winnerParticipantId, hw, alone]
  | loser =>
    have plays := on rfl
    cases hw : r.winnerSide <;> rw [hw] at from_here <;> cases from_here <;>
      simp only [PlayUnit.side] at alone <;>
      simp [PlayUnit.fed, PlayUnit.loserParticipantId, hw, alone, plays]

namespace Routing

theorem entered (h : Routing participants o D units res) (hu : a.1 ∈ D)
    (slot : a.1.slot a.2 = .participant x) (real : x ≠ BYE) : Sits D units res x a := by
  refine ⟨hu, ?_⟩
  rw [sideAt_eq, h.routed.sides a.1 hu, slot]
  simp [settleSide, sideOf, real]

theorem alone (h : Routing participants o D units res) (ha : Sits D units res x a) :
    sideAt units res a.1 a.2 = [x] ∧ x ≠ BYE :=
  sideAt_eq_singleton (h.routed.sides a.1 ha.1 a.2) ha.2

/-- **Where somebody comes from.** He entered in this seat, or was sent there from another. -/
theorem back (h : Routing participants o D units res) (hb : Sits D units res x b) :
    b.1.slot b.2 = .participant x ∨ ∃ a, Moves D units res x a b := by
  obtain ⟨hu, hx⟩ := hb
  have sides := h.routed.sides b.1 hu b.2
  cases hs : b.1.slot b.2 with
  | participant p =>
    rw [sideAt_eq, sides, hs] at hx
    exact Or.inl (mem_sideOf hx).1
  | feeder f take =>
    right
    have dep : f ∈ b.1.dependencies := by
      rw [h.routed.feeders b.1 hu]
      cases hi : b.2 with
      | A => exact Or.inl (by rw [hi] at hs; rw [show b.1.slotA = _ from hs]; simp)
      | B => exact Or.inr (by rw [hi] at hs; rw [show b.1.slotB = _ from hs]; simp)
    obtain ⟨w, hw, rfl⟩ := h.wf.closed (h.sub b.1 hu) dep
    have hwD := h.closed b.1 hu w hw dep
    have stored := h.consistent.get hw
    cases hr : res w.id with
    | none =>
      rw [sideAt_eq, sides, hs] at hx
      simp [settleSide, settleSlot, hr, BracketSlot.refreshSide, sideOf] at hx
    | some r =>
      obtain ⟨fed, -, -⟩ := (sideAt_of_fed sides hs hr stored).mp hx
      obtain ⟨k, place, side⟩ := mem_side_of_fed fed
      exact ⟨(w, k), ⟨hwD, side⟩, ⟨hu, hx⟩, r, take, hr, place, hs⟩

/-- **Where a result sends somebody.** -/
theorem forward (h : Routing participants o D units res) (ha : Sits D units res x a)
    (named : x ≠ "") {take : FeederTake} (hr : res a.1.id = some r)
    (place : fedPlace r.winnerSide take = some a.2)
    (on : take = .loser → loserCannotContinue r.walkover r.reason = false) (hb : b.1 ∈ D)
    (slot : b.1.slot b.2 = .feeder a.1.id take) : Moves D units res x a b := by
  obtain ⟨side, real⟩ := h.alone ha
  have fed : (settleUnit units res a.1).fed r take = some x := fed_of_mem side place on
  refine ⟨ha, ⟨hb, ?_⟩, r, take, hr, place, slot⟩
  have stored := h.consistent.get (h.sub a.1 ha.1)
  exact (sideAt_of_fed (h.routed.sides b.1 hb b.2) slot hr stored).mpr ⟨fed, real, named⟩

theorem moves_unique (h : Routing participants o D units res) (hb : Moves D units res x a b)
    (hc : Moves D units res x a c) : b = c := by
  obtain ⟨-, sitsB, r, take, hr, place, slot⟩ := hb
  obtain ⟨-, sitsC, r', take', hr', place', slot'⟩ := hc
  rw [hr] at hr'
  cases hr'
  obtain rfl := fedPlace_inj place place'
  obtain ⟨unit, side⟩ := h.routed.once b.1 sitsB.1 c.1 sitsC.1 b.2 c.2 _ _ slot slot'
  exact Prod.ext unit side

theorem moves_depends (h : Routing participants o D units res) (hb : Moves D units res x a b) :
    a.1.id ∈ b.1.dependencies := by
  obtain ⟨-, sits, r, take, -, -, slot⟩ := hb
  rw [h.routed.feeders b.1 sits.1]
  cases hi : b.2 with
  | A => exact Or.inl (by rw [hi] at slot; rw [show b.1.slotA = _ from slot]; simp)
  | B => exact Or.inr (by rw [hi] at slot; rw [show b.1.slotB = _ from slot]; simp)

/-- **Every seat is reached from the entrance.** -/
theorem path (h : Routing participants o D units res) (hb : Sits D units res x b) :
    ∃ e, Sits D units res x e ∧ e.1.slot e.2 = .participant x ∧
      ReflTransGen (Moves D units res x) e b := by
  have all : ∀ u ∈ o, ∀ v ∈ D, v.id = u.id → ∀ i, Sits D units res x (v, i) →
      ∃ e, Sits D units res x e ∧ e.1.slot e.2 = .participant x ∧
        ReflTransGen (Moves D units res x) e (v, i) := by
    refine h.wf.ordered.induction (P := fun id => ∀ v ∈ D, v.id = id → ∀ i,
      Sits D units res x (v, i) → ∃ e, Sits D units res x e ∧ e.1.slot e.2 = .participant x ∧
        ReflTransGen (Moves D units res x) e (v, i)) (by simp) ?_
    intro u hu ih v hv e i sits
    obtain rfl := h.wf.eq_of_id_eq (h.sub v hv) hu e
    rcases h.back sits with entrance | ⟨a, move⟩
    · exact ⟨(v, i), sits, entrance, .refl⟩
    · obtain ⟨e, he, slot, before⟩ :=
        ih a.1.id (h.moves_depends move) a.1 move.1.1 rfl a.2 move.1
      exact ⟨e, he, slot, before.tail move⟩
  exact all b.1 (h.sub b.1 hb.1) b.1 hb.1 rfl b.2 hb

/-- **The seats of one participant form one path.** -/
theorem linear (h : Routing participants o D units res) (ha : Sits D units res x a)
    (hb : Sits D units res x b) :
    ReflTransGen (Moves D units res x) a b ∨ ReflTransGen (Moves D units res x) b a := by
  obtain ⟨e, he, slot, before⟩ := h.path ha
  obtain ⟨e', he', slot', before'⟩ := h.path hb
  have real := (h.alone ha).2
  obtain ⟨unit, place⟩ := h.routed.enters h.distinct e.1 he.1 e'.1 he'.1 e.2 e'.2 x real slot slot'
  obtain rfl : e = e' := Prod.ext unit place
  exact ReflTransGen.total_of_right_unique (fun _ _ _ hb hc => h.moves_unique hb hc) before before'

end Routing

end Brackets
