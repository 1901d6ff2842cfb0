import ShuttleWorks.Brackets.Advancement
import ShuttleWorks.Lib.Dependency

/-! Settled slots. What a slot shows is a function of the results and of the
units they belong to: the outcome its feeder was recorded with, or the feeder
while there is none. Propagation keeps the play units equal to what the draw
settles to, and results alone determine them. -/

namespace Brackets
open Lib

/-! ## Draws as they are generated -/

def PlayUnit.Concrete (unit : PlayUnit) : Prop :=
  unit.dependencies = [] ∧ (∃ p, unit.slotA = .participant p) ∧ ∃ p, unit.slotB = .participant p

/-- A unit both sides of which wait for units it depends on. -/
def PlayUnit.Waiting (unit : PlayUnit) : Prop :=
  unit.sideA = [] ∧ unit.sideB = [] ∧
    (∃ id ∈ unit.dependencies, ∃ take, unit.slotA = .feeder id take) ∧
    ∃ id ∈ unit.dependencies, ∃ take, unit.slotB = .feeder id take

/-- Play units as draws give them: every one concrete or waiting, no dependency on another
event, and every dependency before the units that have it. -/
structure WellFormed (o : List PlayUnit) : Prop where
  unique : (o.map PlayUnit.id).Nodup
  shape : ∀ u ∈ o, u.Concrete ∨ u.Waiting
  sameEvent : ∀ u ∈ o, ∀ v ∈ o, v.id ∈ u.dependencies → v.eventId = u.eventId
  ordered : Ordered PlayUnit.id PlayUnit.dependencies [] o

variable {u : PlayUnit} {r : Result}

namespace WellFormed

variable {o : List PlayUnit}

theorem eq_of_id_eq (wf : WellFormed o) {v : PlayUnit} (hu : u ∈ o) (hv : v ∈ o) (h : u.id = v.id) :
    u = v :=
  List.inj_on_of_nodup_map wf.unique hu hv h

theorem closed (wf : WellFormed o) (hu : u ∈ o) {d : PlayUnitId} (hd : d ∈ u.dependencies) :
    ∃ v ∈ o, v.id = d := by
  rcases wf.ordered.closed hu hd with h | h
  · simp at h
  · obtain ⟨v, hv, rfl⟩ := List.mem_map.mp h
    exact ⟨v, hv, rfl⟩

theorem not_self (wf : WellFormed o) (hu : u ∈ o) : u.id ∉ u.dependencies :=
  wf.ordered.not_mem_self wf.unique (fun _ _ h => absurd h (by simp)) hu

theorem append {p : List PlayUnit} (wf : WellFormed o) (wp : WellFormed p)
    (disjoint : ∀ u ∈ o, ∀ v ∈ p, u.id ≠ v.id) : WellFormed (o ++ p) where
  unique := by
    rw [List.map_append, List.nodup_append]
    refine ⟨wf.unique, wp.unique, ?_⟩
    intro a ha b hb
    obtain ⟨u, hu, rfl⟩ := List.mem_map.mp ha
    obtain ⟨v, hv, rfl⟩ := List.mem_map.mp hb
    exact disjoint u hu v hv
  shape := by
    intro u hu
    rcases List.mem_append.mp hu with hu | hu
    · exact wf.shape u hu
    · exact wp.shape u hu
  sameEvent := by
    intro u hu v hv hd
    rcases List.mem_append.mp hu with hu | hu
    · obtain ⟨v', hv', hid⟩ := wf.closed hu hd
      rcases List.mem_append.mp hv with hv | hv
      · exact wf.sameEvent u hu v hv hd
      · exact absurd hid (disjoint v' hv' v hv)
    · obtain ⟨v', hv', hid⟩ := wp.closed hu hd
      rcases List.mem_append.mp hv with hv | hv
      · exact absurd hid.symm (disjoint v hv v' hv')
      · exact wp.sameEvent u hu v hv hd
  ordered := wf.ordered.append (wp.ordered.mono (fun _ h => absurd h (by simp)))

end WellFormed

theorem WellFormed.nil : WellFormed [] where
  unique := List.nodup_nil
  shape := by simp
  sameEvent := by simp
  ordered := trivial

/-! ## Settled units -/

variable {o : List PlayUnit} {units units' : PlayUnits} {res res' : PlayUnitId → Option Result}

/-- What a slot of the draw shows once these results are known. -/
def settleSlot (units : PlayUnits) (res : PlayUnitId → Option Result) : BracketSlot → BracketSlot
  | .participant p => .participant p
  | .feeder id take =>
    match res id, units.get id with
    | some result, some feeder => .participant (orBye (feeder.fed result take))
    | _, _ => .feeder id take

/-- The side beside such a slot; one that was given with the draw stays. -/
def settleSide (units : PlayUnits) (res : PlayUnitId → Option Result) (slot : BracketSlot)
    (side : Side) : Side :=
  match slot with
  | .participant _ => side
  | .feeder id take => (settleSlot units res (.feeder id take)).refreshSide side

def settleUnit (units : PlayUnits) (res : PlayUnitId → Option Result) (unit : PlayUnit) :
    PlayUnit :=
  { unit with
    sideA := settleSide units res unit.slotA unit.sideA
    sideB := settleSide units res unit.slotB unit.sideB
    slotA := settleSlot units res unit.slotA
    slotB := settleSlot units res unit.slotB }

@[simp] theorem settleUnit_id (unit : PlayUnit) : (settleUnit units res unit).id = unit.id := rfl

@[simp] theorem settleUnit_eventId (unit : PlayUnit) :
    (settleUnit units res unit).eventId = unit.eventId := rfl

@[simp] theorem settleUnit_dependencies (unit : PlayUnit) :
    (settleUnit units res unit).dependencies = unit.dependencies := rfl

theorem settleUnit_concrete {unit : PlayUnit} (h : unit.Concrete) :
    settleUnit units res unit = unit := by
  obtain ⟨-, ⟨p, hp⟩, q, hq⟩ := h
  simp only [settleUnit, settleSide, settleSlot, hp, hq]
  rw [← hp, ← hq]

theorem settleSlot_congr {slot : BracketSlot}
    (h : ∀ id take, slot = .feeder id take → res id = res' id ∧ units.get id = units'.get id) :
    settleSlot units res slot = settleSlot units' res' slot := by
  cases slot with
  | participant p => rfl
  | feeder id take =>
    obtain ⟨hr, hu⟩ := h id take rfl
    simp only [settleSlot, hr, hu]

theorem settleUnit_congr {unit : PlayUnit} (shape : unit.Concrete ∨ unit.Waiting)
    (h : ∀ d ∈ unit.dependencies, res d = res' d ∧ units.get d = units'.get d) :
    settleUnit units res unit = settleUnit units' res' unit := by
  rcases shape with concrete | ⟨hA, hB, ⟨f, hf, t, ha⟩, g, hg, t', hb⟩
  · rw [settleUnit_concrete concrete, settleUnit_concrete concrete]
  · have slotA : settleSlot units res unit.slotA = settleSlot units' res' unit.slotA := by
      refine settleSlot_congr (fun id take e => ?_)
      rw [ha] at e
      cases e
      exact h f hf
    have slotB : settleSlot units res unit.slotB = settleSlot units' res' unit.slotB := by
      refine settleSlot_congr (fun id take e => ?_)
      rw [hb] at e
      cases e
      exact h g hg
    rw [ha] at slotA
    rw [hb] at slotB
    simp only [settleUnit, settleSide, ha, hb, slotA, slotB]

/-! ## Consistent units -/

/-- The play units are what the draw settles to under these results, and no unit has a result
before everything it depends on. -/
structure Consistent (o : List PlayUnit) (units : PlayUnits) (res : PlayUnitId → Option Result) :
    Prop where
  rows : units.rows = o.map (settleUnit units res)
  supported : ∀ u ∈ o, (res u.id).isSome → ∀ d ∈ u.dependencies, (res d).isSome
  known : ∀ id, (res id).isSome → ∃ u ∈ o, u.id = id

namespace Consistent

theorem get (h : Consistent o units res) (hu : u ∈ o) :
    units.get u.id = some (settleUnit units res u) :=
  Table.get_eq_some_iff.mpr ⟨by rw [h.rows]; exact List.mem_map_of_mem hu, rfl⟩

theorem of_get (h : Consistent o units res) {id : PlayUnitId} (hu : units.get id = some u) :
    ∃ u₀ ∈ o, u₀.id = id ∧ u = settleUnit units res u₀ := by
  have mem := Table.mem_of_get hu
  rw [h.rows] at mem
  obtain ⟨u₀, hu₀, e⟩ := List.mem_map.mp mem
  have key : u.id = id := Table.key_of_get hu
  refine ⟨u₀, hu₀, ?_, e.symm⟩
  rw [← key, ← e]
  rfl

theorem of_mem (h : Consistent o units res) (hu : u ∈ units.rows) :
    ∃ u₀ ∈ o, u₀.id = u.id ∧ u = settleUnit units res u₀ :=
  h.of_get (Table.get_eq_some_iff.mpr ⟨hu, rfl⟩)

theorem ids (h : Consistent o units res) : units.rows.map PlayUnit.id = o.map PlayUnit.id := by
  rw [h.rows, List.map_map]
  rfl

theorem fresh (wf : WellFormed o) (h : units.rows = o) : Consistent o units (fun _ => none) where
  rows := by
    have same : ∀ u ∈ o, settleUnit units (fun _ => none) u = u := by
      intro u hu
      rcases wf.shape u hu with concrete | ⟨hA, hB, ⟨f, _, t, ha⟩, g, _, t', hb⟩
      · exact settleUnit_concrete concrete
      · simp only [settleUnit, settleSide, settleSlot, ha, hb, BracketSlot.refreshSide]
        rw [← ha, ← hb]
    rw [h, List.map_congr_left same, List.map_id']
  supported := by simp
  known := by simp

/-- **Results determine the units.** Two consistent tables agree on every set of units that is
closed under dependencies and on which their results agree. -/
theorem unique (wf : WellFormed o) {S : PlayUnitId → Prop}
    (closed : ∀ u ∈ o, S u.id → ∀ d ∈ u.dependencies, S d) (h : Consistent o units res)
    (h' : Consistent o units' res') (agree : ∀ id, S id → res id = res' id) :
    ∀ u ∈ o, S u.id → units.get u.id = units'.get u.id := by
  refine wf.ordered.induction (P := fun id => S id → units.get id = units'.get id) (by simp) ?_
  intro u hu ih hS
  rw [h.get hu, h'.get hu]
  refine congrArg some (settleUnit_congr (wf.shape u hu) (fun d hd => ?_))
  have hSd := closed u hu hS d hd
  exact ⟨agree d hSd, ih d hd hSd⟩

theorem rows_unique (wf : WellFormed o) (h : Consistent o units res)
    (h' : Consistent o units' res) : units = units' := by
  have same := unique wf (S := fun _ => True) (fun _ _ _ _ _ => trivial) h h' (fun _ _ => rfl)
  refine Table.ext ?_
  rw [h.rows, h'.rows]
  refine List.map_congr_left (fun u hu => ?_)
  have := same u hu trivial
  rw [h.get hu, h'.get hu] at this
  exact Option.some.inj this

end Consistent

/-! ## Propagation settles -/

theorem resolveSlot_of_not_fedBy {recorded : PlayUnit} {slot : BracketSlot}
    (h : ¬ slot.FedBy recorded.id) : resolveSlot recorded r slot = slot := by
  cases slot with
  | participant p => rfl
  | feeder id take =>
    have : id ≠ recorded.id := by simpa using h
    simp [resolveSlot, this]

/-- A slot that waits for a unit with a result takes the same from it in both tables. -/
def SameFed (units units' : PlayUnits) (res : PlayUnitId → Option Result) (slot : BracketSlot) :
    Prop :=
  ∀ id take result, slot = .feeder id take → res id = some result →
    (units'.get id).map (·.fed result take) = (units.get id).map (·.fed result take)

theorem SameFed.of_frozen {slot : BracketSlot}
    (frozen : ∀ id, (res id).isSome → units'.get id = units.get id) :
    SameFed units units' res slot := by
  intro id take result _ hr
  rw [frozen id (by simp [hr])]

theorem resolveSlot_settleSlot {recorded : PlayUnit} (slot : BracketSlot)
    (new : res recorded.id = none) (self : units'.get recorded.id = some recorded)
    (same : SameFed units units' res slot) :
    resolveSlot recorded r (settleSlot units res slot) =
      settleSlot units' (Function.update res recorded.id (some r)) slot := by
  cases slot with
  | participant p => rfl
  | feeder id take =>
    by_cases hid : id = recorded.id
    · subst hid
      simp [settleSlot, resolveSlot, new, self]
    · cases hr : res id with
      | none => simp [settleSlot, resolveSlot, hr, hid, Function.update_of_ne]
      | some result =>
        have fed := same id take result rfl hr
        rw [settleSlot, settleSlot, Function.update_of_ne hid, hr]
        cases hu : units.get id with
        | none =>
          rw [hu, Option.map_none, Option.map_eq_none_iff] at fed
          simp [resolveSlot, hid, fed]
        | some feeder =>
          rw [hu, Option.map_some, Option.map_eq_some_iff] at fed
          obtain ⟨feeder', hu', fed⟩ := fed
          simp [resolveSlot, hu', fed]

theorem refreshSide_resolveSlot {recorded : PlayUnit} (slot : BracketSlot) :
    (resolveSlot recorded r slot).refreshSide (slot.refreshSide []) =
      (resolveSlot recorded r slot).refreshSide [] := by
  cases slot with
  | participant p => rfl
  | feeder id take => rfl

theorem refresh_settleUnit {recorded unit : PlayUnit} (waiting : unit.Waiting)
    (new : res recorded.id = none) (self : units'.get recorded.id = some recorded)
    (same : ∀ X, SameFed units units' res (unit.slot X)) :
    refreshPlayUnitSides { settleUnit units res unit with
        slotA := resolveSlot recorded r (settleUnit units res unit).slotA
        slotB := resolveSlot recorded r (settleUnit units res unit).slotB } =
      settleUnit units' (Function.update res recorded.id (some r)) unit := by
  obtain ⟨hA, hB, ⟨f, _, t, ha⟩, g, _, t', hb⟩ := waiting
  have slot := fun X => resolveSlot_settleSlot (r := r) _ new self (same X)
  have side : ∀ X, (settleSlot units' (Function.update res recorded.id (some r))
        (unit.slot X)).refreshSide ((settleSlot units res (unit.slot X)).refreshSide []) =
      (settleSlot units' (Function.update res recorded.id (some r))
        (unit.slot X)).refreshSide [] := by
    intro X
    rw [← slot X]
    exact refreshSide_resolveSlot _
  have slotA := slot .A
  have slotB := slot .B
  have sideA := side .A
  have sideB := side .B
  simp only [PlayUnit.slot, ha, hb] at slotA slotB sideA sideB
  simp only [refreshPlayUnitSides, settleUnit, settleSide, ha, hb, hA, hB, slotA, slotB, sideA,
    sideB]

theorem receive_settleUnit {recorded unit : PlayUnit} (shape : unit.Concrete ∨ unit.Waiting)
    (sameEvent : recorded.id ∈ unit.dependencies → unit.eventId = recorded.eventId)
    (new : res recorded.id = none) (self : units'.get recorded.id = some recorded)
    (same : ∀ X, SameFed units units' res (unit.slot X)) :
    receive recorded r (settleUnit units res unit) =
      settleUnit units' (Function.update res recorded.id (some r)) unit := by
  rcases shape with concrete | waiting
  · rw [settleUnit_concrete concrete, settleUnit_concrete concrete, receive, if_neg]
    rintro ⟨-, hd, -⟩
    simp [concrete.1] at hd
  · rw [← refresh_settleUnit waiting new self same, receive]
    split
    · rfl
    · next h =>
      obtain ⟨hA, hB, ⟨f, hf, t, ha⟩, g, hg, t', hb⟩ := waiting
      -- a unit that receives nothing has no slot that waits for the recorded one
      have slots : ¬ (settleUnit units res unit).slotA.FedBy recorded.id ∧
          ¬ (settleUnit units res unit).slotB.FedBy recorded.id := by
        by_cases hd : recorded.id ∈ unit.dependencies
        · exact not_or.mp (fun hs => h ⟨sameEvent hd, hd, hs⟩)
        · have left : f ≠ recorded.id := fun e => hd (e ▸ hf)
          have right : g ≠ recorded.id := fun e => hd (e ▸ hg)
          simp only [settleUnit, ha, hb, settleSlot]
          constructor
          · split <;> simp [left]
          · split <;> simp [right]
      rw [resolveSlot_of_not_fedBy slots.1, resolveSlot_of_not_fedBy slots.2]
      simp only [refreshPlayUnitSides, settleUnit, settleSide, ha, hb, hA, hB]
      cases settleSlot units res (.feeder f t) <;> cases settleSlot units res (.feeder g t') <;> rfl

namespace Consistent

theorem frozen (h : Consistent o units res) {recorded : PlayUnit} (new : res recorded.id = none)
    (hu : u ∈ units.rows) (settled : (res u.id).isSome ∨ ∀ d ∈ u.dependencies, (res d).isSome)
    (r : Result) :
    receive recorded r u = u := by
  obtain ⟨u₀, hu₀, hid, rfl⟩ := h.of_mem hu
  have deps : ∀ d ∈ u₀.dependencies, (res d).isSome := by
    rcases settled with settled | settled
    · exact h.supported u₀ hu₀ settled
    · exact settled
  rw [receive, if_neg]
  rintro ⟨-, hd, -⟩
  have := deps recorded.id hd
  simp [new] at this

theorem get_receive (h : Consistent o units res) {recorded : PlayUnit}
    (new : res recorded.id = none) (r : Result) {id : PlayUnitId}
    (settled : (res id).isSome ∨ ∀ u, units.get id = some u → ∀ d ∈ u.dependencies, (res d).isSome) :
    (units.update (receive recorded r) (receive_id recorded r)).get id = units.get id := by
  rw [Table.get_update]
  cases hu : units.get id with
  | none => rfl
  | some u =>
    have key : u.id = id := Table.key_of_get hu
    refine congrArg some (h.frozen new (Table.mem_of_get hu) ?_ r)
    rcases settled with settled | settled
    · exact Or.inl (key ▸ settled)
    · exact Or.inr (settled u hu)

/-- **Storing one result and propagating it keeps the units settled.** -/
theorem record (wf : WellFormed o) (h : Consistent o units res) {recorded : PlayUnit}
    (hu : units.get recorded.id = some recorded) (new : res recorded.id = none)
    (ready : ∀ d ∈ recorded.dependencies, (res d).isSome) (r : Result) :
    Consistent o (units.update (receive recorded r) (receive_id recorded r))
      (Function.update res recorded.id (some r)) where
  rows := by
    obtain ⟨v, hv, hid, hrec⟩ := h.of_get hu
    have self : (units.update (receive recorded r) (receive_id recorded r)).get recorded.id =
        some recorded := by
      rw [h.get_receive new r (Or.inr ?_), hu]
      intro u hu' d hd
      rw [hu] at hu'
      cases hu'
      exact ready d hd
    have frozen : ∀ id, (res id).isSome →
        (units.update (receive recorded r) (receive_id recorded r)).get id = units.get id :=
      fun id hs => h.get_receive new r (Or.inl hs)
    have rows : (units.update (receive recorded r) (receive_id recorded r)).rows =
        units.rows.map (receive recorded r) := rfl
    rw [rows, h.rows, List.map_map]
    refine List.map_congr_left (fun u hu' => ?_)
    refine receive_settleUnit (wf.shape u hu') (fun hd => ?_) new self fun _ => .of_frozen frozen
    have := wf.sameEvent u hu' v hv (hid ▸ hd)
    rw [hrec, settleUnit_eventId, this]
  supported := by
    intro u hu' hs d hd
    obtain ⟨v, hv, hid, hrec⟩ := h.of_get hu
    have kept : ∀ d, (res d).isSome → (Function.update res recorded.id (some r) d).isSome := by
      intro d hd
      by_cases e : d = recorded.id
      · simp [e]
      · rw [Function.update_of_ne e]; exact hd
    by_cases e : u.id = recorded.id
    · have : u = v := wf.eq_of_id_eq hu' hv (e.trans hid.symm)
      subst this
      refine kept d (ready d ?_)
      rw [hrec]
      exact hd
    · rw [Function.update_of_ne e] at hs
      exact kept d (h.supported u hu' hs d hd)
  known := by
    intro id hs
    by_cases e : id = recorded.id
    · obtain ⟨v, hv, hid, -⟩ := h.of_get hu
      exact ⟨v, hv, e ▸ hid⟩
    · rw [Function.update_of_ne e] at hs
      exact h.known id hs

end Consistent

end Brackets
