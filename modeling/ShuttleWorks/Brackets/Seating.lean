import ShuttleWorks.Brackets.Formats.Segments
import ShuttleWorks.Brackets.Reload

/-! Where participants sit. A consistent table is built by storing its results one
after the other in dependency order; along that order a participant moves from one
slot to one other, so nobody sits twice among the units that are still open. -/

namespace Brackets
open Lib

variable {o : List PlayUnit} {units units' : PlayUnits} {res res' : PlayUnitId → Option Result}
  {r : Result} {u : PlayUnit} {x : ParticipantId} {i : PlayUnit.Place} {D : List PlayUnit}

/-! ## Results one after the other -/

theorem visited_append_none {seen : List PlayUnitId} {id : PlayUnitId} (h : res id = none) :
    visited res (seen ++ [id]) = visited res seen := by
  funext x
  by_cases e : x = id
  · simp [visited, e, h]
  · simp [visited, e]

theorem visited_append_some {seen : List PlayUnitId} {id : PlayUnitId} (h : res id = some r) :
    visited res (seen ++ [id]) = Function.update (visited res seen) id (some r) := by
  funext x
  by_cases e : x = id
  · subst e
    simp [visited, h]
  · simp [visited, e]

/-- **Induction over the results of a consistent table**: what the fresh units have, and storing
one more result that is due keeps, it has. -/
theorem Consistent.induction {P : PlayUnits → (PlayUnitId → Option Result) → Prop}
    (wf : WellFormed o) (fresh : ∀ units, units.rows = o → P units fun _ => none)
    (step : ∀ units res recorded r, Consistent o units res → P units res →
      units.get recorded.id = some recorded → res recorded.id = none →
      (∀ d ∈ recorded.dependencies, (res d).isSome) →
      P (units.update (receive recorded r) (receive_id recorded r))
        (Function.update res recorded.id (some r)))
    (h : Consistent o units res) : P units res := by
  -- the units before a place of the order have their results, the others have none
  have build : ∀ l m, o = l ++ m → ∃ t : PlayUnits,
      Consistent o t (visited res (l.map PlayUnit.id)) ∧ P t (visited res (l.map PlayUnit.id)) := by
    intro l
    induction l using List.reverseRecOn with
    | nil =>
      intro m _
      have start : visited res [] = fun _ => none := by
        funext id
        simp [visited]
      simp only [List.map_nil, start]
      exact ⟨⟨o, wf.unique⟩, Consistent.fresh wf rfl, fresh _ rfl⟩
    | append_singleton l x ih =>
      intro m split
      obtain ⟨t, ht, hP⟩ := ih (x :: m) (by rw [split]; simp)
      rw [List.map_append, List.map_cons, List.map_nil]
      cases hr : res x.id with
      | none =>
        rw [visited_append_none hr]
        exact ⟨t, ht, hP⟩
      | some r =>
        have hx : x ∈ o := by
          rw [split]
          simp
        have stored : t.get (settleUnit t (visited res (l.map PlayUnit.id)) x).id =
            some (settleUnit t (visited res (l.map PlayUnit.id)) x) := ht.get hx
        have new : x.id ∉ l.map PlayUnit.id := by
          have nodup := wf.unique
          rw [split, List.map_append, List.map_append, List.append_assoc,
            List.nodup_append] at nodup
          intro hmem
          exact nodup.2.2 x.id hmem x.id (by simp) rfl
        have ready : ∀ d ∈ x.dependencies, (visited res (l.map PlayUnit.id) d).isSome := by
          intro d hd
          have ordered := wf.ordered
          rw [split, List.append_assoc] at ordered
          have before := ordered.of_append.2.1 d hd
          simp only [List.append_nil] at before
          simp only [visited, if_pos before]
          exact h.supported x hx (by simp [hr]) d hd
        have none : visited res (l.map PlayUnit.id) x.id = none := by simp [visited, new]
        rw [visited_append_some hr]
        exact ⟨_, ht.record wf stored none ready r,
          step t _ (settleUnit t _ x) r ht hP stored none ready⟩
  obtain ⟨t, ht, hP⟩ := build o [] (by simp)
  have all : visited res (o.map PlayUnit.id) = res := by
    funext id
    by_cases hid : id ∈ o.map PlayUnit.id
    · simp only [visited, if_pos hid]
    · simp only [visited, if_neg hid]
      by_contra hn
      obtain ⟨u, hu, e⟩ := h.known id (Option.isSome_iff_ne_none.mpr (Ne.symm hn))
      exact hid (e ▸ List.mem_map_of_mem hu)
  rw [all] at ht hP
  rwa [h.rows_unique wf ht]

/-! ## Sides -/

def sideAt (units : PlayUnits) (res : PlayUnitId → Option Result) (u : PlayUnit)
    (i : PlayUnit.Place) : Side :=
  (settleUnit units res u).side i

theorem sideAt_eq (u : PlayUnit) (i : PlayUnit.Place) :
    sideAt units res u i = settleSide units res (u.slot i) (u.side i) := by
  cases i <;> rfl

theorem mem_sideAt_update {recorded : PlayUnit} (self : units'.get recorded.id = some recorded)
    (frozen : ∀ id, (res id).isSome → units'.get id = units.get id)
    (sides : u.side i = sideOf (u.slot i))
    (hx : x ∈ sideAt units' (Function.update res recorded.id (some r)) u i) :
    x ∈ sideAt units res u i ∨
      ∃ take, u.slot i = .feeder recorded.id take ∧ recorded.fed r take = some x := by
  rw [sideAt_eq] at hx ⊢
  rw [sides] at hx ⊢
  cases hs : u.slot i with
  | participant p =>
    rw [hs] at hx
    exact Or.inl hx
  | feeder id take =>
    rw [hs] at hx
    by_cases hid : id = recorded.id
    · subst hid
      refine Or.inr ⟨take, rfl, ?_⟩
      simp only [settleSide, settleSlot, Function.update_self, self, BracketSlot.refreshSide] at hx
      split at hx
      · cases hx
      · next real =>
        rw [List.mem_singleton] at hx
        subst hx
        cases fed : recorded.fed r take with
        | none =>
          rw [fed] at real
          exact absurd rfl real
        | some p =>
          rw [fed, orBye] at real
          rw [orBye]
          split at real
          · exact absurd rfl real
          · next ne => rw [if_neg ne]
    · left
      cases hr : res id with
      | none =>
        simp only [settleSide, settleSlot, Function.update_of_ne hid, hr] at hx ⊢
        exact hx
      | some r' =>
        simp only [settleSide, settleSlot, Function.update_of_ne hid, hr, frozen id (by simp [hr])]
          at hx ⊢
        exact hx

def fedPlace : WinnerSide → FeederTake → Option PlayUnit.Place
  | .A, .winner | .B, .loser => some .A
  | .B, .winner | .A, .loser => some .B
  | .NONE, _ => none

theorem fedPlace_inj {w : WinnerSide} {take take' : FeederTake} (h : fedPlace w take = some i)
    (h' : fedPlace w take' = some i) : take = take' := by
  cases w <;> cases take <;> cases take' <;> cases i <;> simp_all [fedPlace]

theorem mem_side_of_fed {take : FeederTake} (h : u.fed r take = some x) :
    ∃ i, fedPlace r.winnerSide take = some i ∧ x ∈ u.side i := by
  have head : ∀ {l : Side}, l.head? = some x → x ∈ l := fun h => List.mem_of_mem_head? h
  cases take with
  | winner =>
    cases hw : r.winnerSide with
    | A =>
      simp only [PlayUnit.fed, PlayUnit.winnerParticipantId, hw] at h
      exact ⟨.A, rfl, head h⟩
    | B =>
      simp only [PlayUnit.fed, PlayUnit.winnerParticipantId, hw] at h
      exact ⟨.B, rfl, head h⟩
    | NONE => simp [PlayUnit.fed, PlayUnit.winnerParticipantId, hw] at h
  | loser =>
    rw [PlayUnit.fed, PlayUnit.loserParticipantId] at h
    split at h
    · cases h
    · cases hw : r.winnerSide with
      | A =>
        simp only [hw] at h
        exact ⟨.B, rfl, head h⟩
      | B =>
        simp only [hw] at h
        exact ⟨.A, rfl, head h⟩
      | NONE => simp [hw] at h

/-! ## Nobody sits twice -/

/-- Among these units nobody sits on two sides of units without a result, nor on both sides of one. -/
structure Apart (D : List PlayUnit) (units : PlayUnits) (res : PlayUnitId → Option Result) :
    Prop where
  pending : ∀ u ∈ D, ∀ v ∈ D, res u.id = none → res v.id = none → ∀ i j x,
    x ∈ sideAt units res u i → x ∈ sideAt units res v j → u = v ∧ i = j
  both : ∀ u ∈ D, ∀ x, x ∈ sideAt units res u .A → x ∉ sideAt units res u .B

theorem sideAt_fresh {units : PlayUnits} (sides : ∀ i, u.side i = sideOf (u.slot i))
    (i : PlayUnit.Place) : sideAt units (fun _ => none) u i = sideOf (u.slot i) := by
  rw [sideAt_eq, sides i]
  cases u.slot i with
  | participant p => rfl
  | feeder f t => rfl

theorem mem_sideOf {slot : BracketSlot} (h : x ∈ sideOf slot) :
    slot = .participant x ∧ x ≠ BYE := by
  cases slot with
  | participant p =>
    rw [sideOf] at h
    split at h
    · cases h
    · next hne =>
      rw [List.mem_singleton] at h
      exact ⟨by rw [h], h ▸ hne⟩
  | feeder f t => cases h

theorem Apart.step (wf : WellFormed o) (hD : ∀ u ∈ D, u ∈ o)
    (closed : ∀ u ∈ D, ∀ v ∈ o, v.id ∈ u.dependencies → v ∈ D) (once : FedOnce D)
    (feeders : ∀ u ∈ D, u.DependsOnFeeders) (sides : ∀ u ∈ D, ∀ i, u.side i = sideOf (u.slot i))
    (hc : Consistent o units res) (h : Apart D units res) {recorded : PlayUnit}
    (stored : units.get recorded.id = some recorded) (new : res recorded.id = none)
    (ready : ∀ d ∈ recorded.dependencies, (res d).isSome) :
    Apart D (units.update (receive recorded r) (receive_id recorded r))
      (Function.update res recorded.id (some r)) := by
  obtain ⟨w, hw, hid, hrec⟩ := hc.of_get stored
  obtain ⟨after, hafter⟩ : ∃ t, t = units.update (receive recorded r) (receive_id recorded r) :=
    ⟨_, rfl⟩
  have frozen : ∀ id, (res id).isSome → after.get id = units.get id := by
    intro id hs
    rw [hafter]
    exact hc.get_receive new r (Or.inl hs)
  have self : after.get recorded.id = some recorded := by
    rw [hafter, hc.get_receive new r (Or.inr ?_), stored]
    intro u hu d hd
    rw [stored] at hu
    cases hu
    exact ready d hd
  rw [← hafter]
  -- a side that is fed is fed by a unit of the draw, from one of its sides
  have moved : ∀ u ∈ D, ∀ i x,
      x ∈ sideAt after (Function.update res recorded.id (some r)) u i →
      x ∈ sideAt units res u i ∨ (w ∈ D ∧ ∃ take k, u.slot i = .feeder recorded.id take ∧
        fedPlace r.winnerSide take = some k ∧ x ∈ sideAt units res w k) := by
    intro u hu i x hx
    rcases mem_sideAt_update self frozen (sides u hu i) hx with hx | ⟨take, hs, fed⟩
    · exact Or.inl hx
    · obtain ⟨k, hk, hxk⟩ := mem_side_of_fed fed
      rw [hrec] at hxk
      refine Or.inr ⟨closed u hu w hw ?_, take, k, hs, hk, hxk⟩
      rw [hid, feeders u hu]
      cases i with
      | A => exact Or.inl (by rw [show u.slotA = _ from hs]; simp)
      | B => exact Or.inr (by rw [show u.slotB = _ from hs]; simp)
  have open_of : ∀ {u : PlayUnit}, Function.update res recorded.id (some r) u.id = none →
      u.id ≠ w.id ∧ res u.id = none := by
    intro u hu
    have hne : u.id ≠ recorded.id := by
      intro e
      rw [e, Function.update_self] at hu
      cases hu
    rw [Function.update_of_ne hne] at hu
    exact ⟨hid ▸ hne, hu⟩
  have pending : ∀ u ∈ D, ∀ v ∈ D, Function.update res recorded.id (some r) u.id = none →
      Function.update res recorded.id (some r) v.id = none → ∀ i j x,
      x ∈ sideAt after (Function.update res recorded.id (some r)) u i →
      x ∈ sideAt after (Function.update res recorded.id (some r)) v j → u = v ∧ i = j := by
    intro u hu v hv nu nv i j x hx hy
    obtain ⟨uw, nu⟩ := open_of nu
    obtain ⟨vw, nv⟩ := open_of nv
    rcases moved u hu i x hx with hx | ⟨hwD, t, k, hs, hk, hxk⟩ <;>
      rcases moved v hv j x hy with hy | ⟨hwD', t', k', hs', hk', hyk⟩
    · exact h.pending u hu v hv nu nv i j x hx hy
    · exact absurd (congrArg PlayUnit.id
        (h.pending u hu w hwD' nu (hid ▸ new) i k' x hx hyk).1) uw
    · exact absurd (congrArg PlayUnit.id
        (h.pending v hv w hwD nv (hid ▸ new) j k x hy hxk).1) vw
    · obtain ⟨-, rfl⟩ := h.pending w hwD w hwD (hid ▸ new) (hid ▸ new) k k' x hxk hyk
      obtain rfl := fedPlace_inj hk hk'
      exact once u hu v hv i j _ _ hs hs'
  refine ⟨pending, ?_⟩
  intro u hu x hx hy
  by_cases nu : Function.update res recorded.id (some r) u.id = none
  · have := (pending u hu u hu nu nu .A .B x hx hy).2
    cases this
  · -- a unit with a result, or about to get one, keeps its sides
    have settled : settleUnit after (Function.update res recorded.id (some r)) u =
        settleUnit units res u := by
      refine settleUnit_congr (wf.shape u (hD u hu)) (fun d hd => ?_)
      have hd' : (res d).isSome := by
        by_cases e : u.id = recorded.id
        · obtain rfl := wf.eq_of_id_eq (hD u hu) hw (e.trans hid.symm)
          refine ready d ?_
          rw [hrec]
          exact hd
        · rw [Function.update_of_ne e] at nu
          exact hc.supported u (hD u hu) (Option.isSome_iff_ne_none.mpr nu) d hd
      refine ⟨Function.update_of_ne ?_ _ _, frozen d hd'⟩
      rintro rfl
      rw [new] at hd'
      cases hd'
    rw [sideAt, settled] at hx hy
    exact h.both u hu x hx hy

/-- **Nobody sits twice.** In every consistent table the units of a routed draw seat each of its
distinct participants on one side of one open unit at most. -/
theorem Consistent.apart {participants : List Participant} (wf : WellFormed o) (hD : ∀ u ∈ D, u ∈ o)
    (closed : ∀ u ∈ D, ∀ v ∈ o, v.id ∈ u.dependencies → v ∈ D) (routed : Routed participants D)
    (distinct : (participants.map Participant.id).Nodup) (h : Consistent o units res) :
    Apart D units res := by
  refine h.induction wf ?_ ?_
  · intro units _
    have enters := routed.enters distinct
    have seated : ∀ {u : PlayUnit} {i x}, u ∈ D → x ∈ sideAt units (fun _ => none) u i →
        u.slot i = .participant x ∧ x ≠ BYE := by
      intro u i x hu hx
      rw [sideAt_fresh (routed.sides u hu)] at hx
      exact mem_sideOf hx
    constructor
    · intro u hu v hv _ _ i j x hx hy
      obtain ⟨hx, real⟩ := seated hu hx
      obtain ⟨hy, -⟩ := seated hv hy
      exact enters u hu v hv i j x real hx hy
    · intro u hu x hx hy
      obtain ⟨hx, real⟩ := seated hu hx
      obtain ⟨hy, -⟩ := seated hu hy
      cases (enters u hu u hu .A .B x real hx hy).2
  · intro units res recorded r hc hP stored new ready
    exact hP.step wf hD closed routed.once routed.feeders routed.sides hc stored new ready

end Brackets
