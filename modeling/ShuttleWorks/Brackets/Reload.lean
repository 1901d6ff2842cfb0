import ShuttleWorks.Brackets.Registration
import ShuttleWorks.Lib.Grid

/-! Reconciliation against incremental propagation. In a settled state it finds
no slot to fill; from the freshly drawn units and the results alone it comes, round
by round, to the units the incremental propagation left. -/

namespace Brackets
open Lib

variable {o : List PlayUnit} {units : PlayUnits} {res : PlayUnitId → Option Result}
  {allowed : PlayUnitId → Result → Prop} {ds : List Draw} {s s' : TournamentState} {u : PlayUnit}
  {t : TournamentState}

/-! ## A settled state has nothing to fill -/

theorem settleSlot_not_fedBy (h : Consistent o units res) {id : PlayUnitId}
    (hr : (res id).isSome) {slot : BracketSlot} :
    ¬ (settleSlot units res slot).FedBy id := by
  cases slot with
  | participant p => simp [settleSlot]
  | feeder f take =>
    by_cases hf : f = id
    · subst hf
      obtain ⟨u, hu, rfl⟩ := h.known f hr
      obtain ⟨r, hr⟩ := Option.isSome_iff_exists.mp hr
      simp [settleSlot, hr, h.get hu]
    · rw [settleSlot]
      split
      · exact BracketSlot.fedBy_participant _ _
      · exact fun fed => hf ((BracketSlot.fedBy_feeder _ _ _).mp fed)

theorem not_awaits (h : Consistent o units res) {recorded : PlayUnit}
    (hr : (res recorded.id).isSome) (hu : u ∈ units.rows) : ¬ Awaits recorded u := by
  obtain ⟨u₀, hu₀, -, rfl⟩ := h.of_mem hu
  rintro ⟨-, -, ⟨fed, -⟩ | ⟨fed, -⟩⟩
  · exact settleSlot_not_fedBy h hr fed
  · exact settleSlot_not_fedBy h hr fed

def Quiet (s : TournamentState) : Prop :=
  ∀ recorded ∈ s.playUnits.rows, s.Resulted recorded.id → ∀ u ∈ s.playUnits.rows,
    ¬ Awaits recorded u

theorem Sound.quiet (hs : Sound o allowed s) : Quiet s :=
  fun _ _ hr _ hu => not_awaits hs.consistent hr hu

theorem Quiet.congr (hs : Quiet s) (units : ∀ id, s'.playUnits.get id = s.playUnits.get id)
    (results : s'.result = s.result) : Quiet s' := by
  have mem : ∀ u ∈ s'.playUnits.rows, u ∈ s.playUnits.rows := fun u hu =>
    Table.mem_of_get ((units u.id).symm.trans (Table.get_eq_some_iff.mpr ⟨hu, rfl⟩))
  intro recorded hrec hr u hu
  rw [TournamentState.Resulted, results] at hr
  exact hs recorded (mem recorded hrec) hr u (mem u hu)

theorem Quiet.reconcileUnit (hs : Quiet s) (id : PlayUnitId) :
    reconcileUnit (s, []) id = (s, []) := by
  unfold Brackets.reconcileUnit
  split
  · next r unit hr hu =>
    dsimp only at hr hu
    have key : unit.id = id := Table.key_of_get hu
    have idle : ∀ u ∈ s.playUnits.rows, ¬ Awaits unit u :=
      hs unit (Table.mem_of_get hu) (by rw [TournamentState.Resulted, key, hr]; rfl)
    split
    · rfl
    · have units : s.playUnits.update (fill unit r) (fill_id unit r) = s.playUnits := by
        refine Table.ext ((List.map_congr_left (fun u hu' => ?_)).trans (List.map_id' _))
        rw [fill, if_neg (idle u hu')]
      have changed : (s.playUnits.rows.filter fun u => Awaits unit u) = [] := by
        rw [List.filter_eq_nil_iff]
        intro u hu'
        simpa using idle u hu'
      simp only [propagateIntoEmptySlots, units, changed, List.map_nil]
      rfl
  · rfl

theorem Quiet.reconcile (hs : Quiet s) (rounds : List (List (List PlayUnitId))) :
    reconcileRecordedResults s rounds = (s, []) := by
  unfold reconcileRecordedResults
  have round : ∀ ids : List PlayUnitId, ids.foldl Brackets.reconcileUnit (s, []) = (s, []) := by
    intro ids
    induction ids with
    | nil => rfl
    | cons id ids ih => rw [List.foldl_cons, hs.reconcileUnit id, ih]
  have draw : ∀ rounds : List (List PlayUnitId),
      rounds.foldl (fun w round => round.foldl Brackets.reconcileUnit w) (s, []) = (s, []) := by
    intro rounds
    induction rounds with
    | nil => rfl
    | cons ids rounds ih => rw [List.foldl_cons, round ids, ih]
  induction rounds with
  | nil => rfl
  | cons r rounds ih => rw [List.foldl_cons, draw r, ih]

/-! ## Rounds as an order of the units -/

def dependenciesOf (o : List PlayUnit) (id : PlayUnitId) : List PlayUnitId :=
  ((o.find? fun u => u.id = id).map PlayUnit.dependencies).getD []

theorem WellFormed.dependenciesOf (wf : WellFormed o) (hu : u ∈ o) :
    dependenciesOf o u.id = u.dependencies := by
  have found : o.find? (fun v => v.id = u.id) = some u := by
    cases hf : o.find? (fun v => v.id = u.id) with
    | none => exact absurd (List.find?_eq_none.mp hf u hu) (by simp)
    | some v =>
      have hid : v.id = u.id := by simpa using List.find?_some hf
      rw [wf.eq_of_id_eq (List.mem_of_find?_eq_some hf) hu hid]
  simp [Brackets.dependenciesOf, found]

theorem Drawn.ordered_rounds {d : Draw} (hd : Drawn d) :
    Ordered id (dependenciesOf d.playUnits.rows) [] d.rounds.flatten := by
  refine Ordered.flatten (fun n i x hx y hy => ?_)
  obtain ⟨round, hr, hx⟩ := hx
  have inRound : d.InRound n x := ⟨round, hr, List.mem_of_getElem? hx⟩
  obtain ⟨u, hu, rfl⟩ := hd.mem_of_inRound inRound
  rw [hd.units.dependenciesOf hu] at hy
  obtain ⟨m, hm, r, hr', hy'⟩ := hd.earlier u hu n inRound y hy
  obtain ⟨j, hj⟩ := List.getElem?_of_mem hy'
  exact Or.inr ⟨m, hm, j, y, ⟨r, hr', hj⟩, rfl⟩

/-! ## Rebuilding from the results alone -/

def visited (res : PlayUnitId → Option Result) (seen : List PlayUnitId) (id : PlayUnitId) :
    Option Result :=
  if id ∈ seen then res id else none

theorem fill_eq_receive (wf : WellFormed o) (h : Consistent o units res) {recorded : PlayUnit}
    (r : Result) (hu : u ∈ units.rows) : fill recorded r u = receive recorded r u := by
  obtain ⟨u₀, hu₀, -, rfl⟩ := h.of_mem hu
  rcases wf.shape u₀ hu₀ with concrete | ⟨hA, hB, ⟨f, _, t, ha⟩, g, _, t', hb⟩
  · rw [settleUnit_concrete concrete, fill, receive, if_neg, if_neg]
    · rintro ⟨-, hd, -⟩
      simp [concrete.1] at hd
    · rintro ⟨-, hd, -⟩
      simp [concrete.1] at hd
  · -- a slot that still waits leaves its side empty
    have side : ∀ {slot : BracketSlot} {f t}, slot = .feeder f t →
        (settleSlot units res slot).FedBy recorded.id →
        (settleSlot units res slot).refreshSide [] = [] := by
      intro slot f t e fed
      cases h : settleSlot units res slot with
      | participant p => simp [h] at fed
      | feeder f t => rfl
    have slot : ∀ {slot : BracketSlot} {f t}, slot = .feeder f t →
        fillSlot recorded r ((settleSlot units res slot).refreshSide []) (settleSlot units res slot) =
          resolveSlot recorded r (settleSlot units res slot) := by
      intro slot f t e
      unfold fillSlot
      split
      · rfl
      · next hne =>
        exact (resolveSlot_of_not_fedBy (fun fed => hne (side e fed))).symm
    have awaits : Awaits recorded (settleUnit units res u₀) ↔
        Receives recorded (settleUnit units res u₀) := by
      unfold Awaits Receives
      simp only [settleUnit, settleSide, ha, hb, hA, hB]
      constructor
      · rintro ⟨he, hd, ⟨fed, -⟩ | ⟨fed, -⟩⟩
        · exact ⟨he, hd, Or.inl fed⟩
        · exact ⟨he, hd, Or.inr fed⟩
      · rintro ⟨he, hd, fed | fed⟩
        · exact ⟨he, hd, Or.inl ⟨fed, side rfl fed⟩⟩
        · exact ⟨he, hd, Or.inr ⟨fed, side rfl fed⟩⟩
    unfold fill receive
    by_cases hr : Receives recorded (settleUnit units res u₀)
    · rw [if_pos hr, if_pos (awaits.mpr hr)]
      simp only [settleUnit, settleSide, ha, hb, hA, hB, slot rfl]
    · rw [if_neg hr, if_neg (fun ha => hr (awaits.mp ha))]

theorem Decides.recoverable {unit : PlayUnit} {r : Result} (h : Decides allowed unit r) :
    ¬ Unrecoverable unit r := by
  rcases h with ⟨side, hw, rfl⟩ | ⟨hn, -⟩
  · unfold walkoverSide at hw
    rintro (⟨hs, he⟩ | ⟨hs, he⟩) <;>
      cases hA : unit.sideA <;> cases hB : unit.sideB <;>
      simp_all [walkover]
  · obtain ⟨hA, hB⟩ := walkoverSide_eq_none_iff.mp hn
    rintro (⟨-, h⟩ | ⟨-, h⟩)
    · exact hA h
    · exact hB h

/-- What reconciliation carries when it has visited `seen`: the units settled by their results. -/
structure Rebuilding (o : List PlayUnit) (s : TournamentState) (seen : List PlayUnitId)
    (t : TournamentState) : Prop where
  consistent : Consistent o t.playUnits (visited s.result seen)
  results : t.results = s.results

theorem Rebuilding.step (wf : WellFormed o) (hs : Sound o allowed s) {seen : List PlayUnitId}
    {touched : List PlayUnitId} (h : Rebuilding o s seen t)
    (closed : ∀ u ∈ o, u.id ∈ seen → ∀ d ∈ u.dependencies, d ∈ seen) {x : PlayUnit} (hx : x ∈ o)
    (new : x.id ∉ seen) (ready : ∀ d ∈ x.dependencies, d ∈ seen) :
    Rebuilding o s (x.id :: seen) (reconcileUnit (t, touched) x.id).1 := by
  have result : t.result = s.result := by
    funext id
    simp [TournamentState.result, h.results]
  have stored := h.consistent.get hx
  cases hr : s.result x.id with
  | none =>
    have same : visited s.result (x.id :: seen) = visited s.result seen := by
      funext id
      by_cases e : id = x.id
      · simp [visited, e, hr]
      · simp [visited, e]
    have idle : (reconcileUnit (t, touched) x.id).1 = t := by
      simp [reconcileUnit, result, hr]
    rw [idle]
    exact ⟨same ▸ h.consistent, h.results⟩
  | some r =>
    have agree : ∀ id ∈ seen, visited s.result seen id = s.result id := by
      intro id hid
      simp [visited, hid]
    have units : ∀ d ∈ x.dependencies, t.playUnits.get d = s.playUnits.get d := by
      intro d hd
      obtain ⟨v, hv, rfl⟩ := wf.closed hx hd
      exact h.consistent.unique wf closed hs.consistent agree v hv (ready _ hd)
    -- the unit itself is already what it is in the state the results come from
    have final : settleUnit t.playUnits (visited s.result seen) x =
        settleUnit s.playUnits s.result x :=
      settleUnit_congr (wf.shape x hx) (fun d hd => ⟨agree d (ready d hd), units d hd⟩)
    have recoverable : ¬ Unrecoverable (settleUnit t.playUnits (visited s.result seen) x) r := by
      rw [final]
      exact (hs.explained x.id _ r (hs.consistent.get hx) hr).recoverable
    have settled : t.playUnits.get (settleUnit t.playUnits (visited s.result seen) x).id =
        some (settleUnit t.playUnits (visited s.result seen) x) := stored
    have next := h.consistent.record wf settled (by simp [visited, new]) (by
        intro d hd
        rw [agree d (ready d hd)]
        exact hs.consistent.supported x hx (by simp [hr]) d hd) r
    have res : Function.update (visited s.result seen) x.id (some r) =
        visited s.result (x.id :: seen) := by
      funext id
      by_cases e : id = x.id
      · subst e
        simp [visited, hr]
      · simp [visited, e]
    have rows : t.playUnits.update (fill (settleUnit t.playUnits (visited s.result seen) x) r)
          (fill_id _ r) =
        t.playUnits.update (receive (settleUnit t.playUnits (visited s.result seen) x) r)
          (receive_id _ r) := by
      refine Table.ext (List.map_congr_left (fun u hu => ?_))
      exact fill_eq_receive wf h.consistent r hu
    have out : (reconcileUnit (t, touched) x.id).1 = { t with
        playUnits := t.playUnits.update
          (fill (settleUnit t.playUnits (visited s.result seen) x) r) (fill_id _ r) } := by
      simp only [reconcileUnit, result, hr, stored]
      rw [if_neg recoverable]
      rfl
    rw [out, rows]
    rw [settleUnit_id, res] at next
    exact ⟨next, h.results⟩

theorem foldl_flatten {α β : Type} (f : β → α → β) (rounds : List (List α)) (w : β) :
    rounds.foldl (fun w round => round.foldl f w) w = rounds.flatten.foldl f w := by
  induction rounds generalizing w with
  | nil => rfl
  | cons round rounds ih => rw [List.foldl_cons, ih, List.flatten_cons, List.foldl_append]

theorem reconcileRecordedResults_eq (s : TournamentState) (rounds : List (List (List PlayUnitId))) :
    reconcileRecordedResults s rounds = rounds.flatten.flatten.foldl reconcileUnit (s, []) := by
  unfold reconcileRecordedResults
  rw [← foldl_flatten, ← foldl_flatten]

theorem Rebuilding.fold (wf : WellFormed o) (hs : Sound o allowed s) {ids seen : List PlayUnitId}
    {w : TournamentState × List PlayUnitId} (h : Rebuilding o s seen w.1)
    (closed : ∀ u ∈ o, u.id ∈ seen → ∀ d ∈ u.dependencies, d ∈ seen)
    (ordered : Ordered id (dependenciesOf o) seen ids) (nodup : ids.Nodup)
    (disjoint : ∀ id ∈ ids, id ∉ seen) (known : ∀ id ∈ ids, ∃ u ∈ o, u.id = id) :
    ∃ seen', (∀ id, id ∈ seen' ↔ id ∈ ids ∨ id ∈ seen) ∧
      Rebuilding o s seen' (ids.foldl reconcileUnit w).1 := by
  induction ids generalizing seen w with
  | nil => exact ⟨seen, by simp, h⟩
  | cons id ids ih =>
    obtain ⟨hready, hrest⟩ := ordered
    obtain ⟨x, hx, rfl⟩ := known id List.mem_cons_self
    simp only [List.nodup_cons] at nodup
    have ready : ∀ d ∈ x.dependencies, d ∈ seen := by
      rw [← wf.dependenciesOf hx]
      exact hready
    have step : Rebuilding o s (x.id :: seen) (reconcileUnit w x.id).1 :=
      h.step wf hs closed hx (disjoint x.id List.mem_cons_self) ready
    obtain ⟨seen', mem, last⟩ := ih step (by
        intro u hu hid d hd
        rcases List.mem_cons.mp hid with hid | hid
        · obtain rfl := wf.eq_of_id_eq hu hx hid
          exact List.mem_cons_of_mem _ (ready d hd)
        · exact List.mem_cons_of_mem _ (closed u hu hid d hd))
      hrest nodup.2 (by
        intro id hid hmem
        rcases List.mem_cons.mp hmem with rfl | hmem
        · exact nodup.1 hid
        · exact disjoint id (List.mem_cons_of_mem _ hid) hmem)
      (fun id hid => known id (List.mem_cons_of_mem _ hid))
    refine ⟨seen', fun id => ?_, last⟩
    rw [mem id]
    simp only [List.mem_cons]
    constructor
    · rintro (h | h | h)
      · exact Or.inl (Or.inr h)
      · exact Or.inl (Or.inl h)
      · exact Or.inr h
    · rintro ((h | h) | h)
      · exact Or.inr (Or.inl h)
      · exact Or.inl h
      · exact Or.inr (Or.inr h)

/-- **Reconciliation rebuilds the units** from the drawn ones and the results, along any order
of the units that respects their dependencies. -/
theorem Sound.rebuild (wf : WellFormed o) (hs : Sound o allowed s) (rows : t.playUnits.rows = o)
    (results : t.results = s.results) (rounds : List (List (List PlayUnitId)))
    (ordered : Ordered id (dependenciesOf o) [] rounds.flatten.flatten)
    (all : rounds.flatten.flatten.Perm (o.map PlayUnit.id)) :
    (reconcileRecordedResults t rounds).1.playUnits = s.playUnits := by
  have start : Rebuilding o s [] t := by
    refine ⟨?_, results⟩
    have : visited s.result [] = fun _ => none := by
      funext id
      simp [visited]
    rw [this]
    exact Consistent.fresh wf rows
  obtain ⟨seen, mem, last⟩ := start.fold (w := (t, [])) wf hs (by simp) ordered
    (all.nodup_iff.mpr wf.unique) (by simp) (fun id hid => by
      obtain ⟨u, hu, e⟩ := List.mem_map.mp (all.mem_iff.mp hid)
      exact ⟨u, hu, e⟩)
  have res : visited s.result seen = s.result := by
    funext id
    by_cases hid : id ∈ seen
    · simp [visited, hid]
    · simp only [visited, hid, ↓reduceIte]
      cases hr : s.result id with
      | none => rfl
      | some r =>
        obtain ⟨u, hu, rfl⟩ := hs.consistent.known id (by simp [hr])
        refine absurd ((mem u.id).mpr (Or.inl ?_)) hid
        exact all.mem_iff.mpr (List.mem_map_of_mem hu)
  rw [reconcileRecordedResults_eq]
  have consistent := last.consistent
  rw [res] at consistent
  exact consistent.rows_unique wf hs.consistent

/-! ## Sessions -/

theorem ordered_origin (hd : ∀ d ∈ ds, Drawn d) (wf : WellFormed (origin ds)) :
    Ordered id (dependenciesOf (origin ds)) [] (ds.map Draw.rounds).flatten.flatten := by
  have parts : ∀ d ∈ ds, ∀ seen, Ordered id (dependenciesOf (origin ds)) seen d.rounds.flatten := by
    intro d hmem seen
    have same : Ordered id (dependenciesOf d.playUnits.rows) [] d.rounds.flatten :=
      (hd d hmem).ordered_rounds
    refine Ordered.congr (same.mono (by simp)) (fun x hx => ?_)
    obtain ⟨u, hu, rfl⟩ := List.mem_map.mp ((hd d hmem).rounds.mem_iff.mp hx)
    rw [wf.dependenciesOf (List.mem_flatMap.mpr ⟨d, hmem, hu⟩), (hd d hmem).units.dependenciesOf hu]
  have prefixes : ∀ l : List Draw, (∀ d ∈ l, d ∈ ds) → ∀ seen,
      Ordered id (dependenciesOf (origin ds)) seen (l.map Draw.rounds).flatten.flatten := by
    intro l
    induction l with
    | nil => intro _ _; trivial
    | cons d l ih =>
      intro hl seen
      rw [List.map_cons, List.flatten_cons, List.flatten_append]
      exact Ordered.append (parts d (hl d List.mem_cons_self) seen)
        (ih (fun d h => hl d (List.mem_cons_of_mem _ h)) _)
  exact prefixes ds (fun _ h => h) []

theorem perm_origin (hd : ∀ d ∈ ds, Drawn d) :
    (ds.map Draw.rounds).flatten.flatten.Perm ((origin ds).map PlayUnit.id) := by
  induction ds with
  | nil => exact List.Perm.refl _
  | cons d ds ih =>
    have split : (origin (d :: ds)).map PlayUnit.id =
        d.playUnits.rows.map PlayUnit.id ++ (origin ds).map PlayUnit.id := by
      simp [origin]
    rw [List.map_cons, List.flatten_cons, List.flatten_append, split]
    exact (hd d List.mem_cons_self).rounds.append (ih (fun d h => hd d (List.mem_cons_of_mem _ h)))

theorem Session.reconcile (hd : ∀ d ∈ ds, Drawn d) (hs : Session ds allowed s) :
    reconcileRecordedResults s (ds.map Draw.rounds) = (s, []) ∧
      ∀ fresh : PlayUnits, fresh.rows = origin ds →
        (reconcileRecordedResults { playUnits := fresh, results := s.results }
          (ds.map Draw.rounds)).1.playUnits = s.playUnits :=
  ⟨hs.sound.quiet.reconcile _, fun fresh rows =>
    hs.sound.rebuild (t := { playUnits := fresh, results := s.results }) hs.wf rows rfl _
      (ordered_origin hd hs.wf) (perm_origin hd)⟩

end Brackets
