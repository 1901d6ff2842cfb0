import ShuttleWorks.Brackets.Readiness
import ShuttleWorks.Brackets.WalkedOver

/-! Carrying stored results forward. The units are visited each after those it depends on; a
unit whose recorded winner is known hands it to every slot that still waits for it, and what it
was settled to before that does not change any more. -/

namespace Brackets
open Lib

variable {o : List PlayUnit} {units units' : PlayUnits} {wres res ρ : PlayUnitId → Option Result}
  {done : List PlayUnitId} {u : PlayUnit} {f : PlayUnitId} {w : TournamentState × List PlayUnitId}

/-- The units are settled by the results carried so far: the walkovers of registration and the
stored results of the units visited, as far as their winner is known. -/
structure Carried (o : List PlayUnit) (wres ρ res : PlayUnitId → Option Result)
    (done : List PlayUnitId) (units : PlayUnits) : Prop where
  settled : ∀ u ∈ o, units.get u.id = some (settleUnit units res u)
  walked : ∀ u ∈ o, ∀ r, wres u.id = some r → res u.id = some r ∧
    (∀ d ∈ u.dependencies, (wres d).isSome) ∧ IsWalkover (settleUnit units res u) r
  given : ∀ u ∈ o, ∀ r, res u.id = some r → wres u.id = some r ∨
    (wres u.id = none ∧ u.id ∈ done ∧ ρ u.id = some r ∧
      ¬ Unrecoverable (settleUnit units res u) r)
  behind : ∀ u ∈ o, u.id ∈ done → ∀ d ∈ u.dependencies, d ∈ done
  missed : ∀ u ∈ o, u.id ∈ done → res u.id = none → ∀ r, ρ u.id = some r →
    Unrecoverable (settleUnit units res u) r
  ready : ∀ u ∈ o, wres u.id = none → (∀ d ∈ u.dependencies, (wres d).isSome) →
    walkoverSide (settleUnit units res u) = none

theorem WalkedOver.carried (h : WalkedOver o units wres)
    (ready : ∀ u ∈ o, wres u.id = none → (∀ d ∈ u.dependencies, (wres d).isSome) →
      walkoverSide (settleUnit units wres u) = none) : Carried o wres ρ wres [] units where
  settled := h.settled
  walked := fun u hu r hr =>
    ⟨hr, fun d hd => h.supported u hu (by simp [hr]) d hd, h.walkovers u hu r hr⟩
  given := fun _ _ _ hr => .inl hr
  behind := fun _ _ hm => absurd hm List.not_mem_nil
  missed := fun _ _ hm => absurd hm List.not_mem_nil
  ready := ready

theorem side_of_waits (shape : u.Concrete ∨ u.Waiting) {X : PlayUnit.Place}
    (fed : ((settleUnit units res u).slot X).FedBy f) :
    (settleUnit units res u).side X = [] := by
  have settle : ∀ {slot : BracketSlot} {id : PlayUnitId} {take : FeederTake},
      slot = .feeder id take → (settleSlot units res slot).FedBy f →
      settleSide units res slot [] = [] := by
    rintro _ id take rfl fed
    rw [settleSide]
    generalize hs : settleSlot units res (.feeder id take) = slot at fed
    cases slot with
    | participant p => exact absurd fed (BracketSlot.fedBy_participant f p)
    | feeder => rfl
  rcases shape with concrete | ⟨hA, hB, ⟨g, -, t, ha⟩, g', -, t', hb⟩
  · rw [settleUnit_concrete concrete] at fed
    obtain ⟨-, ⟨p, hp⟩, q, hq⟩ := concrete
    cases X
    · rw [PlayUnit.slot, hp] at fed
      exact absurd fed (BracketSlot.fedBy_participant f p)
    · rw [PlayUnit.slot, hq] at fed
      exact absurd fed (BracketSlot.fedBy_participant f q)
  · cases X
    · simp only [settleUnit, PlayUnit.slot, PlayUnit.side, hA] at fed ⊢
      exact settle ha fed
    · simp only [settleUnit, PlayUnit.slot, PlayUnit.side, hB] at fed ⊢
      exact settle hb fed

theorem fill_settleUnit {recorded : PlayUnit} (r : Result) (shape : u.Concrete ∨ u.Waiting) :
    fill recorded r (settleUnit units res u) = receive recorded r (settleUnit units res u) := by
  have side : ∀ X, ((settleUnit units res u).slot X).FedBy recorded.id →
      (settleUnit units res u).side X = [] := fun X => side_of_waits shape
  have slot : ∀ X, fillSlot recorded r ((settleUnit units res u).side X)
        ((settleUnit units res u).slot X) =
      resolveSlot recorded r ((settleUnit units res u).slot X) := by
    intro X
    unfold fillSlot
    split
    · rfl
    · next known => exact (resolveSlot_of_not_fedBy fun fed => known (side X fed)).symm
  have same : Awaits recorded (settleUnit units res u) ↔ Receives recorded (settleUnit units res u) := by
    constructor
    · rintro ⟨event, dep, ⟨fed, -⟩ | ⟨fed, -⟩⟩
      · exact ⟨event, dep, .inl fed⟩
      · exact ⟨event, dep, .inr fed⟩
    · rintro ⟨event, dep, fed | fed⟩
      · exact ⟨event, dep, .inl ⟨fed, side .A fed⟩⟩
      · exact ⟨event, dep, .inr ⟨fed, side .B fed⟩⟩
  have slotA := slot .A
  have slotB := slot .B
  simp only [PlayUnit.slot, PlayUnit.side] at slotA slotB
  simp only [fill, receive, same, slotA, slotB]

theorem fill_of_not_dependency {recorded : PlayUnit} (r : Result)
    (h : recorded.id ∉ u.dependencies) : fill recorded r u = u := by
  unfold fill
  rw [if_neg]
  exact fun awaits => h awaits.2.1

theorem fill_of_full {recorded : PlayUnit} (r : Result) (full : u.sideA ≠ [] ∧ u.sideB ≠ []) :
    fill recorded r u = u := by
  unfold fill
  rw [if_neg]
  rintro ⟨-, -, ⟨-, empty⟩ | ⟨-, empty⟩⟩
  · exact full.1 empty
  · exact full.2 empty

namespace Carried

theorem congr (wf : WellFormed o) (h : Carried o wres ρ res done units)
    (same : ∀ u ∈ o, units'.get u.id = units.get u.id) {ρ' : PlayUnitId → Option Result}
    (stored : ∀ u ∈ o, ρ' u.id = ρ u.id) {done' : List PlayUnitId}
    (visited : ∀ u ∈ o, u.id ∈ done' ↔ u.id ∈ done) : Carried o wres ρ' res done' units' := by
  have settles : ∀ u ∈ o, settleUnit units' res u = settleUnit units res u := by
    intro u hu
    refine settleUnit_congr (wf.shape u hu) fun d hd => ⟨rfl, ?_⟩
    obtain ⟨v, hv, rfl⟩ := wf.closed hu hd
    exact same v hv
  refine ⟨?_, ?_, ?_, ?_, ?_, ?_⟩
  · intro u hu
    rw [same u hu, settles u hu]
    exact h.settled u hu
  · intro u hu r hr
    rw [settles u hu]
    exact h.walked u hu r hr
  · intro u hu r hr
    rw [settles u hu, visited u hu, stored u hu]
    exact h.given u hu r hr
  · intro u hu hm d hd
    obtain ⟨v, hv, rfl⟩ := wf.closed hu hd
    rw [visited v hv]
    exact h.behind u hu ((visited u hu).mp hm) v.id hd
  · intro u hu hm hr r hres
    rw [stored u hu] at hres
    rw [settles u hu]
    exact h.missed u hu ((visited u hu).mp hm) hr r hres
  · intro u hu hr deps
    rw [settles u hu]
    exact h.ready u hu hr deps

variable {v : PlayUnit}

theorem skip (wf : WellFormed o) (h : Carried o wres ρ res done units) (hv : v ∈ o)
    (deps : ∀ d ∈ v.dependencies, d ∈ done) (missed : res v.id = none → ∀ r, ρ v.id = some r →
      Unrecoverable (settleUnit units res v) r) :
    Carried o wres ρ res (done ++ [v.id]) units := by
  have which : ∀ u ∈ o, u.id ∈ done ++ [v.id] → u.id ∈ done ∨ u = v := by
    intro u hu hm
    rcases List.mem_append.mp hm with hm | hm
    · exact .inl hm
    · exact .inr (wf.eq_of_id_eq hu hv (List.mem_singleton.mp hm))
  refine ⟨h.settled, h.walked, ?_, ?_, ?_, h.ready⟩
  · intro u hu r hr
    exact (h.given u hu r hr).imp_right fun ⟨fresh, hm, rest⟩ =>
      ⟨fresh, List.mem_append_left _ hm, rest⟩
  · intro u hu hm d hd
    apply List.mem_append_left
    rcases which u hu hm with hm | rfl
    · exact h.behind u hu hm d hd
    · exact deps d hd
  · intro u hu hm
    rcases which u hu hm with hm | rfl
    · exact h.missed u hu hm
    · exact missed

theorem supported (h : Carried o wres ρ res done units) (hu : u ∈ o) (hr : (res u.id).isSome)
    (open' : res f = none) (new : f ∉ done)
    (walked : ∀ d, (wres d).isSome → d ∈ u.dependencies → (res d).isSome) :
    f ∉ u.dependencies := by
  intro hf
  obtain ⟨r, hr⟩ := Option.isSome_iff_exists.mp hr
  rcases h.given u hu r hr with hw | ⟨-, hm, -⟩
  · have := walked f ((h.walked u hu r hw).2.1 f hf) hf
    rw [open'] at this
    cases this
  · exact new (h.behind u hu hm f hf)

/-- **One visit.** The unit's winner is handed on when it is known. -/
theorem hand (wf : WellFormed o) (h : Carried o wres ρ res done units) (hv : v ∈ o)
    (deps : ∀ d ∈ v.dependencies, d ∈ done) (new : v.id ∉ done) (open' : res v.id = none)
    {r : Result} (hr : ρ v.id = some r) (known : ¬ Unrecoverable (settleUnit units res v) r) :
    Carried o wres ρ (Function.update res v.id (some r)) (done ++ [v.id])
      (units.update (fill (settleUnit units res v) r)
        (fill_id (settleUnit units res v) r)) := by
  set unit := settleUnit units res v with hunit
  set units' := units.update (fill unit r) (fill_id unit r) with hunits'
  have kept : ∀ u ∈ o, v.id ∉ u.dependencies → units'.get u.id = units.get u.id := by
    intro u hu hd
    rw [hunits', Table.get_update, h.settled u hu, Option.map_some,
      fill_of_not_dependency r (show unit.id ∉ (settleUnit units res u).dependencies from hd)]
  have walkedSome : ∀ d, (wres d).isSome → ∀ u ∈ o, d ∈ u.dependencies → (res d).isSome := by
    intro d hw u hu hd
    obtain ⟨w, hw', rfl⟩ := wf.closed hu hd
    obtain ⟨r', hr'⟩ := Option.isSome_iff_exists.mp hw
    simp [(h.walked w hw' r' hr').1]
  have apart : ∀ u ∈ o, (res u.id).isSome → v.id ∉ u.dependencies := fun u hu hs =>
    h.supported hu hs open' new fun d hw hd => walkedSome d hw u hu hd
  have self : units'.get unit.id = some unit :=
    (kept v hv (wf.not_self hv)).trans (h.settled v hv)
  have settled : ∀ u ∈ o, units'.get u.id =
      some (settleUnit units' (Function.update res v.id (some r)) u) := by
    intro u hu
    rw [hunits', Table.get_update, h.settled u hu, Option.map_some, ← hunits',
      fill_settleUnit r (wf.shape u hu)]
    refine congrArg some (receive_settleUnit (wf.shape u hu) (fun hd => ?_) open' self ?_)
    · exact (wf.sameEvent u hu v hv hd).symm
    · intro X id take result hslot hres
      obtain ⟨w, hw, rfl⟩ := wf.closed hu (mem_dependencies_of_slot (wf.shape u hu) hslot)
      rw [kept w hw (apart w hw (by simp [hres]))]
  have same : ∀ u ∈ o, v.id ∉ u.dependencies →
      settleUnit units' (Function.update res v.id (some r)) u = settleUnit units res u := by
    intro u hu hd
    have stored := settled u hu
    rw [kept u hu hd, h.settled u hu] at stored
    exact (Option.some.inj stored).symm
  have which : ∀ u ∈ o, u.id ∈ done ++ [v.id] → u.id ∈ done ∨ u = v := by
    intro u hu hm
    rcases List.mem_append.mp hm with hm | hm
    · exact .inl hm
    · exact .inr (wf.eq_of_id_eq hu hv (List.mem_singleton.mp hm))
  refine ⟨settled, ?_, ?_, ?_, ?_, ?_⟩
  · intro u hu r' hr'
    obtain ⟨hres, deps', walkover⟩ := h.walked u hu r' hr'
    have other : u.id ≠ v.id := by
      intro e
      rw [e, open'] at hres
      cases hres
    rw [Function.update_of_ne other, same u hu (apart u hu (by simp [hres]))]
    exact ⟨hres, deps', walkover⟩
  · intro u hu r' hr'
    rw [Function.update_apply] at hr'
    split at hr'
    · next e =>
      cases hr'
      obtain rfl := wf.eq_of_id_eq hu hv e
      rw [same u hu (wf.not_self hu)]
      refine .inr ⟨?_, by simp, hr, known⟩
      by_contra hw
      obtain ⟨r', hr'⟩ := Option.ne_none_iff_exists'.mp hw
      rw [(h.walked u hu r' hr').1] at open'
      cases open'
    · rw [same u hu (apart u hu (by simp [hr']))]
      exact (h.given u hu r' hr').imp_right fun ⟨fresh, hm, rest⟩ =>
        ⟨fresh, List.mem_append_left _ hm, rest⟩
  · intro u hu hm d hd
    apply List.mem_append_left
    rcases which u hu hm with hm | rfl
    · exact h.behind u hu hm d hd
    · exact deps d hd
  · intro u hu hm hres r' hr'
    rw [Function.update_apply] at hres
    split at hres
    · cases hres
    · next other =>
      have hm := (which u hu hm).resolve_right fun e => other (e ▸ rfl)
      rw [same u hu fun hd => new (h.behind u hu hm v.id hd)]
      exact h.missed u hu hm hres r' hr'
  · intro u hu hres deps'
    rw [same u hu fun hd => ?_]
    · exact h.ready u hu hres deps'
    · have := walkedSome v.id (deps' v.id hd) u hu hd
      rw [open'] at this
      cases this

end Carried

/-! ## Visiting all units -/

@[simp] theorem reconcileUnit_results (w : TournamentState × List PlayUnitId) (f : PlayUnitId) :
    (reconcileUnit w f).1.results = w.1.results := by
  unfold reconcileUnit
  split
  · split <;> rfl
  · rfl

theorem reconcileUnit_result (w : TournamentState × List PlayUnitId) (f : PlayUnitId) :
    (reconcileUnit w f).1.result = w.1.result := by
  funext id
  simp [TournamentState.result]

theorem reconcileUnit_get (w : TournamentState × List PlayUnitId) (f id : PlayUnitId) :
    (reconcileUnit w f).1.playUnits.get id = w.1.playUnits.get id ∨
      ∃ recorded r, recorded.id = f ∧
        (reconcileUnit w f).1.playUnits.get id = (w.1.playUnits.get id).map (fill recorded r) := by
  unfold reconcileUnit
  split
  · next r recorded _ hu =>
    split
    · exact .inl rfl
    · exact .inr ⟨recorded, r, Table.key_of_get hu, by
        rw [propagateIntoEmptySlots, Table.get_update]⟩
  · exact .inl rfl

theorem reconcileUnit_sameUnits (w : TournamentState × List PlayUnitId) (f : PlayUnitId) :
    SameUnits w.1 (reconcileUnit w f).1 := by
  unfold reconcileUnit
  split
  · next r recorded _ _ =>
    split
    · exact .refl _
    · refine ⟨by simp [propagateIntoEmptySlots, Table.update, Function.comp_def], ?_⟩
      intro u' hu'
      obtain ⟨u, hu, rfl⟩ := List.mem_map.mp hu'
      refine ⟨u, hu, (fill_id recorded r u).symm, ?_, ?_⟩
      · unfold fill
        split <;> rfl
      · unfold fill
        split <;> rfl
  · exact .refl _

/-- **One visit**, to a unit of the draw or to another. -/
theorem Carried.visit (wf : WellFormed o) (h : Carried o wres w.1.result res done w.1.playUnits)
    (new : f ∉ done) (deps : ∀ v ∈ o, v.id = f → ∀ d ∈ v.dependencies, d ∈ done) :
    ∃ res', Carried o wres (reconcileUnit w f).1.result res' (done ++ [f])
      (reconcileUnit w f).1.playUnits := by
  rw [reconcileUnit_result]
  by_cases mem : f ∈ o.map PlayUnit.id
  · obtain ⟨v, hv, rfl⟩ := List.mem_map.mp mem
    have stored := h.settled v hv
    unfold reconcileUnit
    rw [stored]
    cases hr : w.1.result v.id with
    | none => exact ⟨res, h.skip wf hv (deps v hv rfl) fun _ r hr' => by simp [hr] at hr'⟩
    | some r =>
      dsimp only
      split
      · next lost =>
        refine ⟨res, h.skip wf hv (deps v hv rfl) fun _ r' hr' => ?_⟩
        rw [hr] at hr'
        cases hr'
        exact lost
      · next known =>
        cases open' : res v.id with
        | none =>
          exact ⟨_, h.hand wf hv (deps v hv rfl) new open' hr known⟩
        | some r₀ =>
          -- it was walked over, so nothing waits for it any more
          refine ⟨res, (h.congr wf (fun u hu => ?_) (fun _ _ => rfl) fun _ _ => .rfl).skip wf hv
            (deps v hv rfl) fun open'' => by simp [open'] at open''⟩
          rw [propagateIntoEmptySlots, Table.get_update, h.settled u hu, Option.map_some,
            fill_settleUnit r (wf.shape u hu)]
          refine congrArg some ?_
          unfold receive
          rw [if_neg]
          have settle : ∀ X, ¬ ((settleUnit w.1.playUnits res u).slot X).FedBy v.id := by
            have slot : ∀ slot, ¬ (settleSlot w.1.playUnits res slot).FedBy v.id := by
              intro slot fed
              cases slot with
              | participant p => exact absurd fed (BracketSlot.fedBy_participant _ p)
              | feeder id take =>
                rw [settleSlot] at fed
                split at fed
                · exact absurd fed (BracketSlot.fedBy_participant _ _)
                · next unsettled =>
                  obtain rfl := (BracketSlot.fedBy_feeder _ _ _).mp fed
                  exact unsettled r₀ _ open' stored
            rintro (_ | _)
            · exact slot u.slotA
            · exact slot u.slotB
          rintro ⟨-, -, fed | fed⟩
          · exact settle .A fed
          · exact settle .B fed
  · refine ⟨res, h.congr wf (fun u hu => ?_) (fun _ _ => rfl) fun u hu => ?_⟩
    · rcases reconcileUnit_get w f u.id with same | ⟨recorded, r, rfl, filled⟩
      · exact same
      · rw [filled, h.settled u hu, Option.map_some, fill_of_not_dependency]
        intro hd
        obtain ⟨v, hv, e⟩ := wf.closed hu hd
        exact mem (e ▸ List.mem_map_of_mem hv)
    · simp only [List.mem_append, List.mem_singleton, or_iff_left_iff_imp]
      rintro rfl
      exact absurd (List.mem_map_of_mem hu) mem

/-- **All visits**, each unit after those it depends on. -/
theorem Carried.visits (wf : WellFormed o) {ids : List PlayUnitId}
    (h : Carried o wres w.1.result res done w.1.playUnits) (nodup : (done ++ ids).Nodup)
    (order : ∀ pre f post, ids = pre ++ f :: post → ∀ v ∈ o, v.id = f →
      ∀ d ∈ v.dependencies, d ∈ done ++ pre) :
    ∃ res', Carried o wres (ids.foldl reconcileUnit w).1.result res' (done ++ ids)
      (ids.foldl reconcileUnit w).1.playUnits := by
  induction ids generalizing w done res with
  | nil => exact ⟨res, by simpa using h⟩
  | cons f ids ih =>
    have new : f ∉ done := by
      intro hm
      exact (List.nodup_append.mp nodup).2.2 f hm f List.mem_cons_self rfl
    obtain ⟨res₁, first⟩ := h.visit wf new fun v hv e d hd => by
      simpa using order [] f ids rfl v hv e d hd
    obtain ⟨res', rest⟩ := ih first (by simpa using nodup) fun pre g post split v hv e d hd => by
      have := order (f :: pre) g post (by rw [split]; rfl) v hv e d hd
      simpa using this
    exact ⟨res', by simpa using rest⟩

end Brackets
