import ShuttleWorks.Brackets.Runs
import ShuttleWorks.Lib.Except

/-! Registering draws. A drawn draw has well-formed units of its own event, and
the byes of its concrete units stand in its first round; registering it leaves a
sound state in which no walkover is due. -/

namespace Brackets
open Lib

section

/-- The round `n` of the draw holds the unit. -/
def Draw.InRound (d : Draw) (n : Nat) (id : PlayUnitId) : Prop :=
  ∃ round, d.rounds[n]? = some round ∧ id ∈ round

/-- What every generator guarantees of a draw. -/
structure Drawn (d : Draw) : Prop where
  units : WellFormed d.playUnits.rows
  event : ∀ u ∈ d.playUnits.rows, u.eventId = d.event.id
  rounds : d.rounds.flatten.Perm (d.playUnits.rows.map PlayUnit.id)
  earlier : ∀ u ∈ d.playUnits.rows, ∀ n, d.InRound n u.id → ∀ x ∈ u.dependencies,
    ∃ m < n, d.InRound m x
  first : ∀ u ∈ d.playUnits.rows, u.dependencies = [] → walkoverSide u ≠ none → d.InRound 0 u.id

variable {o : List PlayUnit} {allowed : PlayUnitId → Result → Prop} {draws : List EventId}
  {s s' : TournamentState} {d : Draw} {l : List PlayUnit} {u : PlayUnit} {draws' : List EventId}
  {ds : List Draw}

/-! ## Inserting the units -/

theorem insertPlayUnit_eq_ok {unit : PlayUnit} (h : insertPlayUnit s unit = .ok s') :
    ¬ s.playUnits.Has unit.id ∧ s'.playUnits.rows = s.playUnits.rows ++ [unit] ∧
      s'.results = s.results ∧ s'.assignments = s.assignments := by
  unfold insertPlayUnit at h
  cases hi : s.playUnits.insert unit with
  | none => simp [hi] at h
  | some units =>
    rw [hi] at h
    cases h
    obtain ⟨new, rows⟩ := Table.insert_eq_some.mp hi
    exact ⟨new, rows, rfl, rfl⟩

theorem foldlM_insertPlayUnit (h : l.foldlM insertPlayUnit s = .ok s') :
    (∀ u ∈ l, ¬ s.playUnits.Has u.id) ∧ s'.playUnits.rows = s.playUnits.rows ++ l ∧
      s'.results = s.results ∧ s'.assignments = s.assignments := by
  induction l generalizing s with
  | nil =>
    cases h
    simp
  | cons u l ih =>
    rw [List.foldlM_cons] at h
    cases hi : insertPlayUnit s u with
    | error e => rw [hi] at h; cases h
    | ok s₁ =>
      rw [hi] at h
      obtain ⟨new, rows, res, assigned⟩ := insertPlayUnit_eq_ok hi
      obtain ⟨new', rows', res', assigned'⟩ := ih h
      refine ⟨?_, by rw [rows', rows]; simp, res'.trans res, assigned'.trans assigned⟩
      intro v hv
      rcases List.mem_cons.mp hv with rfl | hv
      · exact new
      · intro has
        refine new' v hv ?_
        rw [Table.Has, rows]
        simp only [List.map_append, List.mem_append]
        exact Or.inl has

theorem Sound.insert (wf : WellFormed o) (wl : WellFormed l) (hs : Sound o allowed s)
    (new : ∀ u ∈ l, ¬ s.playUnits.Has u.id) (rows : s'.playUnits.rows = s.playUnits.rows ++ l)
    (results : s'.results = s.results) :
    WellFormed (o ++ l) ∧ Sound (o ++ l) allowed s' := by
  have res : s'.result = s.result := by
    funext id
    simp [TournamentState.result, results]
  have disjoint : ∀ u ∈ o, ∀ v ∈ l, u.id ≠ v.id := by
    intro u hu v hv e
    refine new v hv ?_
    rw [Table.Has, hs.consistent.ids, ← e]
    exact List.mem_map_of_mem hu
  have kept : ∀ u ∈ o, s'.playUnits.get u.id = s.playUnits.get u.id := by
    intro u hu
    have := hs.consistent.get hu
    rw [this, Table.get_of_rows_append rows this]
  have unknown : ∀ u ∈ l, s.result u.id = none := by
    intro u hu
    by_contra h
    obtain ⟨v, hv, e⟩ := hs.consistent.known u.id (Option.isSome_iff_ne_none.mpr h)
    exact disjoint v hv u hu e
  refine ⟨wf.append wl disjoint, ⟨?_, ?_, ?_⟩, ?_⟩
  · rw [rows, hs.consistent.rows, res, List.map_append]
    congr 1
    · refine List.map_congr_left (fun u hu => settleUnit_congr (wf.shape u hu) (fun d hd => ?_))
      obtain ⟨v, hv, rfl⟩ := wf.closed hu hd
      exact ⟨rfl, (kept v hv).symm⟩
    · refine (List.map_id' l).symm.trans (List.map_congr_left (fun u hu => ?_))
      have same : settleUnit s'.playUnits s.result u =
          settleUnit s'.playUnits (fun _ => none) u := by
        refine settleUnit_congr (wl.shape u hu) (fun d hd => ⟨?_, rfl⟩)
        obtain ⟨v, hv, rfl⟩ := wl.closed hu hd
        exact unknown v hv
      rw [same]
      have fresh := (Consistent.fresh wl (show (⟨l, wl.unique⟩ : PlayUnits).rows = l from rfl)).rows
      rcases wl.shape u hu with concrete | ⟨hA, hB, ⟨f, _, t, ha⟩, g, _, t', hb⟩
      · rw [settleUnit_concrete concrete]
      · simp only [settleUnit, settleSide, settleSlot, ha, hb, BracketSlot.refreshSide]
        rw [← ha, ← hb]
  · rw [res]
    intro u hu hr
    rcases List.mem_append.mp hu with hu | hu
    · exact hs.consistent.supported u hu hr
    · simp [unknown u hu] at hr
  · rw [res]
    intro id hr
    obtain ⟨v, hv, e⟩ := hs.consistent.known id hr
    exact ⟨v, List.mem_append_left _ hv, e⟩
  · rw [res]
    intro id u r hu hr
    obtain ⟨v, hv, rfl⟩ := hs.consistent.known id (by simp [hr])
    exact hs.explained v.id u r (by rw [← kept v hv]; exact hu) hr

/-! ## Walking over the byes of the first round -/

/-- What walking over the byes does: nothing, or walkovers until none is due in the event. -/
def WalksOver (eventId : EventId) (s s' : TournamentState) : Prop :=
  (∃ touched, Sweeps [eventId] s s' touched) ∧ (s' = s ∨ Swept [eventId] s')

theorem autoWalkover_eq_ok {eventId : EventId} {id : PlayUnitId}
    (ready : ∀ u, s.playUnits.get id = some u → ∀ d ∈ u.dependencies, s.Resulted d)
    (h : autoWalkover eventId s id = .ok s') :
    WalksOver eventId s s' ∧
      (s' = s → ∀ u, s.playUnits.get id = some u → s.Resulted id ∨ walkoverSide u = none) := by
  unfold autoWalkover at h
  have same : WalksOver eventId s s := ⟨⟨[], Sweeps.refl _ s⟩, Or.inl rfl⟩
  split at h
  · next hr =>
    cases h
    exact ⟨same, fun _ u _ => Or.inl hr⟩
  next new =>
  split at h
  · cases h
  next unit hu =>
  split at h
  · next hw =>
    cases h
    refine ⟨same, fun _ u hu' => Or.inr ?_⟩
    rw [hu] at hu'
    cases hu'
    exact hw
  next side hw =>
  cases hrec : recordResult s [eventId] id (walkover side) with
  | error e => rw [hrec] at h; cases h
  | ok out =>
    obtain ⟨s₁, affected⟩ := out
    rw [hrec] at h
    cases h
    obtain ⟨unit', key, hr, rec⟩ := recordResult_eq_ok hrec
    have : unit' = unit := by
      have stored := hr.stored
      rw [key, hu] at stored
      exact (Option.some.inj stored).symm
    subst this
    subst key
    obtain ⟨touched, sweeps, -⟩ := rec.sweeps
    have event : unit'.eventId = eventId := by simpa using hr.draw
    have first : Sweeps [eventId] s (recordAndPropagate s unit' (walkover side)).1
        (unit'.id :: (recordAndPropagate s unit' (walkover side)).2) := by
      refine ⟨⟨[(unit'.id, walkover side)], .cons ?_ (.nil _)⟩, ?_, ?_,
        fun hk => hk.recordAndPropagate _ _, ?_, ?_, rfl⟩
      · exact .store hu hr.new (ready unit' hu) (Or.inl ⟨side, hw, rfl⟩)
      · intro id hid
        rw [List.mem_cons, not_or] at hid
        exact recordAndPropagate_sameAt _ _ _ hid.1 hid.2
      · intro id hid
        rcases List.mem_cons.mp hid with rfl | hid
        · exact Table.has_iff.mpr ⟨unit', Table.mem_of_get hu, rfl⟩
        · exact recordAndPropagate_known hid
      · intro id u hu' he
        exact recordAndPropagate_others _ hu hu' (fun e => he (by simp [e, event]))
      · exact recordAndPropagate_ids _ _ _
    refine ⟨⟨⟨_, first.trans sweeps⟩, Or.inr rec.swept⟩, ?_⟩
    intro e
    have stored : s₁.result unit'.id = some (walkover side) := rec.result
    have e : s₁ = s := e
    rw [e, hr.new] at stored
    cases stored

theorem Sweeps.dependencies {touched : List PlayUnitId} (h : Sweeps draws s s' touched)
    {id : PlayUnitId} (hu : s'.playUnits.get id = some u) :
    ∃ u₀, s.playUnits.get id = some u₀ ∧ u₀.dependencies = u.dependencies := by
  obtain ⟨steps, hrun⟩ := h.run
  refine hrun.closed (R := fun s s' => ∀ u, s'.playUnits.get id = some u →
    ∃ u₀, s.playUnits.get id = some u₀ ∧ u₀.dependencies = u.dependencies)
    (fun s u hu => ⟨u, hu, rfl⟩) ?_ ?_ u hu
  · intro s s' s'' h h' u hu
    obtain ⟨u', hu', e⟩ := h' u hu
    obtain ⟨u₀, hu₀, e'⟩ := h u' hu'
    exact ⟨u₀, hu₀, e'.trans e⟩
  · rintro s _ _ ⟨-, -, -, -⟩ u hu
    rw [recordAndPropagate_playUnits, Table.get_update] at hu
    obtain ⟨u₀, hu₀, rfl⟩ := Option.map_eq_some_iff.mp hu
    refine ⟨u₀, hu₀, ?_⟩
    unfold receive
    split <;> rfl

theorem foldlM_autoWalkover {eventId : EventId} {ids : List PlayUnitId}
    (ready : ∀ id ∈ ids, ∀ u, s.playUnits.get id = some u → u.dependencies = [])
    (h : ids.foldlM (autoWalkover eventId) s = .ok s') :
    (∃ touched, Sweeps [eventId] s s' touched) ∧
      (Swept [eventId] s' ∨ (s' = s ∧ ∀ id ∈ ids, ∀ u, s.playUnits.get id = some u →
        s.Resulted id ∨ walkoverSide u = none)) := by
  induction ids generalizing s with
  | nil =>
    cases h
    exact ⟨⟨[], Sweeps.refl _ _⟩, Or.inr ⟨rfl, by simp⟩⟩
  | cons id ids ih =>
    rw [List.foldlM_cons] at h
    cases hw : autoWalkover eventId s id with
    | error e => rw [hw] at h; cases h
    | ok s₁ =>
      rw [hw] at h
      obtain ⟨⟨⟨t, sweeps⟩, moved⟩, idle⟩ := autoWalkover_eq_ok (fun u hu d hd => by
        rw [ready id List.mem_cons_self u hu] at hd
        simp at hd) hw
      obtain ⟨⟨t', sweeps'⟩, rest⟩ := ih (fun id' hid u hu => by
        obtain ⟨u₀, hu₀, e⟩ := sweeps.dependencies hu
        exact e ▸ ready id' (List.mem_cons_of_mem _ hid) u₀ hu₀) h
      refine ⟨⟨_, sweeps.trans sweeps'⟩, ?_⟩
      rcases rest with swept | ⟨rfl, others⟩
      · exact Or.inl swept
      · rcases moved with rfl | swept
        · refine Or.inr ⟨rfl, ?_⟩
          intro id' hid u hu
          rcases List.mem_cons.mp hid with rfl | hid
          · exact idle rfl u hu
          · exact others id' hid u hu
        · exact Or.inl swept

/-! ## Registering a draw -/

theorem registerDraw_eq_ok (h : registerDraw s d = .ok s') :
    ∃ s₁ round rest, d.playUnits.rows.foldlM insertPlayUnit s = .ok s₁ ∧
      d.rounds = round :: rest ∧ round.foldlM (autoWalkover d.event.id) s₁ = .ok s' := by
  unfold registerDraw at h
  cases hi : d.playUnits.rows.foldlM insertPlayUnit s with
  | error e => rw [hi] at h; cases h
  | ok s₁ =>
    rw [hi] at h
    replace h : autoWalkoverByes s₁ d = .ok s' := h
    unfold autoWalkoverByes at h
    cases hr : d.rounds with
    | nil => rw [hr] at h; cases h
    | cons round rest =>
      rw [hr] at h
      exact ⟨s₁, round, rest, rfl, rfl, h⟩

theorem Drawn.mem_of_inRound (hd : Drawn d) {n : Nat} {id : PlayUnitId} (h : d.InRound n id) :
    ∃ u ∈ d.playUnits.rows, u.id = id := by
  obtain ⟨round, hr, hid⟩ := h
  have : id ∈ d.rounds.flatten := List.mem_flatten.mpr ⟨round, List.mem_of_getElem? hr, hid⟩
  obtain ⟨u, hu, e⟩ := List.mem_map.mp (hd.rounds.mem_iff.mp this)
  exact ⟨u, hu, e⟩

theorem Drawn.dependencies_of_first (hd : Drawn d) (hu : u ∈ d.playUnits.rows)
    (h : d.InRound 0 u.id) : u.dependencies = [] := by
  cases hdeps : u.dependencies with
  | nil => rfl
  | cons x l =>
    obtain ⟨m, hm, -⟩ := hd.earlier u hu 0 h x (by simp [hdeps])
    omega

theorem dueWalkover_of_sameAt {id : PlayUnitId} {side : WinnerSide}
    (h : dueWalkover s' draws' id = some (u, side)) (he : u.eventId ∈ draws) (same : SameAt id s s')
    (deps : ∀ d ∈ u.dependencies, s.result d = s'.result d) :
    dueWalkover s draws id = some (u, side) := by
  obtain ⟨hu, hn, ready, -, hw⟩ := dueWalkover_eq_some.mp h
  refine dueWalkover_eq_some.mpr ⟨same.1.trans hu, same.2.trans hn, ?_, he, hw⟩
  intro d hd
  rw [TournamentState.Resulted, deps d hd]
  exact ready d hd

theorem Sound.sameAt_of_append (hs : Sound o allowed s)
    (rows : s'.playUnits.rows = s.playUnits.rows ++ l) (results : s'.results = s.results)
    (hu : u ∈ o) : SameAt u.id s s' := by
  have stored := hs.consistent.get hu
  refine ⟨by rw [stored, Table.get_of_rows_append rows stored], ?_⟩
  simp [TournamentState.result, results]

/-- **Registration.** A draw registered into a sound and swept state leaves one. -/
theorem registerDraw_sound (wf : WellFormed o) (hd : Drawn d) (hs : Sound o allowed s)
    (swept : Swept draws s) (events : ∀ u ∈ o, u.eventId ∈ draws)
    (h : registerDraw s d = .ok s') :
    WellFormed (o ++ d.playUnits.rows) ∧ Sound (o ++ d.playUnits.rows) allowed s' ∧
      Swept (d.event.id :: draws) s' := by
  obtain ⟨s₁, round, rest, hi, hrounds, hw⟩ := registerDraw_eq_ok h
  obtain ⟨new, rows, results, -⟩ := foldlM_insertPlayUnit hi
  obtain ⟨wf', sound₁⟩ := hs.insert wf hd.units new rows results
  have inFirst : ∀ {id}, id ∈ round → d.InRound 0 id := fun hid => ⟨round, by simp [hrounds], hid⟩
  have depends : ∀ u ∈ d.playUnits.rows, ∀ u', s₁.playUnits.get u.id = some u' →
      u'.dependencies = u.dependencies := by
    intro u hu u' hu'
    rw [sound₁.consistent.get (List.mem_append_right _ hu)] at hu'
    cases hu'
    rfl
  obtain ⟨⟨touched, sweeps⟩, ended⟩ := foldlM_autoWalkover (fun id hid u hu => by
    obtain ⟨v, hv, rfl⟩ := hd.mem_of_inRound (inFirst hid)
    rw [depends v hv u hu]
    exact hd.dependencies_of_first hv (inFirst hid)) hw
  have sound' := sound₁.sweeps wf' sweeps
  -- nothing is due in the events that were there before
  have before : ∀ {t : TournamentState} {draws' : List EventId} {id u side},
      Sound (o ++ d.playUnits.rows) allowed t → (∀ v ∈ o, SameAt v.id s₁ t ∨ v.eventId = d.event.id) →
      dueWalkover t draws' id = some (u, side) → u.eventId ≠ d.event.id → False := by
    intro t draws' id u side ht same due he
    obtain ⟨hu, -, -, -, -⟩ := dueWalkover_eq_some.mp due
    obtain ⟨u₀, hu₀, rfl, rfl⟩ := ht.consistent.of_get hu
    have hold : u₀ ∈ o := by
      rcases List.mem_append.mp hu₀ with hold | hnew
      · exact hold
      · exact absurd (hd.event u₀ hnew) he
    have alike : ∀ v ∈ o, v.eventId = u₀.eventId → SameAt v.id s t := by
      intro v hv e
      rcases same v hv with h | h
      · exact (hs.sameAt_of_append rows results hv).trans h
      · exact absurd (e ▸ h) he
    have due' := dueWalkover_of_sameAt due (events u₀ hold) (alike u₀ hold rfl) (fun x hx => by
      obtain ⟨v, hv, rfl⟩ := wf.closed hold hx
      exact (alike v hv (wf.sameEvent u₀ hold v hv hx)).2)
    rw [swept] at due'
    cases due'
  refine ⟨wf', sound', ?_⟩
  intro id
  by_contra due
  obtain ⟨⟨u, side⟩, due⟩ := Option.ne_none_iff_exists'.mp due
  obtain ⟨hu, hn, ready, -, hside⟩ := dueWalkover_eq_some.mp due
  by_cases he : u.eventId = d.event.id
  · -- in the event itself: the sweep ended, or no unit of round 0 has an empty side
    rcases ended with swept' | ⟨rfl, idle⟩
    · have : dueWalkover s' [d.event.id] id = some (u, side) :=
        dueWalkover_eq_some.mpr ⟨hu, hn, ready, by simp [he], hside⟩
      rw [swept'] at this
      cases this
    · obtain ⟨u₀, hu₀, rfl, rfl⟩ := sound₁.consistent.of_get hu
      rcases List.mem_append.mp hu₀ with hold | hnew
      · have := dueWalkover_of_sameAt due (events u₀ hold)
          (hs.sameAt_of_append rows results hold) (fun x _ => by
            simp [TournamentState.result, results])
        rw [swept] at this
        cases this
      · have deps : u₀.dependencies = [] := by
          cases hdeps : u₀.dependencies with
          | nil => rfl
          | cons x l =>
            have hx : x ∈ u₀.dependencies := by simp [hdeps]
            obtain ⟨v, hv, rfl⟩ := hd.units.closed hnew hx
            have known := ready v.id hx
            rw [TournamentState.Resulted, TournamentState.result, results] at known
            obtain ⟨w, hw', e⟩ := hs.consistent.known v.id known
            refine absurd ?_ (new v hv)
            rw [Table.Has, hs.consistent.ids, ← e]
            exact List.mem_map_of_mem hw'
        have concrete : u₀.Concrete := by
          rcases hd.units.shape u₀ hnew with concrete | ⟨-, -, ⟨f, hf, -⟩, -⟩
          · exact concrete
          · simp [deps] at hf
        obtain ⟨r₀, hr₀, hid⟩ := hd.first u₀ hnew deps (by
          rw [settleUnit_concrete concrete] at hside
          rw [hside]
          exact Option.some_ne_none side)
        rw [hrounds] at hr₀
        cases hr₀
        rcases idle u₀.id hid _ hu with hr | hr
        · simp [TournamentState.Resulted, hn] at hr
        · rw [hside] at hr
          cases hr
  · refine before sound' (fun v hv => ?_) due he
    by_cases hv' : v.eventId = d.event.id
    · exact Or.inr hv'
    · refine Or.inl (sweeps.others v.id _ (sound₁.consistent.get (List.mem_append_left _ hv)) ?_)
      simpa using hv'

theorem registerDraw_keyed (hd : Drawn d) (hk : Keyed s) (wf : WellFormed o)
    (hs : Sound o allowed s) (h : registerDraw s d = .ok s') : Keyed s' := by
  obtain ⟨s₁, round, rest, hi, hrounds, hw⟩ := registerDraw_eq_ok h
  obtain ⟨new, rows, results, -⟩ := foldlM_insertPlayUnit hi
  obtain ⟨-, sound₁⟩ := hs.insert wf hd.units new rows results
  obtain ⟨⟨touched, sweeps⟩, -⟩ := foldlM_autoWalkover (fun id hid u hu => by
    have inFirst : d.InRound 0 id := ⟨round, by simp [hrounds], hid⟩
    obtain ⟨v, hv, rfl⟩ := hd.mem_of_inRound inFirst
    rw [sound₁.consistent.get (List.mem_append_right _ hv)] at hu
    cases hu
    rw [settleUnit_dependencies]
    exact hd.dependencies_of_first hv inFirst) hw
  exact sweeps.keyed (by rw [Keyed, results]; exact hk)

/-! ## Sessions -/

def registerDraws (ds : List Draw) : Except AdvanceError TournamentState :=
  ds.foldlM registerDraw {}

def eventIds (ds : List Draw) : List EventId := ds.map (fun d => d.event.id)

def origin (ds : List Draw) : List PlayUnit := ds.flatMap (fun d => d.playUnits.rows)

theorem Sound.empty : Sound [] allowed {} where
  consistent := Consistent.fresh WellFormed.nil rfl
  explained := by
    intro id u r hu
    cases hu

theorem Swept.nil (s : TournamentState) : Swept [] s := by
  intro id
  by_contra due
  obtain ⟨⟨u, side⟩, due⟩ := Option.ne_none_iff_exists'.mp due
  obtain ⟨-, -, -, he, -⟩ := dueWalkover_eq_some.mp due
  cases he

theorem Swept.of_subset (h : Swept draws s) (hs : ∀ e ∈ draws', e ∈ draws) : Swept draws' s := by
  intro id
  by_contra due
  obtain ⟨⟨u, side⟩, due⟩ := Option.ne_none_iff_exists'.mp due
  obtain ⟨hu, hn, ready, he, hw⟩ := dueWalkover_eq_some.mp due
  have := dueWalkover_eq_some.mpr ⟨hu, hn, ready, hs _ he, hw⟩
  rw [h] at this
  cases this

theorem foldlM_registerDraw (ds : List Draw) (hd : ∀ d ∈ ds, Drawn d) (wf : WellFormed o)
    (hs : Sound o allowed s) (swept : Swept draws s) (events : ∀ u ∈ o, u.eventId ∈ draws)
    (h : ds.foldlM registerDraw s = .ok s') :
    WellFormed (o ++ origin ds) ∧ Sound (o ++ origin ds) allowed s' ∧
      Swept (eventIds ds ++ draws) s' ∧
      ∀ u ∈ o ++ origin ds, u.eventId ∈ eventIds ds ++ draws := by
  induction ds generalizing o draws s with
  | nil =>
    cases h
    simpa [origin, eventIds] using ⟨wf, hs, swept, events⟩
  | cons d ds ih =>
    rw [List.foldlM_cons] at h
    cases hr : registerDraw s d with
    | error e => rw [hr] at h; cases h
    | ok s₁ =>
      rw [hr] at h
      have drawn := hd d List.mem_cons_self
      obtain ⟨wf₁, sound₁, swept₁⟩ := registerDraw_sound wf drawn hs swept events hr
      have events₁ : ∀ u ∈ o ++ d.playUnits.rows, u.eventId ∈ d.event.id :: draws := by
        intro u hu
        rcases List.mem_append.mp hu with hu | hu
        · exact List.mem_cons_of_mem _ (events u hu)
        · rw [drawn.event u hu]
          exact List.mem_cons_self
      obtain ⟨wf₂, sound₂, swept₂, events₂⟩ :=
        ih (fun d hd' => hd d (List.mem_cons_of_mem _ hd')) wf₁ sound₁ swept₁ events₁ h
      have split : o ++ origin (d :: ds) = o ++ d.playUnits.rows ++ origin ds := by
        simp [origin]
      rw [split]
      refine ⟨wf₂, sound₂, swept₂.of_subset ?_, ?_⟩
      · intro e he
        simp only [eventIds, List.map_cons, List.cons_append, List.mem_cons, List.mem_append] at he ⊢
        rcases he with he | he | he
        · exact Or.inr (Or.inl he)
        · exact Or.inl he
        · exact Or.inr (Or.inr he)
      · intro u hu
        have := events₂ u hu
        simp only [eventIds, List.map_cons, List.cons_append, List.mem_cons, List.mem_append] at this ⊢
        rcases this with he | he | he
        · exact Or.inr (Or.inl he)
        · exact Or.inl he
        · exact Or.inr (Or.inr he)

theorem foldlM_registerDraw_keyed (ds : List Draw) (hd : ∀ d ∈ ds, Drawn d) (wf : WellFormed o)
    (hs : Sound o allowed s) (swept : Swept draws s) (events : ∀ u ∈ o, u.eventId ∈ draws)
    (hk : Keyed s) (h : ds.foldlM registerDraw s = .ok s') : Keyed s' := by
  induction ds generalizing o draws s with
  | nil =>
    cases h
    exact hk
  | cons d ds ih =>
    rw [List.foldlM_cons] at h
    obtain ⟨s₁, hr, h⟩ := bind_eq_ok.mp h
    have drawn := hd d List.mem_cons_self
    obtain ⟨wf₁, sound₁, swept₁⟩ := registerDraw_sound wf drawn hs swept events hr
    refine ih (fun d h => hd d (List.mem_cons_of_mem _ h)) wf₁ sound₁ swept₁ ?_
      (registerDraw_keyed drawn hk wf hs hr) h
    intro u hu
    rcases List.mem_append.mp hu with hu | hu
    · exact List.mem_cons_of_mem _ (events u hu)
    · rw [drawn.event u hu]
      exact List.mem_cons_self

theorem registerDraws_keyed (hd : ∀ d ∈ ds, Drawn d) (h : registerDraws ds = .ok s) : Keyed s :=
  foldlM_registerDraw_keyed ds hd WellFormed.nil (show Sound [] (fun _ _ => True) {} from Sound.empty)
    (Swept.nil {}) (by simp) List.nodup_nil h

/-- What holds of a session: its units are well formed and in its draws, its state is sound
and swept. -/
structure Session (ds : List Draw) (allowed : PlayUnitId → Result → Prop) (s : TournamentState) :
    Prop where
  wf : WellFormed (origin ds)
  sound : Sound (origin ds) allowed s
  swept : Swept (eventIds ds) s
  events : ∀ u ∈ origin ds, u.eventId ∈ eventIds ds

theorem registerDraws_session (hd : ∀ d ∈ ds, Drawn d) (h : registerDraws ds = .ok s) :
    Session ds allowed s := by
  obtain ⟨wf, sound, swept, events⟩ :=
    foldlM_registerDraw ds hd WellFormed.nil Sound.empty (Swept.nil {}) (by simp) h
  simp only [List.nil_append, List.append_nil] at wf sound swept events
  exact ⟨wf, sound, swept, events⟩

theorem Session.recorded {unit : PlayUnit} {r : Result} {affected : List PlayUnitId}
    (hs : Session ds allowed s) (hp : Playable s unit) (ha : allowed unit.id r)
    (h : Recorded s (eventIds ds) unit r s' affected) :
    Session ds allowed s' :=
  ⟨hs.wf, hs.sound.recorded hs.wf hp ha h, h.swept, hs.events⟩

def SessionReached (ds : List Draw) : TournamentState → Prop :=
  Reachable (fun s => registerDraws ds = .ok s) (RecordStep (eventIds ds))

theorem RecordStep.session {a : PlayUnitId × Result} (h : RecordStep (eventIds ds) s a s')
    (ha : allowed a.1 a.2) (hs : Session ds allowed s) :
    Session ds allowed s' := by
  obtain ⟨hp, h⟩ := h
  exact hs.recorded hp ha (recorded_of_ok hp h)

/-- **In every state of a session the units are settled and no walkover is due.** -/
theorem SessionReached.session (hd : ∀ d ∈ ds, Drawn d) (h : SessionReached ds s) :
    Session ds (fun _ _ => True) s :=
  h.invariant (fun _ h => registerDraws_session hd h) (fun _ _ _ _ hs h => h.session trivial hs)

/-! ## Registration goes through -/

theorem foldlM_insertPlayUnit_total (distinct : (l.map PlayUnit.id).Nodup)
    (new : ∀ u ∈ l, ¬ s.playUnits.Has u.id) : ∃ s', l.foldlM insertPlayUnit s = .ok s' := by
  induction l generalizing s with
  | nil => exact ⟨s, rfl⟩
  | cons u l ih =>
    rw [List.map_cons, List.nodup_cons] at distinct
    obtain ⟨s₁, h₁⟩ : ∃ s₁, insertPlayUnit s u = .ok s₁ := by
      unfold insertPlayUnit
      cases hi : s.playUnits.insert u with
      | none => exact absurd (Table.insert_eq_none.mp hi) (new u List.mem_cons_self)
      | some units => exact ⟨_, rfl⟩
    obtain ⟨-, rows, -, -⟩ := insertPlayUnit_eq_ok h₁
    obtain ⟨s', h'⟩ := ih (s := s₁) distinct.2 fun v hv has => by
      rw [Table.Has, rows, List.map_append, List.mem_append] at has
      rcases has with has | has
      · exact new v (List.mem_cons_of_mem _ hv) has
      · exact distinct.1 (List.mem_singleton.mp has ▸ List.mem_map_of_mem hv)
    refine ⟨s', ?_⟩
    rw [List.foldlM_cons, h₁]
    exact h'

theorem autoWalkover_total (hd : Drawn d) (hs : Sound d.playUnits.rows allowed s)
    {id : PlayUnitId} (first : d.InRound 0 id) :
    ∃ s', autoWalkover d.event.id s id = .ok s' ∧ Sound d.playUnits.rows allowed s' := by
  obtain ⟨u, hu, rfl⟩ := hd.mem_of_inRound first
  have stored := hs.consistent.get hu
  have ready : ∀ v, s.playUnits.get u.id = some v → ∀ x ∈ v.dependencies, s.Resulted x := by
    intro v hv x hx
    rw [stored] at hv
    cases hv
    rw [settleUnit_dependencies, hd.dependencies_of_first hu first] at hx
    cases hx
  obtain ⟨s', h⟩ : ∃ s', autoWalkover d.event.id s u.id = .ok s' := by
    unfold autoWalkover
    split
    · exact ⟨s, rfl⟩
    next new =>
    rw [stored]
    dsimp only
    split
    · exact ⟨s, rfl⟩
    next side due =>
    have recordable : Recordable s [d.event.id] (settleUnit s.playUnits s.result u)
        (walkover side) := by
      refine ⟨stored, by simp [hd.event u hu], by simpa [TournamentState.Resulted] using new, ?_⟩
      -- a walkover goes to a side that is not empty
      rintro (⟨won, empty⟩ | ⟨won, empty⟩) <;>
        simp only [walkover] at won <;> subst won <;> unfold walkoverSide at due <;>
        rw [empty] at due <;> revert due
      · cases (settleUnit s.playUnits s.result u).sideB <;> simp
      · cases (settleUnit s.playUnits s.result u).sideA <;> simp
    obtain ⟨s', affected, ok, -⟩ := recordResult_ok recordable
    exact ⟨s', by rw [show recordResult s [d.event.id] u.id (walkover side) = _ from ok]; rfl⟩
  obtain ⟨⟨⟨touched, sweeps⟩, -⟩, -⟩ := autoWalkover_eq_ok ready h
  exact ⟨s', h, hs.sweeps hd.units sweeps⟩

/-- **A drawn draw with a unit in it can be registered.** -/
theorem registerDraws_total (hd : Drawn d) (some : d.playUnits.rows ≠ []) :
    ∃ s, registerDraws [d] = .ok s := by
  obtain ⟨s₁, h₁⟩ := foldlM_insertPlayUnit_total (s := {}) hd.units.unique
    (fun u _ has => by simp [Table.Has, Table.empty] at has)
  obtain ⟨-, rows, results, -⟩ := foldlM_insertPlayUnit h₁
  have sound : Sound d.playUnits.rows (fun _ _ => True) s₁ := by
    have none : s₁.result = fun _ => none := by
      funext id
      rw [TournamentState.result, results]
      rfl
    refine ⟨?_, fun id u r _ hr => ?_⟩
    · rw [none]
      exact Consistent.fresh hd.units (by rw [rows]; rfl)
    · rw [none] at hr
      cases hr
  cases hr : d.rounds with
  | nil =>
    have := hd.rounds.length_eq
    rw [hr, List.flatten_nil, List.length_nil, List.length_map, eq_comm, List.length_eq_zero_iff] at this
    exact absurd this some
  | cons round rest =>
    obtain ⟨s', walked, -⟩ := foldlM_total (f := autoWalkover d.event.id) (l := round)
      (I := Sound d.playUnits.rows fun _ _ => True)
      (fun id hid t ht => autoWalkover_total hd ht ⟨round, by rw [hr]; rfl, hid⟩) sound
    refine ⟨s', ?_⟩
    rw [registerDraws, List.foldlM_cons, registerDraw, h₁, ok_bind, autoWalkoverByes, hr]
    simp only [walked]
    rfl

end

/-! ## Orders of recording

Two runs that record the same outcomes, each on a unit that can be played then, end in the same
units and the same results. -/

variable {allowed : PlayUnitId → Result → Prop} {ds : List Draw} {s s' : TournamentState}
  {calls : List (PlayUnitId × Result)} {r : Result}

theorem Session.run (hs : Session ds allowed s) (h : Run (RecordStep (eventIds ds)) s calls s')
    (ha : ∀ a ∈ calls, allowed a.1 a.2) : Session ds allowed s' := by
  induction h with
  | nil s => exact hs
  | cons hstep _ ih =>
    exact ih (hstep.session (ha _ List.mem_cons_self) hs)
      (fun a h => ha a (List.mem_cons_of_mem _ h))

variable {draws : List EventId}

theorem RecordStep.keeps {a : PlayUnitId × Result} (h : RecordStep draws s a s') {id : PlayUnitId}
    (hr : s.result id = some r) :
    s'.result id = some r := by
  obtain ⟨hp, h⟩ := h
  exact (recorded_of_ok hp h).keeps hp.new hr

theorem RecordStep.result {draws : List EventId} {a : PlayUnitId × Result}
    (h : RecordStep draws s a s') : s'.result a.1 = some a.2 := by
  obtain ⟨hp, h⟩ := h
  exact (recorded_of_ok hp h).result

theorem run_keeps (h : Run (RecordStep draws) s calls s') {id : PlayUnitId}
    (hr : s.result id = some r) : s'.result id = some r :=
  h.invariant (I := fun s => s.result id = some r) (fun _ _ _ hr hstep => hstep.keeps hr) hr

theorem run_result (h : Run (RecordStep draws) s calls s') :
    ∀ a ∈ calls, s'.result a.1 = some a.2 := by
  induction h with
  | nil s => simp
  | cons hstep hrest ih =>
    intro a ha
    rcases List.mem_cons.mp ha with rfl | ha
    · exact run_keeps hrest hstep.result
    · exact ih a ha

theorem Session.eq_of_sameAt {allowed' : PlayUnitId → Result → Prop} (hs : Session ds allowed s)
    (hs' : Session ds allowed' s') (h : ∀ u ∈ origin ds, SameAt u.id s s') :
    s.playUnits = s'.playUnits ∧ s.result = s'.result := by
  have results : s.result = s'.result := by
    funext id
    cases hr : s.result id with
    | some r =>
      obtain ⟨u, hu, rfl⟩ := hs.sound.consistent.known id (by simp [hr])
      exact hr.symm.trans (h u hu).2
    | none =>
      by_contra hn
      obtain ⟨u, hu, rfl⟩ := hs'.sound.consistent.known id
        (Option.isSome_iff_ne_none.mpr (Ne.symm hn))
      exact hn (hr.symm.trans (h u hu).2)
  refine ⟨hs.sound.consistent.rows_unique hs.wf ?_, results⟩
  rw [results]
  exact hs'.sound.consistent

/-- **The order of recording does not matter.** -/
theorem confluent (hd : ∀ d ∈ ds, Drawn d) {s₀ s₁ s₂ : TournamentState}
    (h₀ : registerDraws ds = .ok s₀) {calls₁ calls₂ : List (PlayUnitId × Result)}
    (r₁ : Run (RecordStep (eventIds ds)) s₀ calls₁ s₁)
    (r₂ : Run (RecordStep (eventIds ds)) s₀ calls₂ s₂) (same : calls₁.Perm calls₂) :
    s₁.playUnits = s₂.playUnits ∧ s₁.result = s₂.result := by
  have start : Session ds (fun id r => (id, r) ∈ calls₁) s₀ := registerDraws_session hd h₀
  have sess₁ := start.run r₁ (fun a h => h)
  have sess₂ := start.run r₂ (fun a h => same.mem_iff.mpr h)
  refine sess₁.eq_of_sameAt sess₂ (fun u hu => ?_)
  refine Sound.unique sess₁.wf (S := fun _ => True) (fun _ _ _ _ _ => trivial) sess₁.events
    sess₁.sound sess₂.sound sess₁.swept sess₂.swept ?_ ?_ u hu trivial
  · exact fun id r _ h => run_result r₂ (id, r) (same.mem_iff.mp h)
  · exact fun id r _ h => run_result r₁ (id, r) h

end Brackets
