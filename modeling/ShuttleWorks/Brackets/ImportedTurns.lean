import ShuttleWorks.Brackets.ImportedSession

/-! Whose turn comes in an imported session. Results that were carried forward leave no unit
stuck, unless nobody stands where an imported result needs somebody. -/

namespace Brackets
open Lib

def PlayUnit.Place.other : PlayUnit.Place → PlayUnit.Place
  | .A => .B
  | .B => .A

def PlayUnit.Place.wins : PlayUnit.Place → WinnerSide
  | .A => .A
  | .B => .B

variable {X : PlayUnit.Place} {r : Result} {evs : List ImportEventIn}

theorem PlayUnit.Place.wins_inj {Y : PlayUnit.Place} (h : X.wins = Y.wins) : X = Y := by
  cases X <;> cases Y
  · rfl
  · cases h
  · cases h
  · rfl

theorem PlayUnit.Place.eq_or_other (X Y : PlayUnit.Place) : X = Y ∨ X = Y.other := by
  cases X <;> cases Y <;> simp [PlayUnit.Place.other]

def ImportResultIn.place (r : ImportResultIn) : PlayUnit.Place :=
  if r.winnerSide = .A then .A else .B

namespace ImportEventIn

/-- Nobody comes to stand at the place: the side of round 0 is empty or a bye, or nobody stands
at either place of the feeder. -/
inductive Barren (ev : ImportEventIn) : PlayUnitId → PlayUnit.Place → Prop
  | bye {mu : ImportPlayUnitIn} {X : PlayUnit.Place} : mu ∈ ev.rounds.headD [] →
    slotHead (mu.side X) = BYE → Barren ev mu.id X
  | fed {round : List ImportPlayUnitIn} {mu : ImportPlayUnitIn} {X : PlayUnit.Place}
    {f : PlayUnitId} : round ∈ ev.rounds.tail → mu ∈ round → mu.feeder X = some f →
    Barren ev f .A → Barren ev f .B → Barren ev mu.id X

def Feeds (ev : ImportEventIn) (id : PlayUnitId) : Prop :=
  ∃ round ∈ ev.rounds.tail, ∃ mu ∈ round, ∃ X, mu.feeder X = some id

/-- Imported results and byes do not meet: somebody stands where a winner was imported that
another unit takes, and a unit that nobody comes to on one side has no imported result on the
way to the other. -/
structure ResultsStand (ev : ImportEventIn) : Prop where
  winners : ∀ mu ∈ ev.rounds.flatten, ev.Feeds mu.id → ∀ r ∈ mu.result,
    ¬ ev.Barren mu.id r.place
  byes : ∀ round ∈ ev.rounds.tail, ∀ mu ∈ round, mu.result = none → ∀ X, ev.Barren mu.id X →
    ∀ g ∈ mu.feeder X.other, ∀ mu' ∈ ev.rounds.flatten, mu'.id = g → mu'.result = none

def Open (ev : ImportEventIn) : Prop :=
  ¬ ev.HistoricalRecords ∧
    ∃ mu ∈ ev.rounds.headD [], mu.result = none ∧ mu.sideA ≠ [] ∧ mu.sideB ≠ []

end ImportEventIn

variable {ev : ImportEventIn} {d : Draw} {rows : List (List PlayUnit)}
  {wres res : PlayUnitId → Option Result} {done : List PlayUnitId} {s : TournamentState}

/-! ## Sides -/

theorem winnerSide_cases (w : WinnerSide) :
    w = .NONE ∨ ∃ X : PlayUnit.Place, w = X.wins := by
  cases w
  · exact .inr ⟨.A, rfl⟩
  · exact .inr ⟨.B, rfl⟩
  · exact .inl rfl

theorem ImportResultIn.winnerSide_eq (r : ImportResultIn) :
    r.winnerSide = r.place.wins := by
  unfold ImportResultIn.place
  cases h : r.winnerSide with
  | A => rfl
  | B => rfl
  | NONE => exact absurd h r.decided

theorem fed_winner (unit : PlayUnit) (h : r.winnerSide = X.wins) :
    unit.fed r .winner = (unit.side X).head? := by
  unfold PlayUnit.fed PlayUnit.winnerParticipantId
  rw [h]
  cases X <;> rfl

theorem unrecoverable_iff {unit : PlayUnit} (h : r.winnerSide = X.wins) :
    Unrecoverable unit r ↔ unit.side X = [] := by
  unfold Unrecoverable
  rw [h]
  cases X <;> simp [PlayUnit.side, PlayUnit.Place.wins]

theorem IsWalkover.sides {unit : PlayUnit} (h : IsWalkover unit r) :
    (r.winnerSide = .NONE ∧ ∀ X, unit.side X = []) ∨
      ∃ X : PlayUnit.Place, (r.winnerSide = X.wins) ∧
        unit.side X ≠ [] ∧ unit.side X.other = [] := by
  obtain ⟨w, hw, rfl⟩ := h
  unfold walkoverSide at hw
  cases hA : unit.sideA with
  | nil =>
    cases hB : unit.sideB with
    | nil =>
      rw [hA, hB] at hw
      cases hw
      refine .inl ⟨rfl, ?_⟩
      rintro (_ | _)
      · exact hA
      · exact hB
    | cons p l =>
      rw [hA, hB] at hw
      cases hw
      exact .inr ⟨.B, rfl, by simp [PlayUnit.side, hB], hA⟩
  | cons p l =>
    cases hB : unit.sideB with
    | nil =>
      rw [hA, hB] at hw
      cases hw
      exact .inr ⟨.A, rfl, by simp [PlayUnit.side, hA], hB⟩
    | cons q l' =>
      rw [hA, hB] at hw
      cases hw

theorem orBye_eq_bye {p : Option ParticipantId} (h : orBye p = BYE) :
    p = none ∨ p = some "" ∨ p = some BYE := by
  cases p with
  | none => exact .inl rfl
  | some p =>
    rw [show orBye (some p) = if p = "" then BYE else p from rfl] at h
    split at h
    · next e => exact .inr (.inl (by rw [e]))
    · exact .inr (.inr (by rw [h]))

theorem orBye_ne_empty (p : Option ParticipantId) : orBye p ≠ "" := by
  cases p with
  | none => decide
  | some p =>
    rw [show orBye (some p) = if p = "" then BYE else p from rfl]
    split
    · decide
    · next named => exact named

theorem exists_at_of_headD {mu : ImportPlayUnitIn} (h : mu ∈ ev.rounds.headD []) :
    ∃ m, At ev.rounds 0 m mu := by
  cases hrounds : ev.rounds with
  | nil =>
    rw [hrounds] at h
    cases h
  | cons round rest =>
    rw [hrounds] at h
    obtain ⟨m, hm⟩ := List.getElem?_of_mem h
    exact ⟨m, round, rfl, hm⟩

/-! ## Live events -/

section

variable (draw : ImportedDraw ev d rows) (live : ¬ ev.HistoricalRecords)
include draw live

variable {u : PlayUnit}

/-- How a place of a settled unit looks: given in round 0, waiting for its feeder, or settled
by the feeder's result. -/
theorem ImportedDraw.place_cases (units : PlayUnits) (res : PlayUnitId → Option Result)
    (hu : u ∈ rows.flatten) (X : PlayUnit.Place) :
    (∃ mu ∈ ev.rounds.headD [], mu.id = u.id ∧ u.dependencies = [] ∧
        (settleUnit units res u).side X = mu.side X ∧
        (settleUnit units res u).slot X = .participant (slotHead (mu.side X))) ∨
      ∃ round ∈ ev.rounds.tail, ∃ mu ∈ round, ∃ f, mu.id = u.id ∧ mu.feeder X = some f ∧
        f ∈ u.dependencies ∧ u.slot X = .feeder f .winner ∧
        (∀ x ∈ u.dependencies, x = f ∨ mu.feeder X.other = some x) ∧
        (settleUnit units res u).side X =
          (settleSlot units res (.feeder f .winner)).refreshSide [] ∧
        (settleUnit units res u).slot X = settleSlot units res (.feeder f .winner) := by
  obtain ⟨r, m, mu, hmu, -, imported⟩ := draw.entry hu
  by_cases first : r = 0
  · subst first
    obtain ⟨deps, slots⟩ := imported.first live rfl
    refine .inl ⟨mu, ?_, imported.id.symm, deps, ?_, ?_⟩
    · obtain ⟨round, hr, hm⟩ := hmu
      cases hrounds : ev.rounds with
      | nil =>
        rw [hrounds] at hr
        cases hr
      | cons first rest =>
        rw [hrounds] at hr
        cases hr
        exact List.mem_of_getElem? hm
    · have slot := (slots X).2
      cases X
      · simp only [PlayUnit.slot] at slot
        simp only [PlayUnit.side, settleUnit, slot, settleSide]
        exact (slots .A).1
      · simp only [PlayUnit.slot] at slot
        simp only [PlayUnit.side, settleUnit, slot, settleSide]
        exact (slots .B).1
    · have slot := (slots X).2
      cases X
      · simp only [PlayUnit.slot] at slot
        simp only [PlayUnit.slot, settleUnit, slot, settleSlot]
      · simp only [PlayUnit.slot] at slot
        simp only [PlayUnit.slot, settleUnit, slot, settleSlot]
  · obtain ⟨f, deps, slots⟩ := imported.later live first
    obtain ⟨round, hround, hin⟩ := hmu.tail first
    obtain ⟨names, side, slot⟩ := slots X
    refine .inr ⟨round, hround, mu, hin, f X, imported.id.symm, names, ?_, slot, ?_, ?_, ?_⟩
    · rw [deps]
      cases X <;> simp
    · intro x hx
      rw [deps] at hx
      simp only [List.mem_cons, List.not_mem_nil, or_false] at hx
      cases X
      · exact hx.imp_right fun e => by rw [e]; exact (slots .B).1
      · exact hx.symm.imp_right fun e => by rw [e]; exact (slots .A).1
    · cases X
      · simp only [PlayUnit.slot, PlayUnit.side] at slot side
        simp only [PlayUnit.side, settleUnit, slot, side, settleSide]
      · simp only [PlayUnit.slot, PlayUnit.side] at slot side
        simp only [PlayUnit.side, settleUnit, slot, side, settleSide]
    · cases X
      · simp only [PlayUnit.slot] at slot
        simp only [PlayUnit.slot, settleUnit, slot]
      · simp only [PlayUnit.slot] at slot
        simp only [PlayUnit.slot, settleUnit, slot]

variable {f : PlayUnitId}

theorem ImportedDraw.feeds (hu : u ∈ rows.flatten) (hf : f ∈ u.dependencies) :
    ev.Feeds f := by
  obtain ⟨r, m, mu, hmu, -, imported⟩ := draw.entry hu
  have later : r ≠ 0 := by
    intro first
    rw [(imported.first live first).1] at hf
    cases hf
  obtain ⟨g, deps, slots⟩ := imported.later live later
  obtain ⟨round, hround, hin⟩ := hmu.tail later
  rw [deps] at hf
  simp only [List.mem_cons, List.not_mem_nil, or_false] at hf
  rcases hf with rfl | rfl
  · exact ⟨round, hround, mu, hin, .A, (slots .A).1⟩
  · exact ⟨round, hround, mu, hin, .B, (slots .B).1⟩

theorem ImportedDraw.side_head {units : PlayUnits} (hu : u ∈ rows.flatten) (X : PlayUnit.Place)
    (h : orBye ((settleUnit units res u).side X).head? = BYE) :
    (settleUnit units res u).side X = [] ∨ ev.Barren u.id X := by
  rcases draw.place_cases live units res hu X with
    ⟨mu, hmu, e, -, side, -⟩ | ⟨-, -, -, -, f, -, -, -, -, -, side, -⟩
  · rw [side] at h ⊢
    cases hs : mu.side X with
    | nil => exact .inl rfl
    | cons p l =>
      refine .inr (e ▸ .bye hmu ?_)
      rw [hs] at h
      have named : p ≠ "" := by
        rintro rfl
        have := mu.named
        cases X
        · simp only [ImportPlayUnitIn.side] at hs
          simp [hs] at this
        · simp only [ImportPlayUnitIn.side] at hs
          simp [hs] at this
      rw [hs]
      rcases orBye_eq_bye h with h | h | h
      · cases h
      · exact absurd (Option.some.inj h) named
      · exact Option.some.inj h
  · left
    rw [side] at h ⊢
    cases hs : settleSlot units res (.feeder f .winner) with
    | feeder => rfl
    | participant p =>
      rw [hs, BracketSlot.refreshSide] at h
      rw [BracketSlot.refreshSide]
      split at h
      · next bye => rw [if_pos bye]
      · next named =>
        exfalso
        rw [List.head?_cons] at h
        rcases orBye_eq_bye h with h | h | h
        · cases h
        · -- a settled slot never has the empty name
          have e : p = "" := Option.some.inj h
          rw [settleSlot] at hs
          split at hs
          · next result feeder _ _ =>
            have e' : orBye (feeder.fed result .winner) = p := BracketSlot.participant.inj hs
            rw [e] at e'
            exact orBye_ne_empty _ e'
          · cases hs
        · exact named (Option.some.inj h)

theorem ImportedDraw.carried_slot (noSelf : ev.NoSelf)
    (c : Carried rows.flatten wres s.result res done s.playUnits) (hu : u ∈ rows.flatten)
    (hf : f ∈ u.dependencies) (hr : res f = some r) :
    ∃ v ∈ rows.flatten, v.id = f ∧
      settleSlot s.playUnits res (.feeder f .winner) =
        .participant (orBye ((settleUnit s.playUnits res v).fed r .winner)) := by
  obtain ⟨v, hv, rfl⟩ := (draw.liveRows live noSelf).wellFormed.closed hu hf
  refine ⟨v, hv, rfl, ?_⟩
  rw [settleSlot, hr, c.settled v hv]

theorem ImportedDraw.walked_settled (noSelf : ev.NoSelf)
    (c : Carried rows.flatten wres s.result res done s.playUnits) (hu : u ∈ rows.flatten)
    (walked : ∀ x ∈ u.dependencies, (wres x).isSome) (X : PlayUnit.Place) :
    ((settleUnit s.playUnits res u).slot X).feederPlayUnitId = none := by
  rcases draw.place_cases live s.playUnits res hu X with
    ⟨mu, -, -, -, -, slot⟩ | ⟨-, -, -, -, f, -, -, hf, -, -, -, slot⟩
  · rw [slot]
    rfl
  · obtain ⟨v, hv, rfl⟩ := (draw.liveRows live noSelf).wellFormed.closed hu hf
    obtain ⟨r, hr⟩ := Option.isSome_iff_exists.mp (walked v.id hf)
    obtain ⟨_, _, _, e⟩ := draw.carried_slot live noSelf c hu hf (c.walked v hv r hr).1
    rw [slot, e]
    rfl

theorem ImportedDraw.carried_result (state : EventState ev rows wres res done s)
    (hu : u ∈ rows.flatten) (hr : res u.id = some r) :
    ((∀ x ∈ u.dependencies, (wres x).isSome) ∧ IsWalkover (settleUnit s.playUnits res u) r) ∨
      ∃ mu ∈ ev.rounds.flatten, mu.id = u.id ∧ ∃ r' ∈ mu.result,
        (r.winnerSide = r'.place.wins) ∧
          (settleUnit s.playUnits res u).side r'.place ≠ [] := by
  have c := state.live live
  rcases c.given u hu r hr with hw | ⟨hw, -, hres, known⟩
  · obtain ⟨-, deps, walkover⟩ := c.walked u hu r hw
    exact .inl ⟨deps, walkover⟩
  · obtain ⟨x, m, mu, hmu, -, imported⟩ := draw.entry hu
    have given := state.given mu hmu.mem
    rw [← imported.id, hres] at given
    cases hmr : mu.result with
    | none =>
      rw [hmr] at given
      rw [show wres u.id = some r from given.symm] at hw
      cases hw
    | some r' =>
      rw [hmr] at given
      cases given
      have winner := r'.winnerSide_eq
      refine .inr ⟨mu, hmu.mem, imported.id.symm, r', hmr, winner, ?_⟩
      exact fun empty => known ((unrecoverable_iff winner).mpr empty)

/-- **Nobody is settled only where nobody comes.** -/
theorem ImportedDraw.barren (noSelf : ev.NoSelf) (stand : ev.ResultsStand)
    (state : EventState ev rows wres res done s) : ∀ u ∈ rows.flatten, ∀ X,
      ((settleUnit s.playUnits res u).slot X).feederPlayUnitId = none →
      (settleUnit s.playUnits res u).side X = [] → ev.Barren u.id X := by
  have c := state.live live
  have wf := (draw.liveRows live noSelf).wellFormed
  suffices h : ∀ u ∈ rows.flatten, ∀ v ∈ rows.flatten, v.id = u.id → ∀ X,
      ((settleUnit s.playUnits res v).slot X).feederPlayUnitId = none →
      (settleUnit s.playUnits res v).side X = [] → ev.Barren u.id X by
    exact fun u hu => h u hu u hu rfl
  refine wf.ordered.induction (P := fun id => ∀ v ∈ rows.flatten, v.id = id → ∀ X,
    ((settleUnit s.playUnits res v).slot X).feederPlayUnitId = none →
    (settleUnit s.playUnits res v).side X = [] → ev.Barren id X) (by simp) ?_
  intro u hu ih v hv e X settled empty
  obtain rfl := wf.eq_of_id_eq hv hu e
  rcases draw.place_cases live s.playUnits res hv X with
    ⟨mu, hmu, e, -, side, -⟩ | ⟨round, hround, mu, hmu, f, e, names, hf, -, -, side, slot⟩
  · rw [side] at empty
    refine e ▸ .bye hmu ?_
    rw [slotHead, empty]
    rfl
  · cases hr : res f with
    | none =>
      rw [slot, settleSlot, hr] at settled
      cases settled
    | some r =>
      obtain ⟨w, hw, rfl, fed⟩ := draw.carried_slot live noSelf c hv hf hr
      have nobody : orBye ((settleUnit s.playUnits res w).fed r .winner) = BYE := by
        rw [side, fed, BracketSlot.refreshSide] at empty
        by_contra somebody
        rw [if_neg somebody] at empty
        cases empty
      have both : ∀ Y, ev.Barren w.id Y := by
        rcases draw.carried_result live state hw hr with ⟨deps, walkover⟩ |
          ⟨mu', hmu', e', r', hr', winner, stands⟩
        · have settled := draw.walked_settled live noSelf c hw deps
          rcases walkover.sides with ⟨-, empty⟩ | ⟨Y, winner, stands, empty⟩
          · exact fun Y => ih w.id hf w hw rfl Y (settled Y) (empty Y)
          · rw [fed_winner _ winner] at nobody
            have own := (draw.side_head live hw Y nobody).resolve_left stands
            have other := ih w.id hf w hw rfl Y.other (settled _) empty
            intro Z
            cases Y <;> cases Z
            · exact own
            · exact other
            · exact other
            · exact own
        · rw [fed_winner _ winner] at nobody
          have own := (draw.side_head live hw r'.place nobody).resolve_left stands
          exact absurd (e' ▸ own) (stand.winners mu' hmu' (e' ▸ draw.feeds live hv hf) r' hr')
      exact e ▸ .fed hround hmu names (both .A) (both .B)

/-- **A unit's turn comes** once all it depends on are decided and wait for nobody: it waits for
nobody itself, and unless it is decided both its sides are known. -/
theorem ImportedDraw.turn (noSelf : ev.NoSelf) (stand : ev.ResultsStand)
    (state : EventState ev rows wres res done s) (hu : u ∈ rows.flatten)
    (visited : ∀ v ∈ rows.flatten, v.id ∈ done)
    (before : ∀ v ∈ rows.flatten, v.id ∈ u.dependencies → s.Resulted v.id ∧
      ∀ X, ((settleUnit s.playUnits res v).slot X).feederPlayUnitId = none) :
    (∀ X, ((settleUnit s.playUnits res u).slot X).feederPlayUnitId = none) ∧
      (¬ s.Resulted u.id → ∀ X, (settleUnit s.playUnits res u).side X ≠ []) := by
  have c := state.live live
  have wf := (draw.liveRows live noSelf).wellFormed
  have nobody := draw.barren live noSelf stand state
  -- what a unit depends on was carried: otherwise nobody stood where a winner was imported
  have carried : ∀ f ∈ u.dependencies, (res f).isSome := by
    intro f hf
    obtain ⟨v, hv, rfl⟩ := wf.closed hu hf
    obtain ⟨resulted, settled⟩ := before v hv hf
    obtain ⟨r, hr⟩ := Option.isSome_iff_exists.mp resulted
    by_contra open'
    rw [Option.not_isSome_iff_eq_none] at open'
    have lost := c.missed v hv (visited v hv) open' r hr
    obtain ⟨x, m, mu, hmu, -, imported⟩ := draw.entry hv
    have given := state.given mu hmu.mem
    rw [← imported.id, hr] at given
    cases hmr : mu.result with
    | none =>
      rw [hmr] at given
      rw [(c.walked v hv r given.symm).1] at open'
      cases open'
    | some r' =>
      rw [hmr] at given
      cases given
      have empty := (unrecoverable_iff r'.winnerSide_eq).mp lost
      have barren := nobody v hv r'.place (settled _) empty
      exact stand.winners mu hmu.mem (imported.id ▸ draw.feeds live hu hf) r' hmr
        (imported.id ▸ barren)
  have settled : ∀ X, ((settleUnit s.playUnits res u).slot X).feederPlayUnitId = none := by
    intro X
    rcases draw.place_cases live s.playUnits res hu X with
      ⟨mu, -, -, -, -, slot⟩ | ⟨-, -, -, -, f, -, -, hf, -, -, -, slot⟩
    · rw [slot]
      rfl
    · obtain ⟨r, hr⟩ := Option.isSome_iff_exists.mp (carried f hf)
      obtain ⟨_, _, _, e⟩ := draw.carried_slot live noSelf c hu hf hr
      rw [slot, e]
      rfl
  refine ⟨settled, fun open' X empty => ?_⟩
  have barren := nobody u hu X (settled X) empty
  have unwalked : wres u.id = none := by
    by_contra hw
    obtain ⟨r, hw⟩ := Option.ne_none_iff_exists'.mp hw
    obtain ⟨x, m, mu, hmu, -, imported⟩ := draw.entry hu
    have given := state.given mu hmu.mem
    rw [← imported.id] at given
    apply open'
    rw [TournamentState.Resulted, given]
    cases mu.result with
    | none => simp [hw]
    | some r => rfl
  -- it would have been walked over with the byes
  have due : (∀ x ∈ u.dependencies, (wres x).isSome) → False := by
    intro deps
    obtain ⟨a, b⟩ := walkoverSide_eq_none_iff.mp (c.ready u hu unwalked deps)
    cases X
    · exact a empty
    · exact b empty
  rcases draw.place_cases live s.playUnits res hu X with
    ⟨mu, -, -, deps, -, -⟩ | ⟨round, hround, mu, hmu, f, e, names, hf, -, others, side, -⟩
  · exact due fun x hx => by simp [deps] at hx
  · apply due
    have undecided : mu.result = none := by
      by_contra decided
      obtain ⟨r, hr⟩ := Option.ne_none_iff_exists'.mp decided
      have given := state.given mu (List.mem_flatten.mpr ⟨round, List.mem_of_mem_tail hround, hmu⟩)
      rw [hr, e] at given
      exact open' (by rw [TournamentState.Resulted, given]; rfl)
    intro x hx
    obtain ⟨w, hw, rfl⟩ := wf.closed hu hx
    obtain ⟨r, hr⟩ := Option.isSome_iff_exists.mp (carried w.id hx)
    rcases c.given w hw r hr with hw' | ⟨hw', -, hres, known⟩
    · simp [hw']
    · exfalso
      obtain ⟨y, m, mu', hmu', -, imported⟩ := draw.entry hw
      have given := state.given mu' hmu'.mem
      rw [← imported.id, hres, hw'] at given
      cases hmr : mu'.result with
      | none =>
        rw [hmr] at given
        cases given
      | some r' =>
        rw [hmr] at given
        cases given
        rcases others w.id hx with rfl | other
        · -- the feeder of the empty side itself: its imported winner would stand nowhere
          obtain ⟨v, hv, same, fed⟩ := draw.carried_slot live noSelf c hu hf hr
          obtain rfl := wf.eq_of_id_eq hv hw same
          have gone : orBye ((settleUnit s.playUnits res v).fed r'.toResult .winner) = BYE := by
            rw [side, fed, BracketSlot.refreshSide] at empty
            by_contra somebody
            rw [if_neg somebody] at empty
            cases empty
          rw [fed_winner _ r'.winnerSide_eq] at gone
          have own := (draw.side_head live hv r'.place gone).resolve_left fun empty =>
            known ((unrecoverable_iff r'.winnerSide_eq).mpr empty)
          exact stand.winners mu' hmu'.mem (imported.id ▸ draw.feeds live hu hx) r' hmr
            (imported.id ▸ own)
        · have := stand.byes round hround mu hmu undecided X (e ▸ barren) w.id other mu' hmu'.mem
            imported.id.symm
          rw [hmr] at this
          cases this

end

/-! ## The session -/

theorem ImportedSession.standsOn {session : BracketSession} (h : ImportedSession evs session) :
    StandsOn session.draws session.state where
  ids := h.ids
  get := by
    intro d hd v hv
    obtain ⟨ev, -, rows, wres, res, draw, state⟩ := h.draws d hd
    exact state.get draw (draw.rows_playUnits ▸ hv)

theorem ImportedSession.decided {session : BracketSession} (noSelf : ∀ ev ∈ evs, ev.NoSelf)
    (stand : ∀ ev ∈ evs, ev.HistoricalRecords ∨ ev.ResultsStand) (h : ImportedSession evs session)
    (stuck : ∀ u, ¬ Playable session.state u) :
    ∀ u ∈ session.state.playUnits.rows, session.state.Resulted u.id := by
  have ranked := h.standsOn.ranked h.ordered
  set done := (origin session.draws).map PlayUnit.id with hdone
  have visited : ∀ d ∈ session.draws, ∀ v ∈ d.playUnits.rows, v.id ∈ done := fun d hd v hv =>
    List.mem_map_of_mem (List.mem_flatMap.mpr ⟨d, hd, hv⟩)
  -- beside being decided a live unit waits for nobody, which the turn of the next ones needs
  suffices both : ∀ n, ∀ u ∈ session.state.playUnits.rows, done.idxOf u.id = n →
      session.state.Resulted u.id ∧ ∀ ev ∈ evs, ∀ d ∈ session.draws, ∀ rows wres res,
        ImportedDraw ev d rows → EventState ev rows wres res done session.state →
        ¬ ev.HistoricalRecords → ∀ v ∈ rows.flatten, v.id = u.id → ∀ X,
          ((settleUnit session.state.playUnits res v).slot X).feederPlayUnitId = none by
    exact fun u hu => (both _ u hu rfl).1
  intro n
  induction n using Nat.strong_induction_on with
  | _ n ih =>
    intro u hu hn
    have before : ∀ x ∈ u.dependencies, ∃ w ∈ session.state.playUnits.rows, w.id = x ∧
        done.idxOf w.id < n := by
      intro x hx
      obtain ⟨has, lt⟩ := ranked u hu x hx
      obtain ⟨w, hw, rfl⟩ := Table.has_iff.mp has
      exact ⟨w, hw, rfl, hn ▸ lt⟩
    have ready : ∀ x ∈ u.dependencies, session.state.Resulted x := by
      intro x hx
      obtain ⟨w, hw, rfl, lt⟩ := before x hx
      exact (ih _ lt w hw rfl).1
    have turn : ∀ ev ∈ evs, ∀ d ∈ session.draws, ∀ rows wres res,
        ImportedDraw ev d rows → EventState ev rows wres res done session.state →
        ¬ ev.HistoricalRecords → ∀ v ∈ rows.flatten, v.id = u.id →
        (∀ X, ((settleUnit session.state.playUnits res v).slot X).feederPlayUnitId = none) ∧
          (¬ session.state.Resulted v.id → ∀ X,
            (settleUnit session.state.playUnits res v).side X ≠ []) := by
      intro ev hev d hd rows wres res draw state live v hv e
      have stored := (state.live live).settled v hv
      rw [e, Table.get_eq_some_iff.mpr ⟨hu, rfl⟩] at stored
      have deps : u.dependencies = v.dependencies := by
        rw [Option.some.inj stored]
        rfl
      refine draw.turn live (noSelf ev hev) ((stand ev hev).resolve_left live) state hv
        (fun w hw => visited d hd w (draw.rows_playUnits ▸ hw)) fun w hw hdep => ?_
      obtain ⟨w', hw', e', lt⟩ := before w.id (deps ▸ hdep)
      obtain ⟨resulted, settled⟩ := ih _ lt w' hw' rfl
      exact ⟨e' ▸ resulted, settled ev hev d hd rows wres res draw state live w hw e'.symm⟩
    refine ⟨?_, fun ev hev d hd rows wres res draw state live v hv e =>
      (turn ev hev d hd rows wres res draw state live v hv e).1⟩
    by_contra open'
    obtain ⟨d, hd, v, hv, e, -, -⟩ := h.standsOn.unit hu
    obtain ⟨ev, hev, rows, wres, res, draw, state⟩ := h.draws d hd
    rw [draw.rows_playUnits] at hv
    by_cases hist : ev.HistoricalRecords
    · -- completed matches come with their results
      obtain ⟨r, m, mu, hmu, -, imported⟩ := draw.entry hv
      have given := state.given mu hmu.mem
      obtain ⟨decided, -, -⟩ := imported.completed hist
      obtain ⟨r, hr⟩ := Option.ne_none_iff_exists'.mp decided
      rw [hr, ← imported.id, e] at given
      exact open' (by rw [TournamentState.Resulted, given]; rfl)
    · obtain ⟨-, sides⟩ := turn ev hev d hd rows wres res draw state hist v hv e
      have stored := (state.live hist).settled v hv
      rw [e, Table.get_eq_some_iff.mpr ⟨hu, rfl⟩] at stored
      have known := sides (by rw [e]; exact open')
      rw [← Option.some.inj stored] at known
      exact stuck u (playable_of_ready hu ⟨known .A, known .B⟩ open' ready)

theorem ImportedSession.playable {session : BracketSession} (h : ImportedSession evs session)
    (hev : ev ∈ evs) (open' : ev.Open) :
    ∃ u, Playable session.state u := by
  obtain ⟨live, mu, hmu, undecided, sideA, sideB⟩ := open'
  obtain ⟨d, hd, rows, wres, res, draw, state⟩ := h.all ev hev
  obtain ⟨m, hat⟩ := exists_at_of_headD hmu
  obtain ⟨u, hu, imported⟩ := draw.onto 0 m mu hat
  obtain ⟨deps, slots⟩ := imported.first live rfl
  have c := state.live live
  have own : settleUnit session.state.playUnits res u = u :=
    settleUnit_concrete ⟨deps, ⟨_, (slots .A).2⟩, _, (slots .B).2⟩
  have stored := c.settled u hu.mem
  rw [own] at stored
  have sides : u.sideA ≠ [] ∧ u.sideB ≠ [] := by
    have a := (slots .A).1
    have b := (slots .B).1
    simp only [PlayUnit.side, ImportPlayUnitIn.side] at a b
    exact ⟨a ▸ sideA, b ▸ sideB⟩
  refine ⟨u, playable_of_ready (Table.mem_of_get stored) sides ?_ fun x hx => by simp [deps] at hx⟩
  have given := state.given mu hat.mem
  rw [undecided, ← imported.id] at given
  rw [TournamentState.Resulted, given]
  intro resulted
  obtain ⟨r, hr⟩ := Option.isSome_iff_exists.mp resulted
  obtain ⟨-, -, side, empty, -⟩ := c.walked u hu.mem r hr
  rw [own, walkoverSide_eq_none_iff.mpr sides] at empty
  cases empty

/-- **Every turn comes in an imported session** whose results stand, or in which a match of a
first round can be played: recording its result walks over whatever is due. -/
theorem ImportedSession.eventuallyReady {session : BracketSession} (noSelf : ∀ ev ∈ evs, ev.NoSelf)
    (start : (∀ ev ∈ evs, ev.HistoricalRecords ∨ ev.ResultsStand) ∨ ∃ ev ∈ evs, ev.Open)
    (h : ImportedSession evs session) :
    EventuallyReady (eventIds session.draws) session.state := by
  refine EventuallyReady.of_ranked (h.standsOn.ranked h.ordered) h.standsOn.events fun stuck => ?_
  rcases start with stand | ⟨ev, hev, open'⟩
  · exact h.decided noSelf stand stuck
  · obtain ⟨u, playable⟩ := h.playable hev open'
    exact absurd playable (stuck u)

end Brackets
