import ShuttleWorks.Brackets.Formats.Placement
import ShuttleWorks.Brackets.Guarantees
import ShuttleWorks.Brackets.Playing

/-! A single elimination played to its end. No slot takes a loser, so whoever is beaten is out;
and every round has a winner to send on, up to the one who wins the final. -/

namespace Brackets
open Lib Relation

/-- What a single elimination of `2 ^ (k + 1)` slots is generated from. -/
structure SingleDraw where
  participants : List Participant
  eventId : EventId
  idPrefix : String
  durationSlots : Nat
  k : Nat

namespace SingleDraw

variable {sd : SingleDraw} {o : List PlayUnit} {units : PlayUnits}
  {res : PlayUnitId → Option Result} {x y : ParticipantId} {a b : Seat} {r m : Nat}
  {i : PlayUnit.Place} {u : PlayUnit}

def unit (sd : SingleDraw) (r m : Nat) : PlayUnit :=
  (plainCascade sd.eventId sd.idPrefix sd.durationSlots).unitAt (entrantAt sd.participants sd.k) r m

def rows (sd : SingleDraw) : List PlayUnit :=
  (singleRounds sd.participants sd.eventId sd.idPrefix sd.durationSlots sd.k).flatten

theorem mem_rows : u ∈ sd.rows ↔ ∃ r m, r ≤ sd.k ∧ m < 2 ^ (sd.k - r) ∧ sd.unit r m = u := by
  simp only [rows, mem_flatten_iff_at, at_singleRounds, Nat.lt_succ_iff]
  rfl

theorem slot_unit (i : PlayUnit.Place) : (sd.unit r m).slot i =
    match r with
    | 0 => entrantAt sd.participants sd.k (2 * m + (if i = .A then 0 else 1))
    | r + 1 => .feeder (sd.unit r (2 * m + (if i = .A then 0 else 1))).id .winner := by
  rw [unit, SpawnPlan.slot_unitAt]
  cases r with
  | zero => rfl
  | succ r => simp only [unit, Cascade.unitAt_id]

theorem slot_next : (sd.unit (r + 1) (m / 2)).slot (placeOf m) =
    .feeder (sd.unit r m).id .winner := by
  rw [slot_unit]
  simp only [placeOf_number]

theorem slot_ne_loser (hu : u ∈ sd.rows) {id : PlayUnitId} : u.slot i ≠ .feeder id .loser := by
  obtain ⟨r, m, -, -, rfl⟩ := mem_rows.mp hu
  rw [slot_unit]
  cases r with
  | zero =>
    obtain ⟨p, hp⟩ := entrantAt_participant sd.participants sd.k (2 * m + (if i = .A then 0 else 1))
    simp [hp]
  | succ r => simp

theorem slot_ne_final (hu : u ∈ sd.rows) {take : FeederTake} :
    u.slot i ≠ .feeder (sd.unit sd.k 0).id take := by
  obtain ⟨r, m, hr, -, rfl⟩ := mem_rows.mp hu
  rw [slot_unit]
  cases r with
  | zero =>
    obtain ⟨p, hp⟩ := entrantAt_participant sd.participants sd.k (2 * m + (if i = .A then 0 else 1))
    simp [hp]
  | succ r =>
    intro e
    have same := (BracketSlot.feeder.inj e).1
    rw [unit, unit, Cascade.unitAt_id, Cascade.unitAt_id] at same
    have := (roundUnitId_inj same).1
    omega

/-- A table over a single elimination of named entrants in which every unit was decided, by walkover
or on the court. -/
structure PlayedOut (sd : SingleDraw) (o : List PlayUnit) (units : PlayUnits)
    (res : PlayUnitId → Option Result) : Prop where
  named : ∀ p ∈ sd.participants, p.id ≠ BYE ∧ p.id ≠ ""
  fits : sd.participants.length ≤ 2 ^ (sd.k + 1)
  routing : Routing sd.participants o sd.rows units res
  decided : ∀ u ∈ sd.rows, ∃ r, res u.id = some r ∧
    Decides (fun _ r => r.Played) (settleUnit units res u) r

namespace PlayedOut

variable (h : PlayedOut sd o units res)
include h

/-! ## Entrants -/

theorem enters (hx : x ∈ sd.participants.map Participant.id) :
    ∃ m i, m < 2 ^ sd.k ∧ Sits sd.rows units res x (sd.unit 0 m, i) := by
  obtain ⟨p, hp, rfl⟩ := List.mem_map.mp hx
  have real := (h.named p hp).1
  obtain ⟨n, hn⟩ := List.getElem?_of_mem ((mem_entrantSlots h.fits real).mpr hx)
  have lt : n < 2 ^ (sd.k + 1) := by
    rw [← length_entrantSlots sd.participants (2 ^ (sd.k + 1))]
    exact (List.getElem?_eq_some_iff.mp hn).1
  rw [Nat.pow_succ] at lt
  have bound : n / 2 < 2 ^ sd.k := by omega
  refine ⟨n / 2, placeOf n, bound, h.routing.entered ?_ ?_ real⟩
  · exact mem_rows.mpr ⟨0, n / 2, Nat.zero_le _, bound, rfl⟩
  · show (sd.unit 0 (n / 2)).slot (placeOf n) = .participant p.id
    rw [slot_unit]
    simp only [placeOf_number, entrantAt]
    rw [List.getD_eq_getElem?_getD, hn, Option.getD_some]

theorem listed (sits : Sits sd.rows units res x a) : x ∈ sd.participants.map Participant.id := by
  obtain ⟨⟨u, i⟩, entered, slot, -⟩ := h.routing.path sits
  have real := (h.routing.alone sits).2
  obtain ⟨r, m, -, -, rfl⟩ := mem_rows.mp entered.1
  rw [slot_unit] at slot
  cases r with
  | zero =>
    exact (mem_entrantSlots h.fits real).mp (List.mem_of_getElem? (getElem?_of_getD real slot))
  | succ r => cases slot

/-! ## Who is beaten -/

omit h in
theorem stays (beaten : Beaten sd.rows units res x a) : ¬ Moves sd.rows units res x a b :=
  fun move => slot_ne_loser move.2.1.1 (Routing.beaten_take beaten move)

theorem beaten_last (beaten : Beaten sd.rows units res x a) (sits : Sits sd.rows units res x b) :
    ReflTransGen (Moves sd.rows units res x) b a := by
  rcases h.routing.linear sits beaten.1 with before | after
  · exact before
  · rcases after.cases_head with rfl | ⟨c, move, -⟩
    · exact .refl
    · exact absurd move (stays beaten)

theorem beaten_unique (ha : Beaten sd.rows units res x a) (hb : Beaten sd.rows units res x b) :
    a = b := by
  rcases (h.beaten_last ha hb.1).cases_head with rfl | ⟨c, move, -⟩
  · rfl
  · exact absurd move (stays hb)

theorem goes_on (hr : r < sd.k) (hm : m < 2 ^ (sd.k - r))
    (sits : Sits sd.rows units res x (sd.unit r m, i)) :
    Beaten sd.rows units res x (sd.unit r m, i) ∨
      ∃ j, Sits sd.rows units res x (sd.unit (r + 1) (m / 2), j) := by
  obtain ⟨result, hres, decides⟩ := h.decided _ sits.1
  rcases Routing.outcome sits hres decides with won | beaten
  · have named : x ≠ "" := by
      obtain ⟨p, hp, rfl⟩ := List.mem_map.mp (h.listed sits)
      exact (h.named p hp).2
    have half : m / 2 < 2 ^ (sd.k - (r + 1)) := by
      rw [show sd.k - r = sd.k - (r + 1) + 1 by omega, Nat.pow_succ] at hm
      omega
    have next : sd.unit (r + 1) (m / 2) ∈ sd.rows := mem_rows.mpr ⟨_, _, hr, half, rfl⟩
    have move := h.routing.forward (b := (sd.unit (r + 1) (m / 2), placeOf m)) sits named hres won
      (fun e => by cases e) next slot_next
    exact Or.inr ⟨_, move.2.1⟩
  · exact Or.inl beaten

theorem reaches (hr : r ≤ sd.k) (hm : m < 2 ^ (sd.k - r))
    (sits : Sits sd.rows units res x (sd.unit r m, i)) :
    (∃ a, Beaten sd.rows units res x a) ∨
      ∃ j, Sits sd.rows units res x (sd.unit sd.k 0, j) := by
  obtain ⟨n, hn⟩ : ∃ n, n = sd.k - r := ⟨_, rfl⟩
  induction n generalizing r m i with
  | zero =>
    obtain rfl : r = sd.k := by omega
    obtain rfl : m = 0 := by simpa using hm
    exact Or.inr ⟨i, sits⟩
  | succ n ih =>
    rcases h.goes_on (by omega) hm sits with beaten | ⟨j, next⟩
    · exact Or.inl ⟨_, beaten⟩
    · refine ih (r := r + 1) (m := m / 2) (by omega) ?_ next (by omega)
      rw [show sd.k - r = sd.k - (r + 1) + 1 by omega, Nat.pow_succ] at hm
      omega

theorem occupied (some : sd.participants ≠ []) (hr : r ≤ sd.k) :
    ∃ m x i, m < 2 ^ (sd.k - r) ∧ Sits sd.rows units res x (sd.unit r m, i) := by
  induction r with
  | zero =>
    obtain ⟨p, hp⟩ := List.exists_mem_of_ne_nil _ some
    obtain ⟨m, i, hm, sits⟩ := h.enters (List.mem_map_of_mem hp)
    exact ⟨m, p.id, i, hm, sits⟩
  | succ r ih =>
    obtain ⟨m, x, i, hm, sits⟩ := ih (by omega)
    obtain ⟨result, hres, decides⟩ := h.decided _ sits.1
    obtain ⟨y, j, sits', won⟩ := Routing.winner sits hres decides
    rcases h.goes_on hr hm sits' with ⟨-, r', hres', lost, -⟩ | ⟨j', next⟩
    · cases hres.symm.trans hres'
      cases fedPlace_inj won lost
    · refine ⟨m / 2, y, j', ?_, next⟩
      rw [show sd.k - r = sd.k - (r + 1) + 1 by omega, Nat.pow_succ] at hm
      omega

theorem champion (some : sd.participants ≠ []) :
    ∃ x ∈ sd.participants.map Participant.id, (∀ a, ¬ Beaten sd.rows units res x a) ∧
      ∀ y ∈ sd.participants.map Participant.id, y ≠ x → ∃ a, Beaten sd.rows units res y a := by
  obtain ⟨m, z, l, hm, first⟩ := h.occupied some le_rfl
  obtain rfl : m = 0 := by simpa using hm
  obtain ⟨result, hres, decides⟩ := h.decided _ first.1
  obtain ⟨x, i, sits, won⟩ := Routing.winner first hres decides
  refine ⟨x, h.listed sits, ?_, ?_⟩
  · intro a beaten
    rcases (h.beaten_last beaten sits).cases_head with rfl | ⟨c, move, -⟩
    · obtain ⟨-, r', hres', lost, -⟩ := beaten
      cases hres.symm.trans hres'
      cases fedPlace_inj won lost
    · obtain ⟨-, next, _, _, -, -, slot⟩ := move
      exact slot_ne_final next.1 slot
  · intro y hy ne
    obtain ⟨m, j, hm, enters⟩ := h.enters hy
    rcases h.reaches (Nat.zero_le _) hm enters with beaten | ⟨j, final⟩
    · exact beaten
    · rcases Routing.outcome final hres decides with won' | beaten
      · -- both won the final, so they sat on the same side of it
        obtain rfl : i = j := Option.some.inj (won.symm.trans won')
        have same := (h.routing.alone final).1.symm.trans (h.routing.alone sits).1
        exact absurd (List.singleton_inj.mp same) ne
      · exact ⟨_, beaten⟩

end PlayedOut

end SingleDraw

open SingleDraw

/-! ## Whole runs -/

variable {ds : List Draw} {d : Draw} {s : TournamentState} {participants : List Participant}
  {eventId : EventId} {options : DrawOptions} {x : ParticipantId}

theorem generateDraw_single (h : generateDraw "se" participants eventId options = .ok d) :
    ∃ sd : SingleDraw, sd.participants = participants ∧ d.playUnits.rows = sd.rows ∧
      participants.length ≤ 2 ^ (sd.k + 1) ∧ 2 ≤ participants.length := by
  have generated : generateSingleElimination participants eventId eventId options.durationSlots
    options.seededCount options.bracketSize = .ok d := h
  obtain ⟨seeded, k, fits, two, rfl⟩ := generateSingleElimination_ok generated
  refine ⟨⟨participants, eventId, eventId, options.durationSlots, k⟩, rfl, ?_, fits, two⟩
  exact (singleRounds_plain ..).rows_playUnits _ _

/-- One defeat, at the end of the path: all the units of `x` come before it. -/
def OnceBeaten (d : Draw) (s : TournamentState) (x : ParticipantId) : Prop :=
  ∃ last, d.lossesOf s x = [last] ∧ ∀ id ∈ d.ids, x ∈ s.seats id → id = last ∨ d.Precedes id last

section Run

variable {sd : SingleDraw} (rows : d.playUnits.rows = sd.rows)
  (h : PlayedOut sd (origin ds) s.playUnits s.result)
include rows h

theorem onceBeaten {a : Seat} (beaten : Beaten sd.rows s.playUnits s.result x a) :
    OnceBeaten d s x := by
  have routing : Routing sd.participants (origin ds) d.playUnits.rows s.playUnits s.result :=
    rows ▸ h.routing
  have members : ∀ id, id ∈ d.lossesOf s x ↔ id ∈ [a.1.id] := by
    intro id
    rw [routing.mem_lossesOf, List.mem_singleton, rows]
    constructor
    · rintro ⟨u, -, rfl, i, lost⟩
      rw [h.beaten_unique beaten lost]
    · rintro rfl
      exact ⟨a.1, beaten.1.1, rfl, a.2, beaten⟩
  have perm : (d.lossesOf s x).Perm [a.1.id] :=
    (List.perm_ext_iff_of_nodup (d.playUnits.unique.filter _) (by simp)).mpr members
  refine ⟨a.1.id, List.perm_singleton.mp perm, fun id hid seated => ?_⟩
  obtain ⟨u, hu, rfl⟩ := List.mem_map.mp hid
  obtain ⟨i, sits⟩ := (routing.mem_seats hu).mp seated
  rcases reflTransGen_iff_eq_or_transGen.mp (h.beaten_last beaten (rows ▸ sits)) with e | path
  · exact Or.inl (congrArg (fun a : Seat => a.1.id) e).symm
  · exact Or.inr (routing.precedes (rows.symm ▸ path))

theorem length_played_single (hx : x ∈ sd.participants.map Participant.id)
    (none : d.lossesOf s x = [])
    (others : ∀ y ∈ sd.participants.map Participant.id, y ≠ x → OnceBeaten d s y) :
    (d.ids.filter fun id => s.PlayedAt id).length = sd.participants.length - 1 := by
  have nodup := h.routing.distinct
  have routing : Routing sd.participants (origin ds) d.playUnits.rows s.playUnits s.result :=
    rows ▸ h.routing
  have each : ∀ y, d.ids.countP (fun id => s.sent .loser id = some y) =
      ((sd.participants.map Participant.id).erase x).count y := by
    intro y
    have member := nodup.mem_erase_iff (a := y) (b := x)
    rw [List.countP_eq_length_filter, (nodup.erase x).count]
    show (d.lossesOf s y).length = _
    by_cases isChampion : y = x
    · rw [if_neg (fun hy => (member.mp hy).1 isChampion), isChampion, none]
      rfl
    by_cases listed : y ∈ sd.participants.map Participant.id
    · obtain ⟨last, one, -⟩ := others y listed isChampion
      rw [one, if_pos (member.mpr ⟨isChampion, listed⟩)]
      rfl
    · rw [if_neg (fun hy => listed (member.mp hy).2), List.length_eq_zero_iff,
        List.eq_nil_iff_forall_not_mem]
      intro id hid
      obtain ⟨u, -, -, i, lost⟩ := routing.mem_lossesOf.mp hid
      exact listed (h.listed (rows ▸ lost.1))
  have same : d.ids.filter (fun id => s.PlayedAt id) =
      d.ids.filter fun id => (s.sent .loser id).isSome := by
    refine List.filter_congr fun id hid => ?_
    obtain ⟨u, hu, rfl⟩ := List.mem_map.mp hid
    rw [decide_eq_decide.mpr (routing.playedAt_iff hu ?_), Bool.decide_coe]
    intro r hr
    obtain ⟨r', hr', decides⟩ := h.decided u (rows ▸ hu)
    cases hr.symm.trans hr'
    exact decides
  rw [same, ← List.countP_eq_length_filter, countP_isSome_eq each, List.length_erase_of_mem hx,
    List.length_map]

end Run

/-- **Everybody but the champion loses once.** In a single elimination of any size that is played to
its end, no match decided by walkover between two present sides, retirement or forfeit: one entrant
is never beaten, every other entrant loses one match and appears in none after it, and for `n`
entrants `n - 1` matches are played. -/
theorem singleElimination_defeats (h : generateDraw "se" participants eventId options = .ok d)
    (distinct : (participants.map Participant.id).Nodup)
    (named : ∀ p ∈ participants, p.id ≠ BYE ∧ p.id ≠ "") (hd : d ∈ ds)
    (all : ∀ d ∈ ds, IsGenerated d) (reached : PlayedReached ds d s) (completed : d.Completed s) :
    ∃ champion ∈ participants.map Participant.id, d.lossesOf s champion = [] ∧
      (∀ p ∈ participants, p.id ≠ champion → OnceBeaten d s p.id) ∧
      (d.ids.filter fun id => s.PlayedAt id).length = participants.length - 1 := by
  obtain ⟨sd, rfl, rows, fits, two⟩ := generateDraw_single h
  have generated := generateDraw_ok h
  have session := reached.session (fun d hd => (all d hd).drawn)
  have routing := session.routing hd generated.drawn.1 (generated.routed (by decide)) distinct
  have out : PlayedOut sd (origin ds) s.playUnits s.result := by
    refine ⟨named, fits, rows ▸ routing, fun u hu => ?_⟩
    have always : u.metadata.conditional = false := by
      obtain ⟨r, m, -, -, rfl⟩ := mem_rows.mp hu
      rw [SingleDraw.unit, Cascade.unitAt_metadata]
      rfl
    obtain ⟨r, hr⟩ := Option.isSome_iff_exists.mp (completed u (rows ▸ hu) always)
    exact ⟨r, hr, session.decides hd (rows ▸ hu) always hr⟩
  obtain ⟨champion, listed, unbeaten, others⟩ := out.champion (List.ne_nil_of_length_pos (by omega))
  have none : d.lossesOf s champion = [] := by
    rw [List.eq_nil_iff_forall_not_mem]
    intro id hid
    obtain ⟨u, -, -, i, lost⟩ := routing.mem_lossesOf.mp hid
    exact unbeaten _ (rows ▸ lost)
  have once : ∀ y ∈ sd.participants.map Participant.id, y ≠ champion → OnceBeaten d s y := by
    intro y hy ne
    obtain ⟨a, beaten⟩ := others y hy ne
    exact onceBeaten rows out beaten
  exact ⟨champion, listed, none, fun p hp ne => once _ (List.mem_map_of_mem hp) ne,
    length_played_single rows out listed none once⟩

theorem singleElimination_defeats_quartet : ∃ s champion, PlayedReached [quartetDraw] quartetDraw s ∧
    quartetDraw.Completed s ∧ quartetDraw.lossesOf s champion = [] ∧
      (quartetDraw.ids.filter fun id => s.PlayedAt id).length = 3 := by
  obtain ⟨s₀, h₀⟩ := exists_ok_of_toOption
    (show (registerDraws [quartetDraw]).toOption.isSome by decide)
  have member := List.mem_singleton_self quartetDraw
  have start : PlayedReached [quartetDraw] quartetDraw s₀ := .init h₀
  obtain ⟨s, reached, completed⟩ := start.completes
    (fun d hd => (quartetDraw_generated d hd).drawn) member
    (fun _ => { winnerSide := .A }) fun _ => by decide
  obtain ⟨champion, -, none, -, played⟩ := singleElimination_defeats quartetDraw_eq (by decide)
    (by decide) member quartetDraw_generated reached completed
  exact ⟨s, champion, reached, completed, none, played⟩

end Brackets
