import ShuttleWorks.Brackets.Formats.Pairing
import ShuttleWorks.Brackets.Formats.RoundRobin
import ShuttleWorks.Lib.Positions

/-! In a round robin everybody meets everybody once a cycle: the place of a number in the circle
tells the round, and the pairings of a round are the meetings of the circle method. -/

namespace Brackets
open Lib

/-! ## The circle -/

variable {l : List Nat} {j i x y : Nat}

theorem rotate_perm (two : 2 ≤ l.length) : (rotate l).Perm l := by
  cases l with
  | nil => exact List.Perm.refl _
  | cons first rest =>
    have some : rest ≠ [] := fun none => by simp [none] at two
    have last : (first :: rest).getLastD first = rest.getLast some := by
      rw [List.getLastD_cons, List.getLastD_eq_getLast?, List.getLast?_eq_getLast_of_ne_nil some]
      rfl
    rw [rotate, last]
    refine List.Perm.cons first ?_
    refine (List.perm_append_singleton _ _).symm.trans (List.Perm.of_eq ?_)
    exact List.dropLast_append_getLast some

theorem circle_perm {n : Nat} (two : 2 ≤ n) (i : Nat) : (circle n i).Perm (List.range n) := by
  induction i with
  | zero => exact List.Perm.refl _
  | succ i ih =>
    exact (rotate_perm (by rw [ih.length_eq, List.length_range]; exact two)).trans ih

theorem circle_length {n : Nat} (two : 2 ≤ n) (i : Nat) : (circle n i).length = n := by
  rw [(circle_perm two i).length_eq, List.length_range]

theorem getElem?_rotate (two : 2 ≤ l.length) (hj : j < l.length) :
    (rotate l)[j]? = if j = 0 then l[0]? else if j = 1 then l[l.length - 1]? else l[j - 1]? := by
  cases l with
  | nil => simp at hj
  | cons first rest =>
    match j with
    | 0 => rfl
    | 1 =>
      show some ((first :: rest).getLastD first) = (first :: rest)[(first :: rest).length - 1]?
      rw [← List.getLast?_eq_getElem?, List.getLastD_eq_getLast?,
        List.getLast?_eq_getLast_of_ne_nil (List.cons_ne_nil _ _)]
      rfl
    | j + 2 =>
      show rest.dropLast[j]? = (first :: rest)[j + 1]?
      rw [List.getElem?_cons_succ, List.getElem?_dropLast, if_pos]
      simp only [List.length_cons] at hj
      omega

/-- **The circle turns by one place a round**, but for the first. -/
theorem circle_turns {n : Nat} (two : 2 ≤ n) (hx : (circle n i)[j]? = some x) :
    (j = 0 ∧ x = 0) ∨ (0 < j ∧ 0 < x ∧ x + i ≡ j [MOD n - 1]) := by
  induction i generalizing j with
  | zero =>
    obtain ⟨-, rfl⟩ := getElem?_range_eq_some.mp hx
    rcases Nat.eq_zero_or_pos j with zero | pos
    · exact .inl ⟨zero, zero⟩
    · exact .inr ⟨pos, pos, Nat.ModEq.refl _⟩
  | succ i ih =>
    have hj : j < (circle n i).length := by
      obtain ⟨lt, -⟩ := List.getElem?_eq_some_iff.mp hx
      rwa [circle_length two] at lt ⊢
    rw [circle, getElem?_rotate (by rwa [circle_length two]) hj] at hx
    split_ifs at hx with zero one
    · rcases ih hx with ⟨-, rfl⟩ | ⟨lt, -⟩
      · exact .inl ⟨zero, rfl⟩
      · exact absurd lt (by omega)
    · rw [circle_length two] at hx
      rcases ih hx with ⟨none, -⟩ | ⟨-, pos, turned⟩
      · omega
      · refine .inr ⟨by omega, pos, ?_⟩
        -- from the last place to the second, the length of the circle is gone by
        have full : x + i ≡ 0 [MOD n - 1] := turned.trans (Nat.modEq_zero_iff_dvd.mpr dvd_rfl)
        rw [one]
        exact full.add_right 1
    · rcases ih hx with ⟨none, -⟩ | ⟨-, pos, turned⟩
      · omega
      · refine .inr ⟨by omega, pos, ?_⟩
        have := turned.add_right 1
        rwa [Nat.sub_add_cancel (by omega)] at this

/-! ## The pairings of a round -/

section Pairings

variable {n : Nat} (two : 2 ≤ n) (even : n % 2 = 0)

include two even

theorem circlePairs_perm (i : Nat) : (pairMembers (circlePairs n i)).Perm (List.range n) := by
  have length := circle_length two i
  refine (pairMembers_zip (by simp [length]; omega)).trans ?_
  refine ((List.reverse_perm _).append_left _).trans ?_
  rw [List.take_append_drop]
  exact circle_perm two i

theorem circlePairs_nodup (i : Nat) : (pairMembers (circlePairs n i)).Nodup :=
  (circlePairs_perm two even i).nodup_iff.mpr List.nodup_range

variable {p : Nat × Nat}

theorem circlePairs_meet (hp : p ∈ circlePairs n i) :
    Circle.Meets (n - 1) i p.1 p.2 := by
  have length := circle_length two i
  obtain ⟨k, hk⟩ := List.getElem?_of_mem hp
  obtain ⟨top, bottom⟩ := List.getElem?_zip_eq_some.mp hk
  have lt : k < n / 2 := by
    obtain ⟨lt, -⟩ := List.getElem?_eq_some_iff.mp top
    rw [List.length_take] at lt
    omega
  rw [List.getElem?_take_of_lt lt] at top
  rw [List.getElem?_reverse (by rw [List.length_drop, length]; omega), List.getElem?_drop,
    List.length_drop, length, show n / 2 + (n - n / 2 - 1 - k) = n - 1 - k by omega] at bottom
  rcases circle_turns two top with ⟨rfl, zero⟩ | ⟨pos, some, turned⟩
  · rcases circle_turns two bottom with ⟨none, -⟩ | ⟨-, -, turned⟩
    · omega
    · rw [zero, Circle.meets_apart]
      exact Nat.modEq_zero_iff_dvd.mp (turned.trans (Nat.modEq_zero_iff_dvd.mpr dvd_rfl))
  · rcases circle_turns two bottom with ⟨none, -⟩ | ⟨-, some', turned'⟩
    · omega
    · rw [Circle.meets_circle (by omega) (by omega)]
      have sum := turned.add turned'
      rw [show p.1 + i + (p.2 + i) = p.1 + p.2 + 2 * i by ring,
        show k + (n - 1 - k) = n - 1 by omega] at sum
      exact Nat.modEq_zero_iff_dvd.mp (sum.trans (Nat.modEq_zero_iff_dvd.mpr dvd_rfl))

theorem paired_iff_meets {a b : Nat} (ha : a < n) (hb : b < n) (ne : a ≠ b) :
    (a, b) ∈ circlePairs n i ∨ (b, a) ∈ circlePairs n i ↔ Circle.Meets (n - 1) i a b := by
  constructor
  · rintro (h | h)
    · exact circlePairs_meet two even h
    · exact (circlePairs_meet two even h).symm ne.symm
  · intro met
    obtain ⟨p, hp, both⟩ := mem_pairMembers.mp
      ((circlePairs_perm two even i).mem_iff.mpr (List.mem_range.mpr ha))
    have members : ∀ x, x ∈ pairMembers (circlePairs n i) → x < n := fun x hx =>
      List.mem_range.mp ((circlePairs_perm two even i).mem_iff.mp hx)
    have distinct : p.1 ≠ p.2 :=
      (pairMembers_nodup.mp (circlePairs_nodup two even i)).1 p hp
    have paired := circlePairs_meet two even hp
    rcases both with rfl | rfl
    · have := met.opponent ne distinct (by omega) (by omega)
        (by have := members p.2 (mem_pairMembers.mpr ⟨p, hp, .inr rfl⟩); omega) paired
      exact .inl (this ▸ hp)
    · have := met.opponent ne distinct.symm (by omega) (by omega)
        (by have := members p.1 (mem_pairMembers.mpr ⟨p, hp, .inl rfl⟩); omega)
        (paired.symm distinct)
      exact .inr (this ▸ hp)

theorem circlePairs_unique {k l : Nat} {q : Nat × Nat} (hp : (circlePairs n i)[k]? = some p)
    (hq : (circlePairs n i)[l]? = some q) (xp : x = p.1 ∨ x = p.2) (xq : x = q.1 ∨ x = q.2) :
    k = l := by
  have apart := (pairMembers_nodup.mp (circlePairs_nodup two even i)).2
  rw [List.pairwise_iff_getElem] at apart
  obtain ⟨hk, rfl⟩ := List.getElem?_eq_some_iff.mp hp
  obtain ⟨hl, rfl⟩ := List.getElem?_eq_some_iff.mp hq
  rcases Nat.lt_trichotomy k l with lt | eq | gt
  · obtain ⟨h₁, h₂, h₃, h₄⟩ := apart k l hk hl lt
    rcases xp with rfl | rfl <;> rcases xq with e | e
    · exact absurd e h₁
    · exact absurd e h₂
    · exact absurd e h₃
    · exact absurd e h₄
  · exact eq
  · obtain ⟨h₁, h₂, h₃, h₄⟩ := apart l k hl hk gt
    rcases xp with rfl | rfl <;> rcases xq with e | e
    · exact absurd e.symm h₁
    · exact absurd e.symm h₃
    · exact absurd e.symm h₂
    · exact absurd e.symm h₄

end Pairings

/-! ## The units -/

def PlayUnit.Between (u : PlayUnit) (a b : ParticipantId) : Prop :=
  u.sideA = [a] ∧ u.sideB = [b] ∨ u.sideA = [b] ∧ u.sideB = [a]

instance (u : PlayUnit) (a b : ParticipantId) : Decidable (u.Between a b) :=
  inferInstanceAs (Decidable (_ ∨ _))

def entrant (workList : List Participant) (x : Nat) : ParticipantId :=
  (workList.getD x byeParticipant).id

section Units

variable {workList : List Participant} {eventId : EventId} {idPrefix : String}
  {durationSlots rounds : Nat} {u : PlayUnit} {participants : List Participant}

theorem mem_circleRounds :
    u ∈ (circleRounds workList eventId idPrefix durationSlots rounds).flatten ↔
      ∃ r < rounds * (workList.length - 1), ∃ k p, (circlePairs workList.length r)[k]? = some p ∧
        entrant workList p.1 ≠ BYE ∧ entrant workList p.2 ≠ BYE ∧
        u = poolUnit eventId idPrefix durationSlots r k (some (r / (workList.length - 1)))
          (entrant workList p.1) (entrant workList p.2) := by
  simp only [circleRounds, List.mem_flatten, List.mem_map, List.mem_range]
  constructor
  · rintro ⟨row, ⟨r, hr, rfl⟩, hu⟩
    obtain ⟨⟨p, k⟩, hp, made⟩ := List.mem_filterMap.mp hu
    unfold circleMatch at made
    dsimp only at made
    split at made
    · cases made
    · next here =>
      rw [not_or] at here
      cases made
      exact ⟨r, hr, k, p, List.mem_zipIdx_iff_getElem?.mp hp, here.1, here.2, rfl⟩
  · rintro ⟨r, hr, k, p, hp, hx, hy, rfl⟩
    refine ⟨_, ⟨r, hr, rfl⟩, List.mem_filterMap.mpr
      ⟨(p, k), List.mem_zipIdx_iff_getElem?.mpr hp, ?_⟩⟩
    unfold circleMatch
    exact if_neg (not_or.mpr ⟨hx, hy⟩)

theorem padded_even (participants : List Participant) : (padded participants).length % 2 = 0 := by
  unfold padded
  split
  · rw [List.length_append]
    simp only [List.length_cons, List.length_nil]
    omega
  · omega

theorem length_le_padded (participants : List Participant) :
    participants.length ≤ (padded participants).length := by
  unfold padded
  split <;> simp

theorem entrant_of_getElem? {p : Participant} (hp : participants[x]? = some p) :
    x < (padded participants).length ∧ entrant (padded participants) x = p.id := by
  obtain ⟨lt, -⟩ := List.getElem?_eq_some_iff.mp hp
  refine ⟨Nat.lt_of_lt_of_le lt (length_le_padded participants), ?_⟩
  have : (padded participants)[x]? = some p := by
    unfold padded
    split
    · rwa [List.getElem?_append_left lt]
    · exact hp
  rw [entrant, List.getD_eq_getElem?_getD, this]
  rfl

theorem getElem?_of_entrant (here : entrant (padded participants) x ≠ BYE) :
    ∃ p, participants[x]? = some p ∧ entrant (padded participants) x = p.id := by
  rcases Nat.lt_or_ge x participants.length with lt | ge
  · have hp := List.getElem?_eq_getElem lt
    exact ⟨_, hp, (entrant_of_getElem? hp).2⟩
  · refine absurd ?_ here
    rw [entrant, List.getD_eq_getElem?_getD]
    unfold padded
    split
    · rw [List.getElem?_append_right ge]
      cases x - participants.length <;> rfl
    · rw [List.getElem?_eq_none ge]
      rfl

theorem entrant_inj (distinct : (participants.map Participant.id).Nodup)
    (hx : entrant (padded participants) x ≠ BYE)
    (e : entrant (padded participants) x = entrant (padded participants) y) : x = y := by
  obtain ⟨p, hp, ep⟩ := getElem?_of_entrant hx
  obtain ⟨q, hq, eq⟩ := getElem?_of_entrant (e ▸ hx)
  have same : (participants.map Participant.id)[x]? = (participants.map Participant.id)[y]? := by
    rw [List.getElem?_map, List.getElem?_map, hp, hq, Option.map_some, Option.map_some, ← ep, ← eq,
      e]
  refine (List.getElem?_inj ?_ distinct).mp same
  rw [List.length_map]
  exact (List.getElem?_eq_some_iff.mp hp).1

end Units

/-! ## Everybody meets everybody -/

section Schedule

variable {participants : List Participant} {eventId : EventId} {idPrefix : String}
  {durationSlots rounds : Nat}

theorem two_le_padded (two : 2 ≤ participants.length) : 2 ≤ (padded participants).length :=
  Nat.le_trans two (length_le_padded participants)

theorem circleRounds_unique (two : 2 ≤ participants.length)
    (distinct : (participants.map Participant.id).Nodup) {u v : PlayUnit}
    (hu : u ∈ (circleRounds (padded participants) eventId idPrefix durationSlots rounds).flatten)
    (hv : v ∈ (circleRounds (padded participants) eventId idPrefix durationSlots rounds).flatten)
    (round : u.metadata.round = v.metadata.round) {id : ParticipantId}
    (mu : id ∈ u.sideA ++ u.sideB) (mv : id ∈ v.sideA ++ v.sideB) : u = v := by
  obtain ⟨r, hr, k, p, hp, px, py, rfl⟩ := mem_circleRounds.mp hu
  obtain ⟨r', hr', l, q, hq, qx, qy, rfl⟩ := mem_circleRounds.mp hv
  obtain rfl : r = r' := round
  have number : ∀ {p : Nat × Nat}, entrant (padded participants) p.1 ≠ BYE →
      entrant (padded participants) p.2 ≠ BYE →
      id ∈ [entrant (padded participants) p.1] ++ [entrant (padded participants) p.2] →
      id ≠ BYE ∧ ∃ x, (x = p.1 ∨ x = p.2) ∧ entrant (padded participants) x = id := by
    intro p hx hy mem
    rcases List.mem_append.mp mem with mem | mem
    · obtain rfl := List.mem_singleton.mp mem
      exact ⟨hx, p.1, .inl rfl, rfl⟩
    · obtain rfl := List.mem_singleton.mp mem
      exact ⟨hy, p.2, .inr rfl, rfl⟩
  obtain ⟨here, x, xp, ex⟩ := number px py mu
  obtain ⟨-, y, yq, ey⟩ := number qx qy mv
  obtain rfl := entrant_inj distinct (ex.symm ▸ here) (ex.trans ey.symm)
  obtain rfl := circlePairs_unique (two_le_padded two) (padded_even participants) hp hq xp yq
  obtain rfl := Option.some.inj (hp.symm.trans hq)
  rfl

theorem meets_of_between (two : 2 ≤ participants.length)
    (distinct : (participants.map Participant.id).Nodup) {u : PlayUnit}
    (hx : x < (padded participants).length) (hy : y < (padded participants).length) (ne : x ≠ y)
    (hu : u ∈ (circleRounds (padded participants) eventId idPrefix durationSlots rounds).flatten)
    (between : u.Between (entrant (padded participants) x) (entrant (padded participants) y)) :
    Circle.Meets ((padded participants).length - 1) u.metadata.round x y := by
  obtain ⟨r, -, k, p, hp, px, py, rfl⟩ := mem_circleRounds.mp hu
  refine (paired_iff_meets (two_le_padded two) (padded_even participants) hx hy ne).mp ?_
  have mem := List.mem_of_getElem? hp
  rcases between with ⟨ea, eb⟩ | ⟨ea, eb⟩
  · obtain rfl := entrant_inj distinct px (List.singleton_inj.mp ea)
    obtain rfl := entrant_inj distinct py (List.singleton_inj.mp eb)
    exact .inl mem
  · obtain rfl := entrant_inj distinct px (List.singleton_inj.mp ea)
    obtain rfl := entrant_inj distinct py (List.singleton_inj.mp eb)
    exact .inr mem

theorem existsUnique_between (two : 2 ≤ participants.length)
    (distinct : (participants.map Participant.id).Nodup)
    (real : BYE ∉ participants.map Participant.id) {cycle : Nat} (hc : cycle < rounds)
    {a b : ParticipantId} (ha : a ∈ participants.map Participant.id)
    (hb : b ∈ participants.map Participant.id) (ne : a ≠ b) :
    ∃! u, u ∈ (circleRounds (padded participants) eventId idPrefix durationSlots rounds).flatten ∧
      u.metadata.cycle = some cycle ∧ u.Between a b := by
  have even := padded_even participants
  have two' := two_le_padded two
  have numbered : ∀ {c}, c ∈ participants.map Participant.id → c ≠ BYE ∧
      ∃ x < (padded participants).length, entrant (padded participants) x = c := by
    intro c mem
    refine ⟨fun bye => real (bye ▸ mem), ?_⟩
    obtain ⟨p, hp, rfl⟩ := List.mem_map.mp mem
    obtain ⟨x, hx⟩ := List.getElem?_of_mem hp
    exact ⟨x, (entrant_of_getElem? hx).1, (entrant_of_getElem? hx).2⟩
  obtain ⟨here, x, hx, rfl⟩ := numbered ha
  obtain ⟨here', y, hy, rfl⟩ := numbered hb
  have apart : x ≠ y := fun e => ne (e ▸ rfl)
  have odd : Odd ((padded participants).length - 1) := by
    rw [Nat.odd_iff]
    omega
  obtain ⟨r, ⟨turn, met⟩, only⟩ := Circle.existsUnique_meets odd cycle x y
  have inside : r < rounds * ((padded participants).length - 1) := by
    rw [← Nat.div_lt_iff_lt_mul (by omega), turn]
    exact hc
  have held : ∃ u, u ∈ (circleRounds (padded participants) eventId idPrefix durationSlots
      rounds).flatten ∧ u.metadata.round = r ∧ u.metadata.cycle = some cycle ∧
        u.Between (entrant (padded participants) x) (entrant (padded participants) y) := by
    rcases (paired_iff_meets two' even hx hy apart).mpr met with mem | mem
    · obtain ⟨k, hk⟩ := List.getElem?_of_mem mem
      exact ⟨_, mem_circleRounds.mpr ⟨r, inside, k, _, hk, here, here', rfl⟩, rfl,
        congrArg some turn, .inl ⟨rfl, rfl⟩⟩
    · obtain ⟨k, hk⟩ := List.getElem?_of_mem mem
      exact ⟨_, mem_circleRounds.mpr ⟨r, inside, k, _, hk, here', here, rfl⟩, rfl,
        congrArg some turn, .inr ⟨rfl, rfl⟩⟩
  obtain ⟨u, hu, round, hcycle, between⟩ := held
  have playing : ∀ {v : PlayUnit}, v.Between (entrant (padded participants) x)
      (entrant (padded participants) y) →
        entrant (padded participants) x ∈ v.sideA ++ v.sideB := by
    rintro v (⟨ea, eb⟩ | ⟨ea, eb⟩) <;> simp [ea, eb]
  refine ⟨u, ⟨hu, hcycle, between⟩, fun v ⟨hv, vcycle, vbetween⟩ => ?_⟩
  have turn' : v.metadata.round / ((padded participants).length - 1) = cycle := by
    obtain ⟨r', -, k, p, -, -, -, rfl⟩ := mem_circleRounds.mp hv
    exact Option.some.inj vcycle
  have same := only _ ⟨turn', meets_of_between two distinct hx hy apart hv vbetween⟩
  exact circleRounds_unique two distinct hv hu (same.trans round.symm) (playing vbetween)
    (playing between)

/-- **A round robin is complete.** Of any two or more participants every two meet once in every
cycle; every unit is between two of them in one of the cycles, nobody is twice in one round, and all
units are told apart by their ids. -/
theorem generateRoundRobin_complete (two : 2 ≤ participants.length) (cycles : 1 ≤ rounds)
    (distinct : (participants.map Participant.id).Nodup)
    (real : BYE ∉ participants.map Participant.id) :
    ∃ d, generateRoundRobin participants rounds eventId idPrefix durationSlots = .ok d ∧
      (d.rounds.flatten.Nodup ∧ d.rounds.flatten.Perm (d.playUnits.rows.map PlayUnit.id)) ∧
      (∀ u ∈ d.playUnits.rows, ∃ a ∈ participants.map Participant.id,
        ∃ b ∈ participants.map Participant.id, a ≠ b ∧ a ≠ BYE ∧ b ≠ BYE ∧
          u.sideA = [a] ∧ u.sideB = [b] ∧ ∃ cycle < rounds, u.metadata.cycle = some cycle) ∧
      (∀ n, ∀ u ∈ d.playUnits.rows, ∀ v ∈ d.playUnits.rows, d.InRound n u.id → d.InRound n v.id →
        ∀ id, id ∈ u.sideA ++ u.sideB → id ∈ v.sideA ++ v.sideB → u = v) ∧
      ∀ cycle < rounds, ∀ a ∈ participants.map Participant.id,
        ∀ b ∈ participants.map Participant.id, a ≠ b →
          ∃! u, u ∈ d.playUnits.rows ∧ u.metadata.cycle = some cycle ∧ u.Between a b := by
  obtain ⟨d, hd⟩ : ∃ d, generateRoundRobin participants rounds eventId idPrefix durationSlots =
      .ok d := by
    unfold generateRoundRobin
    rw [if_neg (by omega), if_neg (by omega)]
    exact ⟨_, rfl⟩
  obtain ⟨event, he, rfl⟩ := generateRoundRobin_ok hd
  have plain : PlainRounds idPrefix eventId (circleRounds (padded participants) eventId idPrefix
      durationSlots rounds) := circleRounds_plain rounds
  have drawn := plain.drawn he participants
  have units := plain.rows_playUnits event participants
  refine ⟨_, hd, ⟨?_, drawn.rounds⟩, ?_, ?_, ?_⟩
  · exact drawn.rounds.nodup_iff.mpr drawn.units.unique
  · intro u hu
    rw [units] at hu
    obtain ⟨r, hr, k, p, hp, px, py, rfl⟩ := mem_circleRounds.mp hu
    obtain ⟨a, ha, ea⟩ := getElem?_of_entrant px
    obtain ⟨b, hb, eb⟩ := getElem?_of_entrant py
    refine ⟨a.id, List.mem_map_of_mem (List.mem_of_getElem? ha), b.id,
      List.mem_map_of_mem (List.mem_of_getElem? hb), ?_, ea ▸ px, eb ▸ py,
      congrArg (fun c => [c]) ea, congrArg (fun c => [c]) eb, _, ?_, rfl⟩
    · intro same
      have nodup := circlePairs_nodup (two_le_padded two) (padded_even participants) r
      refine (pairMembers_nodup.mp nodup).1 p (List.mem_of_getElem? hp) ?_
      exact entrant_inj distinct px (ea.trans (same.trans eb.symm))
    · have := two_le_padded two
      exact (Nat.div_lt_iff_lt_mul (by omega)).mpr hr
  · intro n u hu v hv inu inv id mu mv
    rw [units] at hu hv
    obtain ⟨m, hm⟩ := (plain.inRound hu).mp inu
    obtain ⟨m', hm'⟩ := (plain.inRound hv).mp inv
    exact circleRounds_unique two distinct hu hv
      ((plain.round n m u hm).trans (plain.round n m' v hm').symm) mu mv
  · intro cycle hc a ha b hb ne
    rw [units]
    exact existsUnique_between two distinct real hc ha hb ne

end Schedule

def threePlayers : List Participant :=
  ["ann", "bob", "cid"].map fun id => { id := id, name := id }

/-- Three players with a phantom: every two of them meet once in each of two cycles. -/
theorem threePlayers_complete :
    ∃ d, generateRoundRobin threePlayers 2 "rr" "RR" 1 = .ok d ∧
      ∀ cycle < 2, ∀ a ∈ ["ann", "bob", "cid"], ∀ b ∈ ["ann", "bob", "cid"], a ≠ b →
        ∃! u, u ∈ d.playUnits.rows ∧ u.metadata.cycle = some cycle ∧ u.Between a b := by
  obtain ⟨d, ok, -, -, -, complete⟩ := @generateRoundRobin_complete threePlayers "rr" "RR" 1 2
    (by decide) (by decide) (by decide) (by decide)
  exact ⟨d, ok, complete⟩

end Brackets
