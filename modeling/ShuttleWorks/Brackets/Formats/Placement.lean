import Mathlib.Data.Nat.Bitwise
import ShuttleWorks.Brackets.Formats.Positions

/-! Where the entrants and the byes go. The byes take the positions opposite the first seeds, the
entrants pour into what is left in seed order, so every entrant stands once. While fewer than half
of the positions are byes no seed loses its own position; from there on the byes push the first
two entrants into one half. -/

namespace Brackets
open Lib

/-! ## The positions in seed order -/

theorem zipIdx_map_range (f : Nat → Nat) (n : Nat) :
    ((List.range n).map f).zipIdx = (List.range n).map fun p => (f p, p) := by
  refine List.ext_getElem (by simp) fun p _ _ => ?_
  simp

/-- **`_seed_to_position_map` computes `posAt`.** -/
theorem seedToPositionMap_eq (k : Nat) :
    seedToPositionMap (2 ^ (k + 1)) = (List.range (2 ^ (k + 1))).map (posAt k) := by
  have upTo : ∀ s, s ≤ 2 ^ (k + 1) →
      ((List.range s).map fun p => (seedAt k p, p)).foldl
          (fun acc p => acc.set (p.1 - 1) p.2) (List.replicate (2 ^ (k + 1)) 0) =
        (List.range (2 ^ (k + 1))).map fun i => if posAt k i < s then posAt k i else 0 := by
    intro s
    induction s with
    | zero =>
      intro _
      exact List.ext_getElem (by simp) (by simp)
    | succ s ih =>
      intro hs
      rw [List.range_succ, List.map_append, List.foldl_append, ih (by omega), List.map_cons,
        List.map_nil, List.foldl_cons, List.foldl_nil, map_range_set]
      refine List.map_congr_left fun i hi => ?_
      have pos := seedAt_pos k s
      by_cases here : i = seedAt k s - 1
      · have seat : posAt k i = s := by rw [here, posAt_seedAt (by omega)]
        rw [if_pos here, seat, if_pos (by omega)]
      · have other : posAt k i ≠ s := fun seat => here (by
          have seed := seedAt_posAt (List.mem_range.mp hi)
          rw [seat] at seed
          omega)
        rw [if_neg here]
        by_cases before : posAt k i < s
        · rw [if_pos before, if_pos (by omega)]
        · rw [if_neg before, if_neg (by omega)]
  rw [seedToPositionMap, bwfPositions_eq, zipIdx_map_range, upTo _ (Nat.le_refl _)]
  exact List.map_congr_left fun i hi => if_pos (posAt_lt (List.mem_range.mp hi))

theorem posOrder_nodup (k : Nat) : ((List.range (2 ^ (k + 1))).map (posAt k)).Nodup :=
  (List.nodup_map_iff_inj_on List.nodup_range).mpr fun _ hi _ hi' h =>
    posAt_inj (List.mem_range.mp hi) (List.mem_range.mp hi') h

variable {k p i n : Nat} {byes : List Nat} {participants : List Participant}

theorem mem_posOrder :
    p ∈ (List.range (2 ^ (k + 1))).map (posAt k) ↔ p < 2 ^ (k + 1) := by
  constructor
  · intro h
    obtain ⟨i, hi, rfl⟩ := List.mem_map.mp h
    exact posAt_lt (List.mem_range.mp hi)
  · intro h
    have pos := seedAt_pos k p
    have le := seedAt_le h
    exact List.mem_map.mpr ⟨seedAt k p - 1, List.mem_range.mpr (by omega), posAt_seedAt h⟩

theorem posAt_zero (k : Nat) : posAt k 0 = 0 := by
  induction k with
  | zero => rfl
  | succ k ih => rw [posAt, if_pos (Nat.two_pow_pos _), ih]

theorem posAt_one (k : Nat) : posAt k 1 = 2 ^ (k + 1) - 1 := by
  induction k with
  | zero => rfl
  | succ k ih =>
    have size := two_pow_succ (k + 1)
    have even := two_pow_succ k
    have pos := Nat.two_pow_pos k
    rw [posAt, if_pos (by omega), ih]
    omega

theorem posAt_two (k : Nat) : posAt (k + 1) 2 = 2 ^ (k + 1) := by
  induction k with
  | zero => rfl
  | succ k ih =>
    have size := two_pow_succ (k + 1)
    have even := two_pow_succ k
    have pos := Nat.two_pow_pos k
    rw [posAt, if_pos (by omega), ih]
    omega

/-! ## First-round opponents -/

theorem r1OpponentPosition_eq (pos : Nat) :
    r1OpponentPosition pos = if pos % 2 = 0 then pos + 1 else pos - 1 := by
  rcases Nat.mod_two_eq_zero_or_one pos with h | h
  · rw [if_pos h]
    exact Nat.xor_one_of_even (Nat.even_iff.mpr h)
  · rw [if_neg (by omega)]
    exact Nat.xor_one_of_odd (Nat.odd_iff.mpr h)

theorem r1OpponentPosition_involutive (pos : Nat) :
    r1OpponentPosition (r1OpponentPosition pos) = pos := by
  simp only [r1OpponentPosition_eq]
  split <;> split <;> omega

theorem r1OpponentPosition_lt {pos : Nat} (h : pos < 2 ^ (k + 1)) :
    r1OpponentPosition pos < 2 ^ (k + 1) := by
  have size := two_pow_succ k
  rw [r1OpponentPosition_eq]
  split <;> omega

theorem r1OpponentPosition_posAt (hi : i < 2 ^ (k + 1)) :
    r1OpponentPosition (posAt (k + 1) i) =
      posAt (k + 1) (2 ^ (k + 1) + r1OpponentPosition (posAt k i)) := by
  have even := two_pow_succ k
  have seat := posAt_lt hi
  have mine := r1OpponentPosition_eq (posAt k i)
  rw [posAt, if_pos hi, posAt, if_neg (by omega), r1OpponentPosition_eq (2 * _ + _)]
  rcases Nat.mod_two_eq_zero_or_one (posAt k i) with h | h
  · rw [if_pos h] at mine
    rw [if_pos (by omega), if_neg (by omega), mine]
    omega
  · rw [if_neg (by omega)] at mine
    rw [if_neg (by omega), if_pos (by omega), mine]
    omega

/-! ## Byes and seats -/

def byesOf (k n : Nat) : List Nat :=
  ((List.range (2 ^ (k + 1) - n)).map (posAt k)).map r1OpponentPosition

def seats (k n : Nat) : List Nat :=
  ((List.range (2 ^ (k + 1))).map (posAt k)).filter (· ∉ byesOf k n)

theorem mem_byesOf :
    p ∈ byesOf k n ↔ ∃ i, i < 2 ^ (k + 1) - n ∧ posAt k i = r1OpponentPosition p := by
  constructor
  · intro h
    obtain ⟨q, hq, rfl⟩ := List.mem_map.mp h
    obtain ⟨i, hi, rfl⟩ := List.mem_map.mp hq
    exact ⟨i, List.mem_range.mp hi, (r1OpponentPosition_involutive _).symm⟩
  · rintro ⟨i, hi, h⟩
    refine List.mem_map.mpr ⟨posAt k i, List.mem_map.mpr ⟨i, List.mem_range.mpr hi, rfl⟩, ?_⟩
    rw [h, r1OpponentPosition_involutive]

theorem byesOf_lt (h : p ∈ byesOf k n) : p < 2 ^ (k + 1) := by
  obtain ⟨i, hi, seat⟩ := mem_byesOf.mp h
  have lt := r1OpponentPosition_lt (posAt_lt (k := k) (i := i) (by omega))
  rwa [seat, r1OpponentPosition_involutive] at lt

theorem byesOf_nodup (k n : Nat) : (byesOf k n).Nodup := by
  apply List.Nodup.map fun p p' h => ?_
  · refine (List.nodup_map_iff_inj_on List.nodup_range).mpr fun i hi i' hi' h => ?_
    simp only [List.mem_range] at hi hi'
    exact posAt_inj (by omega) (by omega) h
  · have back := congrArg r1OpponentPosition h
    rwa [r1OpponentPosition_involutive, r1OpponentPosition_involutive] at back

theorem posOrder_byes_perm (k n : Nat) :
    (((List.range (2 ^ (k + 1))).map (posAt k)).filter (· ∈ byesOf k n)).Perm (byesOf k n) := by
  refine (List.perm_ext_iff_of_nodup ((posOrder_nodup k).filter _) (byesOf_nodup k n)).mpr
    fun p => ?_
  rw [List.mem_filter, decide_eq_true_eq, and_iff_right_iff_imp]
  exact fun h => mem_posOrder.mpr (byesOf_lt h)

theorem byes_seats_perm (k n : Nat) :
    (byesOf k n ++ seats k n).Perm ((List.range (2 ^ (k + 1))).map (posAt k)) := by
  refine ((posOrder_byes_perm k n).symm.append_right _).trans ?_
  have split := List.filter_append_perm (fun p => decide (p ∈ byesOf k n))
    ((List.range (2 ^ (k + 1))).map (posAt k))
  simpa [seats] using split

theorem length_seats (fits : n ≤ 2 ^ (k + 1)) : (seats k n).length = n := by
  have total := (byes_seats_perm k n).length_eq
  simp only [byesOf, List.length_append, List.length_map, List.length_range] at total
  omega

theorem seats_prefix {m : Nat} (hm : m ≤ 2 ^ (k + 1)) (kept : ∀ i, i < m → posAt k i ∉ byesOf k n)
    (hi : i < m) :
    (seats k n)[i]? = some (posAt k i) := by
  obtain ⟨r, hr⟩ : ∃ r, 2 ^ (k + 1) = m + r := ⟨2 ^ (k + 1) - m, by omega⟩
  have first : ((List.range m).map (posAt k)).filter (· ∉ byesOf k n) =
      (List.range m).map (posAt k) := by
    refine List.filter_eq_self.mpr fun p hp => ?_
    obtain ⟨i, hi, rfl⟩ := List.mem_map.mp hp
    exact decide_eq_true (kept i (List.mem_range.mp hi))
  rw [seats, hr, List.range_add, List.map_append, List.filter_append, first,
    List.getElem?_append_left (by simpa using hi), List.getElem?_map, List.getElem?_range hi]
  rfl

/-! ## The bracket -/

theorem foldl_place_frame {order : List Nat} (hp : p ∉ order)
    (w : List (Option Participant) × List Participant) :
    (order.foldl (place byes) w).1[p]? = w.1[p]? := by
  induction order generalizing w with
  | nil => rfl
  | cons q order ih =>
    have ne : q ≠ p := fun h => hp (by simp [h])
    rw [List.foldl_cons, ih (fun h => hp (List.mem_cons_of_mem _ h)), place]
    split
    · exact List.getElem?_set_ne ne
    · split
      · exact List.getElem?_set_ne ne
      · exact List.getElem?_set_ne ne

theorem foldl_place_bye {order : List Nat} (distinct : order.Nodup) (hp : p ∈ order)
    (bye : p ∈ byes) (w : List (Option Participant) × List Participant) (lt : p < w.1.length) :
    (order.foldl (place byes) w).1[p]? = some (some byeParticipant) := by
  induction order generalizing w with
  | nil => simp at hp
  | cons q order ih =>
    obtain ⟨fresh, rest⟩ := List.nodup_cons.mp distinct
    rw [List.foldl_cons]
    rcases List.mem_cons.mp hp with rfl | later
    · rw [foldl_place_frame fresh, place, if_pos bye]
      exact List.getElem?_set_self lt
    · exact ih rest later _ (by rwa [length_place])

/-- The `i`-th position that is no bye gets the `i`-th entrant. -/
theorem foldl_place_seat {order : List Nat} (distinct : order.Nodup)
    (seat : (order.filter (· ∉ byes))[i]? = some p)
    (w : List (Option Participant) × List Participant) (lt : p < w.1.length) :
    (order.foldl (place byes) w).1[p]? = some (some (w.2.getD i byeParticipant)) := by
  induction order generalizing w i with
  | nil => simp at seat
  | cons q order ih =>
    obtain ⟨fresh, rest⟩ := List.nodup_cons.mp distinct
    rw [List.foldl_cons]
    by_cases bye : q ∈ byes
    · rw [List.filter_cons_of_neg (by simpa using bye)] at seat
      have placed : place byes w q = (w.1.set q (some byeParticipant), w.2) := by
        rw [place, if_pos bye]
      rw [ih rest seat _ (by rwa [length_place]), placed]
    · rw [List.filter_cons_of_pos (by simpa using bye)] at seat
      cases i with
      | zero =>
        simp only [List.getElem?_cons_zero, Option.some.injEq] at seat
        subst seat
        rw [foldl_place_frame fresh, place, if_neg bye]
        split
        · next p rest h =>
          rw [h]
          exact List.getElem?_set_self lt
        · next h =>
          rw [h]
          exact List.getElem?_set_self lt
      | succ i =>
        rw [List.getElem?_cons_succ] at seat
        rw [ih rest seat _ (by rwa [length_place]), place, if_neg bye]
        split
        · next p rest h => rw [h, List.getD_cons_succ]
        · next h =>
          rw [h]
          rfl

theorem length_assignToBracket (participants : List Participant) (size : Nat) :
    (assignToBracket participants size).length = size := by
  simp [assignToBracket, length_foldl_place]

theorem assignToBracket_bye (bye : p ∈ byesOf k participants.length) :
    (assignToBracket participants (2 ^ (k + 1)))[p]? = some byeParticipant := by
  have placed := foldl_place_bye (posOrder_nodup k) (mem_posOrder.mpr (byesOf_lt bye)) bye
    (List.replicate (2 ^ (k + 1)) none, participants)
    (by rw [List.length_replicate]; exact byesOf_lt bye)
  rw [assignToBracket, seedToPositionMap_eq, List.getElem?_map, ← List.map_take,
    List.take_range, Nat.min_eq_left (Nat.sub_le _ _)]
  exact congrArg (Option.map fun q => q.getD byeParticipant) placed

theorem assignToBracket_seat (seat : (seats k participants.length)[i]? = some p) :
    (assignToBracket participants (2 ^ (k + 1)))[p]? =
      some (participants.getD i byeParticipant) := by
  have lt : p < 2 ^ (k + 1) :=
    mem_posOrder.mp (List.mem_filter.mp (List.mem_of_getElem? seat)).1
  have placed := foldl_place_seat (posOrder_nodup k) seat
    (List.replicate (2 ^ (k + 1)) none, participants) (by rwa [List.length_replicate])
  rw [assignToBracket, seedToPositionMap_eq, List.getElem?_map, ← List.map_take,
    List.take_range, Nat.min_eq_left (Nat.sub_le _ _)]
  exact congrArg (Option.map fun q => q.getD byeParticipant) placed

/-- **Every entrant is placed once, every other position is a bye.** -/
theorem assignToBracket_perm (fits : participants.length ≤ 2 ^ (k + 1)) :
    (assignToBracket participants (2 ^ (k + 1))).Perm
      (participants ++ List.replicate (2 ^ (k + 1) - participants.length) byeParticipant) := by
  let at' := fun p => (assignToBracket participants (2 ^ (k + 1))).getD p byeParticipant
  have whole : (List.range (2 ^ (k + 1))).map at' = assignToBracket participants (2 ^ (k + 1)) := by
    refine List.ext_getElem (by simp [length_assignToBracket]) fun p _ hp => ?_
    simp [at', List.getD_eq_getElem?_getD, List.getElem?_eq_getElem hp]
  have order : (List.range (2 ^ (k + 1))).Perm
      (byesOf k participants.length ++ seats k participants.length) := by
    refine List.Perm.trans ?_ (byes_seats_perm k participants.length).symm
    refine (List.perm_ext_iff_of_nodup List.nodup_range (posOrder_nodup k)).mpr fun p => ?_
    rw [mem_posOrder, List.mem_range]
  have byes : (byesOf k participants.length).map at' =
      List.replicate (2 ^ (k + 1) - participants.length) byeParticipant := by
    refine List.eq_replicate_iff.mpr ⟨by simp [byesOf], fun q hq => ?_⟩
    obtain ⟨p, hp, rfl⟩ := List.mem_map.mp hq
    simp [at', List.getD_eq_getElem?_getD, assignToBracket_bye hp]
  have entrants : (seats k participants.length).map at' = participants := by
    refine List.ext_getElem (by simp [length_seats fits]) fun i hi hi' => ?_
    rw [List.length_map] at hi
    have seat := assignToBracket_seat (List.getElem?_eq_getElem hi)
    rw [List.getElem_map]
    simp [at', List.getD_eq_getElem?_getD, seat, List.getElem?_eq_getElem hi']
  rw [← whole]
  refine (order.map at').trans ?_
  rw [List.map_append, byes, entrants]
  exact List.perm_append_comm

theorem mem_entrantSlots (fits : participants.length ≤ 2 ^ (k + 1)) {x : ParticipantId}
    (real : x ≠ BYE) :
    BracketSlot.participant x ∈ entrantSlots participants (2 ^ (k + 1)) ↔
      x ∈ participants.map Participant.id := by
  rw [entrantSlots, (((assignToBracket_perm fits).map _).mem_iff), List.map_append, List.mem_append,
    List.map_replicate, List.mem_replicate, List.mem_map, List.mem_map]
  constructor
  · rintro (⟨p, hp, e⟩ | ⟨-, e⟩)
    · exact ⟨p, hp, BracketSlot.participant.inj e⟩
    · exact absurd (BracketSlot.participant.inj e) real
  · rintro ⟨p, hp, rfl⟩
    exact Or.inl ⟨p, hp, rfl⟩

theorem entrantSlots_full (full : participants.length = 2 ^ (k + 1)) {slot : BracketSlot}
    (h : slot ∈ entrantSlots participants (2 ^ (k + 1))) :
    ∃ p ∈ participants, slot = .participant p.id := by
  obtain ⟨p, hp, rfl⟩ := List.mem_map.mp h
  have placed := (assignToBracket_perm full.le).mem_iff.mp hp
  rw [full, Nat.sub_self, List.replicate_zero, List.append_nil] at placed
  exact ⟨p, placed, rfl⟩

theorem idxOf_assignToBracket (fits : participants.length ≤ 2 ^ (k + 1))
    (distinct : participants.Nodup) (real : byeParticipant ∉ participants) {p : Participant}
    (hi : participants[i]? = some p) :
    (seats k participants.length)[i]? =
      some ((assignToBracket participants (2 ^ (k + 1))).idxOf p) := by
  obtain ⟨lt, rfl⟩ := List.getElem?_eq_some_iff.mp hi
  have member : participants[i] ∈ assignToBracket participants (2 ^ (k + 1)) :=
    (assignToBracket_perm fits).mem_iff.mpr (List.mem_append_left _ (List.getElem_mem lt))
  have found := List.getElem?_eq_getElem (List.idxOf_lt_length_of_mem member)
  rw [List.getElem_idxOf] at found
  have place := List.idxOf_lt_length_of_mem member
  rw [length_assignToBracket] at place
  have order := (byes_seats_perm k participants.length).mem_iff.mpr (mem_posOrder.mpr place)
  rcases List.mem_append.mp order with bye | seat
  · rw [assignToBracket_bye bye] at found
    exact absurd (Option.some.inj found ▸ List.getElem_mem lt) real
  · obtain ⟨i', hi'⟩ := List.mem_iff_getElem?.mp seat
    have lt' : i' < participants.length := by
      have := (List.getElem?_eq_some_iff.mp hi').1
      rwa [length_seats fits] at this
    rw [assignToBracket_seat hi', List.getD_eq_getElem?_getD, List.getElem?_eq_getElem lt',
      Option.getD_some] at found
    rwa [(List.Nodup.getElem_inj_iff distinct).mp (Option.some.inj found)] at hi'

/-! ## Who loses its position -/

theorem posAt_mem_byesOf (hi : i < 2 ^ (k + 1)) :
    posAt (k + 1) i ∈ byesOf (k + 1) n ↔
      2 ^ (k + 1) + r1OpponentPosition (posAt k i) < 2 ^ (k + 1 + 1) - n := by
  have size := two_pow_succ (k + 1)
  have opponent := r1OpponentPosition_lt (posAt_lt hi)
  rw [mem_byesOf, r1OpponentPosition_posAt hi]
  constructor
  · rintro ⟨i', hi', h⟩
    have same := posAt_inj (show i' < 2 ^ (k + 1 + 1) by omega) (by omega) h
    omega
  · intro h
    exact ⟨_, h, rfl⟩

theorem posAt_upper_mem_byesOf (low : 2 ^ (k + 1) ≤ i) (hi : i < 2 ^ (k + 1 + 1))
    (few : n ≤ 2 ^ (k + 1)) : posAt (k + 1) i ∈ byesOf (k + 1) n := by
  have size := two_pow_succ (k + 1)
  obtain ⟨d, rfl⟩ : ∃ d, i = 2 ^ (k + 1) + d := ⟨i - 2 ^ (k + 1), by omega⟩
  have lt : r1OpponentPosition d < 2 ^ (k + 1) := r1OpponentPosition_lt (by omega)
  have pos := seedAt_pos k (r1OpponentPosition d)
  have le := seedAt_le lt
  refine mem_byesOf.mpr ⟨seedAt k (r1OpponentPosition d) - 1, by omega, ?_⟩
  have back := r1OpponentPosition_posAt (k := k) (i := seedAt k (r1OpponentPosition d) - 1)
    (by omega)
  rw [posAt_seedAt lt, r1OpponentPosition_involutive] at back
  rw [← back, r1OpponentPosition_involutive]

/-! ## The first seeds are spread as long as there are few byes -/

/-- For every `2 ^ j` up to the number of entrants, the first `2 ^ j` entrants lie in different
blocks of `size / 2 ^ j` consecutive positions. -/
def Spread (participants : List Participant) (size : Nat) : Prop :=
  ∀ j, 2 ^ j ≤ participants.length →
    ((participants.take (2 ^ j)).map fun p =>
      (assignToBracket participants size).idxOf p / (size / 2 ^ j)).Nodup

/-- With at most one bye more than half of the positions, the first `2 ^ j` seeds stay. -/
theorem posAt_not_mem_byesOf {j : Nat} (least : 2 ≤ n) (fits : n ≤ 2 ^ (k + 1))
    (few : 2 ^ (k + 1) ≤ 2 * n + 2) (hj : 2 ^ j ≤ n) (hi : i < 2 ^ j) :
    posAt k i ∉ byesOf k n := by
  rcases Nat.eq_or_lt_of_le fits with full | fits
  · simp [byesOf, full]
  have below : 2 ^ j < 2 ^ (k + 1) := by omega
  have jk : j < k + 1 := (Nat.pow_lt_pow_iff_right (by omega)).mp below
  cases k with
  | zero =>
    simp only [Nat.zero_add, Nat.pow_one] at fits
    omega
  | succ k =>
    have size := two_pow_succ (k + 1)
    have half : 2 ^ j ≤ 2 ^ (k + 1) := Nat.pow_le_pow_right (by omega) (by omega)
    rw [posAt_mem_byesOf (by omega)]
    intro lost
    -- only the position next to seed 1 can be lost
    have next : r1OpponentPosition (posAt k i) = 0 := by omega
    have one : posAt k i = 1 := by
      have back := r1OpponentPosition_involutive (posAt k i)
      rw [next] at back
      exact back.symm
    have smaller : 2 ^ j < 2 ^ (k + 1) := by omega
    have jk : j < k + 1 := (Nat.pow_lt_pow_iff_right (by omega)).mp smaller
    have quarter : 2 ^ j ≤ 2 ^ k := Nat.pow_le_pow_right (by omega) (by omega)
    cases k with
    | zero =>
      simp only [Nat.zero_add, Nat.pow_one] at smaller
      omega
    | succ k =>
      rw [posAt, if_pos (by omega)] at one
      omega

theorem spread_of_few (least : 2 ≤ participants.length) (fits : participants.length ≤ 2 ^ (k + 1))
    (distinct : participants.Nodup) (real : byeParticipant ∉ participants)
    (few : 2 ^ (k + 1) ≤ 2 * participants.length + 2) : Spread participants (2 ^ (k + 1)) := by
  intro j hj
  have jk : j ≤ k + 1 := (Nat.pow_le_pow_iff_right (by omega)).mp (hj.trans fits)
  have seat : ∀ i (_ : i < 2 ^ j) (lt : i < participants.length),
      (assignToBracket participants (2 ^ (k + 1))).idxOf participants[i] = posAt k i := by
    intro i hi lt
    have kept := seats_prefix (hj.trans fits)
      (fun i hi => posAt_not_mem_byesOf least fits few hj hi) hi
    have found := idxOf_assignToBracket fits distinct real (List.getElem?_eq_getElem lt)
    rw [kept] at found
    exact (Option.some.inj found).symm
  have list : (participants.take (2 ^ j)).map (fun p =>
        (assignToBracket participants (2 ^ (k + 1))).idxOf p / (2 ^ (k + 1) / 2 ^ j)) =
      (List.range (2 ^ j)).map fun i => posAt k i / (2 ^ (k + 1) / 2 ^ j) := by
    refine List.ext_getElem (by simp; omega) fun i _ hi => ?_
    have lt : i < 2 ^ j := by simpa using hi
    simp only [List.getElem_map, List.getElem_take, List.getElem_range]
    rw [seat i lt (by omega)]
  rw [list]
  refine (List.nodup_map_iff_inj_on List.nodup_range).mpr fun i hi i' hi' h => ?_
  rw [List.mem_range] at hi hi'
  cases j with
  | zero =>
    rw [Nat.pow_zero] at hi hi'
    omega
  | succ t =>
    rw [Nat.pow_div jk (by omega)] at h
    have width : k = t + (k + 1 - (t + 1)) := by omega
    have block := posAt_div hi (k + 1 - (t + 1))
    have block' := posAt_div hi' (k + 1 - (t + 1))
    rw [← width] at block block'
    exact posAt_inj hi hi' (by rw [← block, ← block', h])

theorem seats_lower (least : 2 ≤ n) (many : n + 2 ≤ 2 ^ (k + 1)) :
    ∃ p q rest, seats (k + 1) n = p :: q :: rest ∧ 2 ^ (k + 1) ≤ p ∧ 2 ^ (k + 1) ≤ q := by
  have size := two_pow_succ (k + 1)
  obtain ⟨k, rfl⟩ : ∃ t, k = t + 1 := by
    cases k with
    | zero =>
      simp only [Nat.zero_add, Nat.pow_one] at many
      omega
    | succ t => exact ⟨t, rfl⟩
  have half := two_pow_succ k
  have quarter := two_pow_succ (k + 1)
  have last := posAt_one (k + 1 + 1)
  by_cases third : posAt (k + 1 + 1) 2 ∈ byesOf (k + 1 + 1) n
  · -- so many byes that the whole upper half is gone
    rw [posAt_mem_byesOf (by omega), posAt_two, r1OpponentPosition_eq, if_pos (by omega)] at third
    have lower : ∀ p ∈ seats (k + 1 + 1) n, 2 ^ (k + 1 + 1) ≤ p := by
      intro p hp
      obtain ⟨order, kept⟩ := List.mem_filter.mp hp
      rw [decide_eq_true_eq] at kept
      obtain ⟨i, hi, rfl⟩ := List.mem_map.mp order
      rw [List.mem_range] at hi
      rcases Nat.lt_or_ge i (2 ^ (k + 1 + 1)) with early | late
      · rw [posAt_mem_byesOf early] at kept
        have opponent := r1OpponentPosition_eq (posAt (k + 1) i)
        rw [posAt, if_pos early]
        split at opponent <;> omega
      · exact absurd (posAt_upper_mem_byesOf late hi (by omega)) kept
    have count := length_seats (k := k + 1 + 1) (n := n) (by omega)
    cases h : seats (k + 1 + 1) n with
    | nil => simp [h] at count; omega
    | cons p rest =>
      cases rest with
      | nil => simp [h] at count; omega
      | cons q rest => exact ⟨p, q, rest, rfl, lower p (by simp [h]), lower q (by simp [h])⟩
  · -- seed 1 loses its position, seeds 2 and 3 keep theirs
    have first : posAt (k + 1 + 1) 0 ∈ byesOf (k + 1 + 1) n := by
      rw [posAt_mem_byesOf (by omega), posAt_zero, r1OpponentPosition_eq]
      simp only [Nat.zero_mod, ↓reduceIte]
      omega
    have second : posAt (k + 1 + 1) 1 ∉ byesOf (k + 1 + 1) n := by
      rw [posAt_mem_byesOf (by omega), posAt_one, r1OpponentPosition_eq, if_neg (by omega)]
      omega
    have three : List.range (2 ^ (k + 1 + 1 + 1)) =
        0 :: 1 :: 2 :: (List.range (2 ^ (k + 1 + 1 + 1) - 3)).map (3 + ·) := by
      have add := List.range_add (n := 3) (m := 2 ^ (k + 1 + 1 + 1) - 3)
      rw [show 3 + (2 ^ (k + 1 + 1 + 1) - 3) = 2 ^ (k + 1 + 1 + 1) by omega] at add
      exact add
    have opening : seats (k + 1 + 1) n = posAt (k + 1 + 1) 1 :: posAt (k + 1 + 1) 2 ::
        (((List.range (2 ^ (k + 1 + 1 + 1) - 3)).map (3 + ·)).map (posAt (k + 1 + 1))).filter
          (· ∉ byesOf (k + 1 + 1) n) := by
      rw [seats, three, List.map_cons, List.map_cons, List.map_cons,
        List.filter_cons_of_neg (by simpa using first),
        List.filter_cons_of_pos (by simpa using second),
        List.filter_cons_of_pos (by simpa using third)]
    exact ⟨_, _, _, opening, by omega, (posAt_two (k + 1)).ge⟩

theorem not_spread_of_many (least : 2 ≤ participants.length)
    (many : participants.length + 2 ≤ 2 ^ (k + 1)) (distinct : participants.Nodup)
    (real : byeParticipant ∉ participants) :
    ¬ Spread participants (2 ^ (k + 1 + 1)) := by
  intro spread
  have size := two_pow_succ (k + 1)
  have fits : participants.length ≤ 2 ^ (k + 1 + 1) := by omega
  obtain ⟨p, q, rest, h, hp, hq⟩ := seats_lower least many
  match participants, least with
  | a :: b :: others, _ =>
    have seatA := idxOf_assignToBracket fits distinct real (p := a) (i := 0) rfl
    have seatB := idxOf_assignToBracket fits distinct real (p := b) (i := 1) rfl
    rw [h, List.getElem?_cons_zero, Option.some.injEq] at seatA
    rw [h, List.getElem?_cons_succ, List.getElem?_cons_zero, Option.some.injEq] at seatB
    have boundA := mem_posOrder.mp (List.mem_filter.mp
      (show p ∈ seats (k + 1) (a :: b :: others).length by rw [h]; simp)).1
    have boundB := mem_posOrder.mp (List.mem_filter.mp
      (show q ∈ seats (k + 1) (a :: b :: others).length by rw [h]; simp)).1
    have halves := spread 1 (by simp)
    rw [Nat.pow_one, size, Nat.mul_div_cancel_left _ (by omega), ← size] at halves
    simp only [List.take_succ_cons, List.take_zero, List.map_cons, List.map_nil, ← seatA,
      ← seatB, List.nodup_cons, List.mem_singleton] at halves
    have one : p / 2 ^ (k + 1) = 1 := Nat.div_eq_of_lt_le (by omega) (by omega)
    have one' : q / 2 ^ (k + 1) = 1 := Nat.div_eq_of_lt_le (by omega) (by omega)
    exact halves.1 (one.trans one'.symm)

/-- **Every entrant is placed once and every other position is a bye; the first seeds are kept
apart exactly while the bracket has at most `2 * n + 2` positions.** -/
theorem assignToBracket_spread_iff {participants : List Participant}
    {seededCount bracketSize : Option Nat} {size seeded : Nat}
    (shape : bracketShape participants seededCount bracketSize = .ok (size, seeded))
    (distinct : participants.Nodup) (real : byeParticipant ∉ participants) :
    ((assignToBracket participants size).Perm
        (participants ++ List.replicate (size - participants.length) byeParticipant) ∧
      Spread participants size) ↔ size ≤ 2 * participants.length + 2 := by
  obtain ⟨⟨k, rfl⟩, -, fits, least⟩ := bracketShape_ok shape
  constructor
  · rintro ⟨-, spread⟩
    by_contra many
    have double := two_pow_succ k
    cases k with
    | zero =>
      simp only [Nat.zero_add, Nat.pow_one] at many
      omega
    | succ k => exact not_spread_of_many least (by omega) distinct real spread
  · intro few
    exact ⟨assignToBracket_perm fits, spread_of_few least fits distinct real few⟩

def smith : Participant := { id := "smith", name := "Smith" }

def jones : Participant := { id := "jones", name := "Jones" }

theorem assignToBracket_spread_iff_pair :
    ((assignToBracket [smith, jones] 4).Perm
        ([smith, jones] ++ List.replicate (4 - 2) byeParticipant) ∧ Spread [smith, jones] 4) ↔
      4 ≤ 2 * 2 + 2 :=
  assignToBracket_spread_iff
    (show bracketShape [smith, jones] none (some 4) = .ok (4, 2) by decide) (by decide) (by decide)

/-- Two entrants in a bracket of eight: both in the lower half, to meet in the semifinal. -/
theorem assignToBracket_two_in_eight :
    bracketShape [smith, jones] none (some 8) = .ok (8, 2) ∧
      (assignToBracket [smith, jones] 8).idxOf smith = 7 ∧
      (assignToBracket [smith, jones] 8).idxOf jones = 4 ∧
      ¬ ((assignToBracket [smith, jones] 8).Perm
          ([smith, jones] ++ List.replicate (8 - 2) byeParticipant) ∧ Spread [smith, jones] 8) := by
  refine ⟨by decide, by decide, by decide, fun h => ?_⟩
  have halves := h.2 1 (by decide)
  revert halves
  decide

end Brackets
