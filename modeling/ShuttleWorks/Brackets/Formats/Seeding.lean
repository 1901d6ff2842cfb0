import ShuttleWorks.Brackets.Formats.Knockout
import ShuttleWorks.Lib.Except

/-! Placing the entrants: the bracket size, the seeding positions by repeated
bisection, byes opposite the top seeds. No entrant is placed twice. -/

namespace Brackets
open Lib

def bracketSizes : List Nat := [2, 4, 8, 16, 32, 64, 128, 256]

def nextBracketSize (n : Nat) : Except String Nat :=
  if n < 2 then .error ("need at least 2 participants, got " ++ toString n)
  else match bracketSizes.find? (fun size => n ≤ size) with
    | some size => .ok size
    | none => .error ("bracket size > 256 not supported (got " ++ toString n ++ ")")

/-- One section bisected: the next two seeds go to the middle, the lower one below. -/
def bisectSection (w : List Nat × Nat × List (Nat × Nat)) (sec : Nat × Nat) :
    List Nat × Nat × List (Nat × Nat) :=
  if sec.2 - sec.1 < 3 then w
  else
    let midLo := (sec.1 + sec.2) / 2
    let midHi := midLo + 1
    ((w.1.set midHi w.2.1).set midLo (w.2.1 + 1), w.2.1 + 2,
      w.2.2 ++ [(sec.1, midLo), (midHi, sec.2)])

def bisectLevels (size : Nat) : Nat → List Nat → Nat → List (Nat × Nat) → List Nat
  | 0, positions, _, _ => positions
  | fuel + 1, positions, nextSeed, sections =>
    if sections = [] ∨ size < nextSeed then positions
    else
      let w := sections.foldl bisectSection (positions, nextSeed, [])
      bisectLevels size fuel w.1 w.2.1 w.2.2

/-- `_bwf_positions`: the seed at each position. -/
def bwfPositions (size : Nat) : List Nat :=
  bisectLevels size size (((List.replicate size 0).set 0 1).set (size - 1) 2) 3 [(0, size - 1)]

def seedToPositionMap (size : Nat) : List Nat :=
  (bwfPositions size).zipIdx.foldl (fun acc p => acc.set (p.1 - 1) p.2) (List.replicate size 0)

/-- `_r1_opponent_position`. -/
def r1OpponentPosition (pos : Nat) : Nat := pos ^^^ 1

def byeParticipant : Participant := { id := BYE, name := "(bye)" }

/-- The next entrant goes to this position, unless a bye stands there or all are placed. -/
def place (byePositions : List Nat) (w : List (Option Participant) × List Participant)
    (pos : Nat) : List (Option Participant) × List Participant :=
  if pos ∈ byePositions then (w.1.set pos (some byeParticipant), w.2)
  else match w.2 with
    | p :: rest => (w.1.set pos (some p), rest)
    | [] => (w.1.set pos (some byeParticipant), [])

/-- `_assign_to_bracket`, for a size that holds the participants. -/
def assignToBracket (participants : List Participant) (size : Nat) : List Participant :=
  let seedToPos := seedToPositionMap size
  let byePositions := (seedToPos.take (size - participants.length)).map r1OpponentPosition
  let placed := seedToPos.foldl (place byePositions) (List.replicate size none, participants)
  placed.1.map (fun p => p.getD byeParticipant)

/-- `bracket_size or _next_bracket_size(n)`. -/
def resolveSize (bracketSize : Option Nat) (n : Nat) : Except String Nat :=
  match bracketSize with
  | some (size + 1) => .ok (size + 1)
  | _ => nextBracketSize n

/-- The checks every knockout generator opens with; double elimination asks for four at least. -/
def checkShape (leastFour : Bool) (n seeded size : Nat) : Except String (Nat × Nat) :=
  if size &&& (size - 1) ≠ 0 ∨ size < 2 then
    .error ("bracket_size must be a power of two >= 2, got " ++ toString size)
  else if leastFour ∧ size < 4 then
    .error ("double elimination needs a bracket size of at least 4, got " ++ toString size)
  else if size < n then
    .error ("bracket_size=" ++ toString size ++ " cannot hold " ++ toString n ++ " participants")
  else if n < seeded then
    .error ("seeded_count must be 0.." ++ toString n ++ ", got " ++ toString seeded)
  else .ok (size, seeded)

/-- The bracket size and the number of seeds the checks settle on. -/
def bracketShape (participants : List Participant) (seededCount bracketSize : Option Nat)
    (leastFour : Bool := false) : Except String (Nat × Nat) :=
  if participants.length < 2 then .error "need at least 2 participants"
  else (resolveSize bracketSize participants.length).bind
    (checkShape leastFour participants.length (seededCount.getD participants.length))

def entrantSlots (participants : List Participant) (size : Nat) : List BracketSlot :=
  (assignToBracket participants size).map fun p => .participant p.id

/-- The event of a knockout draw. -/
def knockoutEvent (eventId : EventId) (format : String) (size count seeded : Nat) : Event where
  id := eventId
  typeTags := [format]
  formatPluginName := format
  parameters := [("bracket_size", .int size), ("participant_count", .int count),
    ("seeded_count", .int seeded)]

/-! ## The bracket has the size it should -/

variable {participants : List Participant} {x : ParticipantId} {i j : Nat}

theorem bracketShape_ok {seededCount bracketSize : Option Nat} {leastFour : Bool}
    {size seeded : Nat}
    (h : bracketShape participants seededCount bracketSize leastFour = .ok (size, seeded)) :
    (∃ k, size = 2 ^ (k + 1)) ∧ (leastFour = true → 4 ≤ size) ∧ participants.length ≤ size ∧
      2 ≤ participants.length := by
  unfold bracketShape at h
  split at h
  · cases h
  next few =>
  obtain ⟨sz, -, h⟩ := bind_eq_ok.mp h
  unfold checkShape at h
  split at h
  · cases h
  next pow =>
  split at h
  · cases h
  next four =>
  split at h
  · cases h
  next fits =>
  split at h
  · cases h
  cases h
  refine ⟨power_of_two (fun h => pow h.symm), fun hl => ?_, by omega, by omega⟩
  by_contra hlt
  exact four ⟨hl, by omega⟩

theorem length_place (byes : List Nat) (w : List (Option Participant) × List Participant)
    (pos : Nat) : (place byes w pos).1.length = w.1.length := by
  unfold place
  split
  · simp
  · split <;> simp

theorem length_foldl_place (byes positions : List Nat)
    (w : List (Option Participant) × List Participant) :
    (positions.foldl (place byes) w).1.length = w.1.length := by
  induction positions generalizing w with
  | nil => rfl
  | cons pos positions ih => rw [List.foldl_cons, ih, length_place]

theorem length_entrantSlots (participants : List Participant) (size : Nat) :
    (entrantSlots participants size).length = size := by
  simp [entrantSlots, assignToBracket, length_foldl_place]

/-! ## No entrant is placed twice -/

def placedIds (l : List (Option Participant)) : List ParticipantId :=
  l.map fun p => (p.getD byeParticipant).id

theorem count_set_le (l : List (Option Participant)) (i : Nat) (p : Participant) :
    (placedIds (l.set i (some p))).count x ≤ (placedIds l).count x + [p.id].count x := by
  induction l generalizing i with
  | nil => simp [placedIds]
  | cons q l ih =>
    cases i with
    | zero =>
      simp only [placedIds, List.set_cons_zero, List.map_cons, Option.getD_some, List.count_cons,
        List.count_nil]
      omega
    | succ i =>
      have := ih i
      simp only [placedIds, List.set_cons_succ, List.map_cons, List.count_cons] at this ⊢
      omega

theorem count_place_le (byes : List Nat) (w : List (Option Participant) × List Participant)
    (pos : Nat) (hx : x ≠ BYE) :
    (placedIds (place byes w pos).1).count x + ((place byes w pos).2.map (·.id)).count x ≤
      (placedIds w.1).count x + (w.2.map (·.id)).count x := by
  have bye : [byeParticipant.id].count x = 0 :=
    List.count_eq_zero.mpr (by simpa [byeParticipant] using hx)
  unfold place
  split
  · have := count_set_le w.1 pos byeParticipant (x := x)
    dsimp only
    omega
  · split
    · next p rest h =>
      have := count_set_le w.1 pos p (x := x)
      have split : ((p :: rest).map (·.id)).count x =
          [p.id].count x + (rest.map (·.id)).count x := by
        simp only [List.map_cons, List.count_cons, List.count_nil]
        omega
      dsimp only
      rw [h, split]
      omega
    · have := count_set_le w.1 pos byeParticipant (x := x)
      simp only [List.map_nil, List.count_nil]
      omega

theorem count_foldl_place_le (byes positions : List Nat)
    (w : List (Option Participant) × List Participant) (hx : x ≠ BYE) :
    (placedIds (positions.foldl (place byes) w).1).count x ≤
      (placedIds w.1).count x + (w.2.map (·.id)).count x := by
  induction positions generalizing w with
  | nil => simp
  | cons pos positions ih =>
    exact (ih (place byes w pos)).trans (count_place_le byes w pos hx)

theorem getElem?_inj_of_count_le {α : Type} [DecidableEq α] {l : List α} {a : α} (h : l.count a ≤ 1)
    (hi : l[i]? = some a) (hj : l[j]? = some a) : i = j := by
  induction l generalizing i j with
  | nil => simp at hi
  | cons b l ih =>
    have tail : ∀ {k}, l[k]? = some a → 1 ≤ l.count a := fun hk =>
      List.count_pos_iff.mpr (List.mem_of_getElem? hk)
    rw [List.count_cons] at h
    cases i with
    | zero =>
      cases j with
      | zero => rfl
      | succ j =>
        simp only [List.getElem?_cons_zero, Option.some.injEq] at hi
        have := tail (by simpa using hj)
        simp only [hi, BEq.rfl, ↓reduceIte] at h
        omega
    | succ i =>
      cases j with
      | zero =>
        simp only [List.getElem?_cons_zero, Option.some.injEq] at hj
        have := tail (by simpa using hi)
        simp only [hj, BEq.rfl, ↓reduceIte] at h
        omega
      | succ j =>
        exact congrArg (· + 1) (ih (by omega) (by simpa using hi) (by simpa using hj))

/-- **Distinct entrants have distinct places.** -/
theorem entrantSlots_inj (size : Nat) (distinct : (participants.map (·.id)).Nodup) (hx : x ≠ BYE)
    (hi : (entrantSlots participants size)[i]? = some (.participant x))
    (hj : (entrantSlots participants size)[j]? = some (.participant x)) : i = j := by
  have ids : ∀ {k : Nat}, (entrantSlots participants size)[k]? = some (.participant x) →
      ((assignToBracket participants size).map (·.id))[k]? = some x := by
    intro k hk
    rw [entrantSlots, List.getElem?_map, Option.map_eq_some_iff] at hk
    obtain ⟨p, hp, e⟩ := hk
    rw [List.getElem?_map, hp]
    exact congrArg some (BracketSlot.participant.inj e)
  refine getElem?_inj_of_count_le ?_ (ids hi) (ids hj)
  have placed := count_foldl_place_le
    (((seedToPositionMap size).take (size - participants.length)).map r1OpponentPosition)
    (seedToPositionMap size) (List.replicate size none, participants) hx
  have start : (placedIds (List.replicate size (none : Option Participant))).count x = 0 := by
    refine List.count_eq_zero.mpr (fun h => ?_)
    simp only [placedIds, List.map_replicate, List.mem_replicate] at h
    exact hx h.2
  have once := List.nodup_iff_count_le_one.mp distinct x
  have bracket : (assignToBracket participants size).map (·.id) =
      placedIds ((seedToPositionMap size).foldl (place
        (((seedToPositionMap size).take (size - participants.length)).map r1OpponentPosition))
        (List.replicate size none, participants)).1 := by
    simp only [assignToBracket, placedIds, List.map_map]
    rfl
  rw [bracket]
  dsimp only at placed
  omega

theorem getElem?_of_getD {slots : List BracketSlot} (hx : x ≠ BYE)
    (h : slots.getD i (.participant BYE) = .participant x) : slots[i]? = some (.participant x) := by
  rw [List.getD_eq_getElem?_getD] at h
  cases hi : slots[i]? with
  | some slot =>
    rw [hi, Option.getD_some] at h
    rw [h]
  | none =>
    rw [hi, Option.getD_none] at h
    exact absurd (BracketSlot.participant.inj h).symm hx

end Brackets
