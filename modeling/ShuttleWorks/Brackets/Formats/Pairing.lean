import Mathlib.Data.Sym.Sym2
import ShuttleWorks.Brackets.Standings

/-! Pairing a Swiss round from the standings: a bye for the lowest who had none, then from the top
down each takes the nearest opponent not yet met. The pairing is always perfect; it looks one pair
ahead, so a rematch only means that the higher of the two had met everyone who was left. -/

namespace Brackets
open Lib

/-! ## The pairing loop -/

section TopDown

variable {α : Type} (met : α → α → Bool)

def partnerIndex (top : α) (remaining : List α) : Nat :=
  (remaining.findIdx? fun candidate => !met top candidate).getD 0

/-- The loop of `pair_swiss_round`; taking a partner from an empty list fails. -/
def pairTopDown : List α → Option (List (α × α))
  | [] => some []
  | top :: remaining =>
    match remaining[partnerIndex met top remaining]? with
    | none => none
    | some partner =>
      (pairTopDown (remaining.eraseIdx (partnerIndex met top remaining))).map ((top, partner) :: ·)
  termination_by l => l.length
  decreasing_by
    have := List.length_eraseIdx_le remaining (partnerIndex met top remaining)
    simp only [List.length_cons]
    omega

def pairMembers (pairs : List (α × α)) : List α := pairs.flatMap fun p => [p.1, p.2]

@[simp] theorem pairMembers_nil : pairMembers ([] : List (α × α)) = [] := rfl

@[simp] theorem pairMembers_cons (p : α × α) (pairs : List (α × α)) :
    pairMembers (p :: pairs) = p.1 :: p.2 :: pairMembers pairs := rfl

theorem pairMembers_zip {l l' : List α} (same : l.length = l'.length) :
    (pairMembers (l.zip l')).Perm (l ++ l') := by
  induction l generalizing l' with
  | nil =>
    cases l' with
    | nil => exact List.Perm.refl _
    | cons b l' => simp at same
  | cons a l ih =>
    cases l' with
    | nil => simp at same
    | cons b l' =>
      rw [List.zip_cons_cons, pairMembers_cons, List.cons_append]
      refine List.Perm.cons a ?_
      refine ((ih (by simpa using same)).cons b).trans ?_
      exact List.perm_middle.symm

theorem mem_pairMembers {pairs : List (α × α)} {a : α} :
    a ∈ pairMembers pairs ↔ ∃ p ∈ pairs, a = p.1 ∨ a = p.2 := by
  simp [pairMembers]

theorem pairMembers_nodup {pairs : List (α × α)} : (pairMembers pairs).Nodup ↔
    (∀ p ∈ pairs, p.1 ≠ p.2) ∧ pairs.Pairwise fun p q =>
      p.1 ≠ q.1 ∧ p.1 ≠ q.2 ∧ p.2 ≠ q.1 ∧ p.2 ≠ q.2 := by
  have apart : ∀ p q : α × α, List.Disjoint [p.1, p.2] [q.1, q.2] ↔
      p.1 ≠ q.1 ∧ p.1 ≠ q.2 ∧ p.2 ≠ q.1 ∧ p.2 ≠ q.2 := by
    intro p q
    simp only [List.disjoint_cons_left, List.mem_cons, List.not_mem_nil, or_false, not_or,
      List.disjoint_nil_left, and_true, and_assoc]
  rw [pairMembers, List.nodup_flatMap]
  refine and_congr ?_ (iff_of_eq (congrArg (List.Pairwise · pairs) ?_))
  · simp
  · funext p q
    exact propext (apart p q)

theorem pairTopDown_cons (top : α) (remaining : List α) :
    pairTopDown met (top :: remaining) =
      (remaining[partnerIndex met top remaining]?).bind fun partner =>
        (pairTopDown met (remaining.eraseIdx (partnerIndex met top remaining))).map
          ((top, partner) :: ·) := by
  rw [pairTopDown]
  cases remaining[partnerIndex met top remaining]? <;> rfl

theorem partnerIndex_lt {top : α} {remaining : List α} (some : remaining ≠ []) :
    partnerIndex met top remaining < remaining.length := by
  unfold partnerIndex
  cases h : remaining.findIdx? fun candidate => !met top candidate with
  | none => simpa using List.length_pos_iff.mpr some
  | some i => simpa using (List.findIdx?_eq_some_iff_getElem.mp h).1

theorem partnerIndex_met {top : α} {remaining : List α} {i : Nat}
    (here : partnerIndex met top remaining = i) (lt : i < remaining.length) :
    (met top remaining[i] = true → i = 0 ∧ ∀ c ∈ remaining, met top c = true) ∧
      ∀ j (hj : j < i), met top remaining[j] = true := by
  unfold partnerIndex at here
  cases h : remaining.findIdx? fun candidate => !met top candidate with
  | none =>
    rw [h, Option.getD_none] at here
    subst here
    refine ⟨fun _ => ⟨rfl, fun c hc => ?_⟩, fun j hj => absurd hj (Nat.not_lt_zero j)⟩
    simpa using List.findIdx?_eq_none_iff.mp h c hc
  | some k =>
    rw [h, Option.getD_some] at here
    subst here
    obtain ⟨hk, unmet, before⟩ := List.findIdx?_eq_some_iff_getElem.mp h
    refine ⟨fun again => ?_, fun j hj => ?_⟩
    · simp [again] at unmet
    · simpa using before j hj

/-- **An even number of players is paired, everyone once.** -/
theorem pairTopDown_perfect {l : List α} (even : l.length % 2 = 0) :
    ∃ pairs, pairTopDown met l = some pairs ∧ (pairMembers pairs).Perm l := by
  induction hn : l.length using Nat.strong_induction_on generalizing l with
  | _ n ih =>
    subst hn
    cases l with
    | nil => exact ⟨[], by rw [pairTopDown], List.Perm.nil⟩
    | cons top remaining =>
      rw [List.length_cons] at even
      have some : remaining ≠ [] := by
        rintro rfl
        simp at even
      have lt : partnerIndex met top remaining < remaining.length := partnerIndex_lt met some
      have shorter := List.length_eraseIdx_of_lt lt
      obtain ⟨pairs, rest, perm⟩ := ih _ (by rw [List.length_cons]; omega)
        (l := remaining.eraseIdx (partnerIndex met top remaining)) (by omega) rfl
      refine ⟨(top, remaining[partnerIndex met top remaining]) :: pairs, ?_, ?_⟩
      · rw [pairTopDown_cons, List.getElem?_eq_getElem lt, rest]
        rfl
      · rw [pairMembers_cons]
        refine List.Perm.cons top ?_
        exact (perm.cons _).trans (List.getElem_cons_eraseIdx_perm lt)

theorem pairTopDown_perm {l : List α} {pairs : List (α × α)}
    (h : pairTopDown met l = some pairs) : (pairMembers pairs).Perm l := by
  induction hn : l.length using Nat.strong_induction_on generalizing l pairs with
  | _ n ih =>
    subst hn
    cases l with
    | nil =>
      rw [pairTopDown] at h
      cases h
      exact List.Perm.nil
    | cons top remaining =>
      rw [pairTopDown_cons] at h
      obtain ⟨partner, hp, h⟩ := Option.bind_eq_some_iff.mp h
      obtain ⟨rest, hrest, rfl⟩ := Option.map_eq_some_iff.mp h
      obtain ⟨lt, rfl⟩ := List.getElem?_eq_some_iff.mp hp
      have shorter := List.length_eraseIdx_of_lt lt
      have perm := ih _ (by rw [List.length_cons]; omega) hrest rfl
      exact (perm.cons _ |>.trans (List.getElem_cons_eraseIdx_perm lt)).cons top

/-- A pair taken from the top: the higher player stands above all who are left, has met everyone
left if the two had met, and has met everyone left who stands between the two. -/
structure TopPair (rank : α → Nat) (p : α × α) (left : List α) : Prop where
  top : ∀ c ∈ p.2 :: left, rank p.1 < rank c
  lastResort : met p.1 p.2 = true → ∀ c ∈ left, met p.1 c = true
  nearest : ∀ c ∈ left, rank c < rank p.2 → met p.1 c = true ∧ met p.1 p.2 = false

def TopDown (rank : α → Nat) : List (α × α) → Prop
  | [] => True
  | p :: pairs => TopPair met rank p (pairMembers pairs) ∧ TopDown rank pairs

/-- **The loop pairs from the top down.** -/
theorem pairTopDown_topDown {rank : α → Nat} {l : List α} {pairs : List (α × α)}
    (ranked : l.Pairwise fun a b => rank a < rank b) (h : pairTopDown met l = some pairs) :
    TopDown met rank pairs := by
  induction hn : l.length using Nat.strong_induction_on generalizing l pairs with
  | _ n ih =>
    subst hn
    cases l with
    | nil =>
      rw [pairTopDown] at h
      cases h
      trivial
    | cons top remaining =>
      rw [pairTopDown_cons] at h
      obtain ⟨partner, hp, h⟩ := Option.bind_eq_some_iff.mp h
      obtain ⟨rest, hrest, rfl⟩ := Option.map_eq_some_iff.mp h
      obtain ⟨lt, rfl⟩ := List.getElem?_eq_some_iff.mp hp
      obtain ⟨above, sorted⟩ := List.pairwise_cons.mp ranked
      have shorter := List.length_eraseIdx_of_lt lt
      have left := pairTopDown_perm met hrest
      have inside : ∀ c ∈ pairMembers rest, c ∈ remaining := fun c hc =>
        List.mem_of_mem_eraseIdx (left.mem_iff.mp hc)
      obtain ⟨again, before⟩ := partnerIndex_met met rfl lt
      refine ⟨⟨?_, fun h c hc => (again h).2 c (inside c hc), fun c hc nearer => ?_⟩,
        ih _ (by rw [List.length_cons]; omega) (sorted.sublist (List.eraseIdx_sublist _ _))
          hrest rfl⟩
      · intro c hc
        rcases List.mem_cons.mp hc with rfl | hc
        · exact above _ (List.getElem_mem lt)
        · exact above c (inside c hc)
      · obtain ⟨j, hj, rfl⟩ := List.mem_iff_getElem.mp (inside c hc)
        have earlier : j < partnerIndex met top remaining := by
          rcases Nat.lt_trichotomy j (partnerIndex met top remaining) with lt' | eq | gt
          · exact lt'
          · subst eq
            exact absurd nearer (Nat.lt_irrefl _)
          · have := List.pairwise_iff_getElem.mp sorted _ j lt hj gt
            dsimp only at nearer
            omega
        refine ⟨before j earlier, ?_⟩
        cases hm : met top remaining[partnerIndex met top remaining] with
        | false => rfl
        | true =>
          have zero := (again hm).1
          omega

end TopDown

/-! ## A Swiss round -/

/-- The bye of an odd field: the lowest who never had one, else the lowest. -/
def swissBye (order : List ParticipantId) (byeHistory : List ParticipantId) :
    Option ParticipantId :=
  if order.length % 2 = 1 then
    (order.reverse.find? fun id => id ∉ byeHistory).or order.getLast?
  else none

def alreadyMet (priorPairings : List (Sym2 ParticipantId)) (top candidate : ParticipantId) : Bool :=
  decide (s(top, candidate) ∈ priorPairings)

/-- `pair_swiss_round`: the pairs, higher standing first, and the bye. -/
def pairSwissRound (standings : List StandingRow) (priorPairings : List (Sym2 ParticipantId))
    (byeHistory : List ParticipantId) :
    Option (List (ParticipantId × ParticipantId) × Option ParticipantId) :=
  let order := standings.map StandingRow.participantId
  let bye := swissBye order byeHistory
  (pairTopDown (alreadyMet priorPairings) (order.filter fun id => some id ≠ bye)).map
    fun pairs => (pairs, bye)

def PerfectMatching (pairs : List (ParticipantId × ParticipantId)) (players : List ParticipantId) :
    Prop :=
  (pairMembers pairs).Perm players

theorem swissBye_mem {order byeHistory : List ParticipantId} {id : ParticipantId}
    (h : swissBye order byeHistory = some id) : order.length % 2 = 1 ∧ id ∈ order := by
  unfold swissBye at h
  split at h
  · next odd =>
    refine ⟨odd, ?_⟩
    rcases Option.or_eq_some_iff.mp h with found | ⟨-, last⟩
    · exact List.mem_reverse.mp (List.mem_of_find?_eq_some found)
    · exact List.mem_of_getLast? last
  · cases h

theorem swissBye_isSome {order byeHistory : List ParticipantId} :
    (swissBye order byeHistory).isSome = true ↔ order.length % 2 = 1 := by
  unfold swissBye
  split
  · next odd =>
    refine ⟨fun _ => odd, fun _ => ?_⟩
    have last : order.getLast?.isSome = true := by
      rw [List.getLast?_isSome]
      rintro rfl
      simp at odd
    rw [Option.isSome_or, last, Bool.or_true]
  · next even => simp [even]

theorem swissBye_fresh {order byeHistory : List ParticipantId} {id : ParticipantId}
    (h : swissBye order byeHistory = some id) (fresh : ∃ x ∈ order, x ∉ byeHistory) :
    id ∉ byeHistory := by
  unfold swissBye at h
  split at h
  · rcases Option.or_eq_some_iff.mp h with found | ⟨none, -⟩
    · simpa using List.find?_some found
    · obtain ⟨x, hx, new⟩ := fresh
      have all := List.find?_eq_none.mp none x (List.mem_reverse.mpr hx)
      simp [new] at all
  · cases h

theorem filter_ne_bye {order : List ParticipantId} (byeHistory : List ParticipantId)
    (distinct : order.Nodup) :
    (order.filter fun id => some id ≠ swissBye order byeHistory) =
      match swissBye order byeHistory with
      | none => order
      | some id => order.erase id := by
  cases swissBye order byeHistory with
  | none => simp
  | some id =>
    dsimp only
    rw [distinct.erase_eq_filter]
    refine List.filter_congr fun x _ => ?_
    by_cases h : x = id
    · simp [h]
    · simp [h]

theorem length_filter_ne_bye {order : List ParticipantId} (byeHistory : List ParticipantId)
    (distinct : order.Nodup) :
    (order.filter fun id => some id ≠ swissBye order byeHistory).length % 2 = 0 := by
  rw [filter_ne_bye byeHistory distinct]
  cases h : swissBye order byeHistory with
  | none =>
    have odd := (@swissBye_isSome order byeHistory).not
    simp only [h, Option.isSome_none, Bool.false_eq_true, not_false_eq_true, true_iff] at odd
    dsimp only
    omega
  | some id =>
    obtain ⟨odd, mem⟩ := swissBye_mem h
    have erased := List.length_erase_of_mem mem
    dsimp only
    omega

theorem pairSwissRound_perfect {standings : List StandingRow}
    (distinct : (standings.map StandingRow.participantId).Nodup)
    (priorPairings : List (Sym2 ParticipantId)) (byeHistory : List ParticipantId) :
    ∃ pairs bye, pairSwissRound standings priorPairings byeHistory = some (pairs, bye) ∧
      bye = swissBye (standings.map StandingRow.participantId) byeHistory ∧
      (bye.toList ++ pairMembers pairs).Perm (standings.map StandingRow.participantId) := by
  obtain ⟨order, horder⟩ : ∃ order, order = standings.map StandingRow.participantId := ⟨_, rfl⟩
  rw [← horder] at distinct
  obtain ⟨pairs, paired, perm⟩ :=
    pairTopDown_perfect (alreadyMet priorPairings) (length_filter_ne_bye byeHistory distinct)
  refine ⟨pairs, swissBye order byeHistory, ?_, by rw [horder], ?_⟩
  · simp only [pairSwissRound, ← horder, paired, Option.map_some]
  · rw [← horder]
    refine (perm.append_left _).trans ?_
    rw [filter_ne_bye byeHistory distinct]
    cases h : swissBye order byeHistory with
    | none => simp
    | some id => exact (List.perm_cons_erase (swissBye_mem h).2).symm

theorem pairwise_idxOf {order : List ParticipantId} (distinct : order.Nodup) :
    order.Pairwise fun a b => order.idxOf a < order.idxOf b := by
  refine List.pairwise_iff_getElem.mpr fun i j hi hj lt => ?_
  rw [distinct.idxOf_getElem i hi, distinct.idxOf_getElem j hj]
  exact lt

/-- **A round is always paired, everyone once but the bye of an odd field, and from the top down**:
who meets an opponent again had met everyone who was left. -/
theorem pairSwissRound_topDown {standings : List StandingRow}
    (distinct : (standings.map StandingRow.participantId).Nodup)
    (priorPairings : List (Sym2 ParticipantId)) (byeHistory : List ParticipantId) :
    ∃ pairs bye, pairSwissRound standings priorPairings byeHistory = some (pairs, bye) ∧
      (bye.isSome = true ↔ (standings.map StandingRow.participantId).length % 2 = 1) ∧
      (∀ id, bye = some id → id ∈ standings.map StandingRow.participantId) ∧
      PerfectMatching pairs
        ((standings.map StandingRow.participantId).filter fun id => some id ≠ bye) ∧
      TopDown (alreadyMet priorPairings) (standings.map StandingRow.participantId).idxOf pairs := by
  obtain ⟨pairs, paired, perm⟩ :=
    pairTopDown_perfect (alreadyMet priorPairings) (length_filter_ne_bye byeHistory distinct)
  refine ⟨pairs, _, ?_, swissBye_isSome, fun id h => (swissBye_mem h).2, perm,
    pairTopDown_topDown (alreadyMet priorPairings) ?_ paired⟩
  · exact congrArg (Option.map fun pairs => (pairs, _)) paired
  · exact (pairwise_idxOf distinct).sublist List.filter_sublist

def fourRows : List StandingRow :=
  ["a", "b", "c", "d"].map fun id => ({ participantId := id } : StandingRow)

theorem pairSwissRound_topDown_four :
    ∃ pairs bye, pairSwissRound fourRows [s("c", "d")] [] = some (pairs, bye) ∧
      (bye.isSome = true ↔ (fourRows.map StandingRow.participantId).length % 2 = 1) ∧
      (∀ id, bye = some id → id ∈ fourRows.map StandingRow.participantId) ∧
      PerfectMatching pairs
        ((fourRows.map StandingRow.participantId).filter fun id => some id ≠ bye) ∧
      TopDown (alreadyMet [s("c", "d")]) (fourRows.map StandingRow.participantId).idxOf pairs :=
  pairSwissRound_topDown (by decide) [s("c", "d")] []

/-- The loop pairs the first two and leaves the rematch, though both could have met the others. -/
theorem pairSwissRound_strands :
    pairSwissRound fourRows [s("c", "d")] [] = some ([("a", "b"), ("c", "d")], none) ∧
      alreadyMet [s("c", "d")] "c" "d" = true ∧
      PerfectMatching [("a", "c"), ("b", "d")] (fourRows.map StandingRow.participantId) ∧
      ∀ p ∈ [("a", "c"), ("b", "d")], alreadyMet [s("c", "d")] p.1 p.2 = false := by
  refine ⟨?_, by decide, ?_, by decide⟩
  · have order : ((fourRows.map StandingRow.participantId).filter fun id =>
        some id ≠ swissBye (fourRows.map StandingRow.participantId) []) = ["a", "b", "c", "d"] := by
      decide
    have first : partnerIndex (alreadyMet [s("c", "d")]) "a" ["b", "c", "d"] = 0 := by decide
    have second : partnerIndex (alreadyMet [s("c", "d")]) "c" ["d"] = 0 := by decide
    have paired : pairTopDown (alreadyMet [s("c", "d")]) ["a", "b", "c", "d"] =
        some [("a", "b"), ("c", "d")] := by
      rw [pairTopDown_cons, first]
      simp only [List.getElem?_cons_zero, Option.bind_some, List.eraseIdx_cons_zero]
      rw [pairTopDown_cons, second]
      simp [pairTopDown]
    rw [← order] at paired
    exact congrArg (Option.map fun pairs => (pairs, _)) paired
  · show ["a", "c", "b", "d"].Perm ["a", "b", "c", "d"]
    decide

end Brackets
