import Mathlib.Algebra.BigOperators.Group.Finset.Basic
import ShuttleWorks.Lib.Positions
import ShuttleWorks.Meet.Ranks

/-! The slots of a lineup: a rank and two groups. Which of them get a match, when the lineup
comes back at all, and that a lineup built from its own matches is the same lineup. -/

namespace Meet
open Lib

/-- A rank and the positions of two groups. -/
structure Slot where
  rank : String
  first : Nat
  second : Nat
  deriving DecidableEq, Repr

def holders (state : TournamentStateDTO) (rank : String) (group : RosterGroupDTO) :
    List PlayerDTO :=
  state.players.filter fun player => rank ∈ player.ranks ∧ player.groupId = group.id

def CanField (state : TournamentStateDTO) (rank : String) (group : RosterGroupDTO) : Prop :=
  needed rank ≤ (holders state rank group).length

instance (state : TournamentStateDTO) (rank : String) (group : RosterGroupDTO) :
    Decidable (CanField state rank group) := inferInstanceAs (Decidable (_ ≤ _))

def slotMatch (state : TournamentStateDTO) (rank : String) (groupA groupB : RosterGroupDTO) :
    MatchDTO :=
  dualMatch rank (holders state rank groupA) (holders state rank groupB)

def Incomplete (state : TournamentStateDTO) (rank : String) (group : RosterGroupDTO) : Prop :=
  (holders state rank group).length = 1 ∧ needed rank = 2

instance (state : TournamentStateDTO) (rank : String) (group : RosterGroupDTO) :
    Decidable (Incomplete state rank group) := inferInstanceAs (Decidable (_ ∧ _))

/-! ## What the loops fill -/

section
variable (state : TournamentStateDTO) (rank : String)

/-- The slot of two groups with its match, where both can field the rank. -/
def slotEntry (p : (RosterGroupDTO × Nat) × (RosterGroupDTO × Nat)) : List (Slot × MatchDTO) :=
  if CanField state rank p.1.1 ∧ CanField state rank p.2.1 then
    [(⟨rank, p.1.2, p.2.2⟩, slotMatch state rank p.1.1 p.2.1)]
  else []

def incompleteEntry (group : RosterGroupDTO) : List String :=
  if Incomplete state rank group then [group.name ++ " " ++ rank] else []

end

def IsCapacity (e : LineupError) : Prop := ∃ output, e = .capacity output

variable {state : TournamentStateDTO} {rank : String}
  {playersByGroup : List (String × List PlayerDTO)}

theorem addMatch_puts (fresh : Nat → String)
    (sides : ∀ group, sideOf playersByGroup group = holders state rank group)
    (groupA groupB : RosterGroupDTO × Nat) :
    Filled.Puts (stampId fresh) MAX_MATCHES MAX_MATCHES IsCapacity
      (fun acc => addMatch fresh rank playersByGroup groupA.1 acc groupB.1)
      ((slotEntry state rank (groupA, groupB)).map Prod.snd) [] := by
  simp only [addMatch, sides, slotEntry, CanField]
  by_cases field : needed rank ≤ (holders state rank groupA.1).length ∧
      needed rank ≤ (holders state rank groupB.1).length
  · have short : ¬ ((holders state rank groupB.1).length < needed rank ∨
        (holders state rank groupA.1).length < needed rank) := by omega
    simp only [field, short, and_self, ↓reduceIte, List.map_cons, List.map_nil]
    exact Filled.Puts.left ⟨_, rfl⟩ _
  · have short : (holders state rank groupB.1).length < needed rank ∨
        (holders state rank groupA.1).length < needed rank := by omega
    simp only [field, short, ↓reduceIte, List.map_nil]
    exact Filled.Puts.nothing

theorem addIncomplete_puts (fresh : Nat → String)
    (sides : ∀ group, sideOf playersByGroup group = holders state rank group)
    (group : RosterGroupDTO) :
    Filled.Puts (stampId fresh) MAX_MATCHES MAX_MATCHES IsCapacity
      (addIncomplete rank playersByGroup group) [] (incompleteEntry state rank group) := by
  unfold addIncomplete
  simp only [sides, incompleteEntry, Incomplete]
  by_cases half : (holders state rank group).length = 1 ∧ needed rank = 2
  · simp only [half, and_self, ↓reduceIte]
    exact Filled.Puts.right ⟨_, rfl⟩ _
  · simp only [half, ↓reduceIte]
    exact Filled.Puts.nothing

theorem pairGroups_puts (fresh : Nat → String)
    (sides : ∀ group, sideOf playersByGroup group = holders state rank group)
    (groups : List RosterGroupDTO) (k : Nat) :
    Filled.Puts (stampId fresh) MAX_MATCHES MAX_MATCHES IsCapacity
      (pairGroups fresh rank playersByGroup groups)
      (((pairings k groups).flatMap (slotEntry state rank)).map Prod.snd)
      (groups.flatMap (incompleteEntry state rank)) := by
  induction groups generalizing k with
  | nil => exact Filled.Puts.nothing
  | cons group rest ih =>
    have inner := Filled.Puts.loop (l := rest.zipIdx (k + 1))
      (f := fun acc groupB => addMatch fresh rank playersByGroup group acc groupB.1)
      fun groupB _ => addMatch_puts fresh sides (group, k) groupB
    have turns := (addIncomplete_puts fresh sides group).append (inner.append (ih (k + 1)))
    have unnumbered : ∀ acc : Output, (rest.zipIdx (k + 1)).foldlM
        (fun acc groupB => addMatch fresh rank playersByGroup group acc groupB.1) acc =
          rest.foldlM (addMatch fresh rank playersByGroup group) acc := by
      intro acc
      rw [← List.foldlM_map (f := Prod.fst) (g := addMatch fresh rank playersByGroup group)]
      rw [List.zipIdx_map_fst]
    have silent : (rest.zipIdx (k + 1)).flatMap (fun _ => ([] : List String)) = [] :=
      List.flatMap_eq_nil_iff.mpr fun _ _ => rfl
    simpa only [unnumbered, silent, pairGroups, pairings, List.nil_append, List.flatMap_append,
      List.map_append, List.flatMap_map, List.map_flatMap, List.flatMap_cons] using turns

/-- The slots of some ranks with their matches, in the order of the loops. -/
def filledSlots (state : TournamentStateDTO) (keys : List RankKey) : List (Slot × MatchDTO) :=
  keys.flatMap fun key => (pairings 0 state.groups).flatMap (slotEntry state (rankText key))

def incompleteLines (state : TournamentStateDTO) (keys : List RankKey) : List String :=
  keys.flatMap fun key => state.groups.flatMap (incompleteEntry state (rankText key))

theorem fillRanks_puts (fresh : Nat → String) {keys : List RankKey} {index : RankIndex}
    (sides : ∀ key ∈ keys, ∀ group, holdersAt index key group =
      state.players.filter fun player => rankText key ∈ player.ranks ∧ player.groupId = group) :
    Filled.Puts (stampId fresh) MAX_MATCHES MAX_MATCHES IsCapacity
      (fun acc => keys.foldlM (fillRank fresh state.groups index) acc)
      ((filledSlots state keys).map Prod.snd) (incompleteLines state keys) := by
  rw [filledSlots, List.map_flatMap]
  apply Filled.Puts.loop
  intro key mem
  exact pairGroups_puts fresh (fun group => sides key mem group.id) state.groups 0

/-! ## Which slots are filled -/

theorem mem_filledSlots {keys : List RankKey} {entry : Slot × MatchDTO} :
    entry ∈ filledSlots state keys ↔ ∃ key ∈ keys, rankText key = entry.1.rank ∧
      ∃ groupA groupB, state.groups[entry.1.first]? = some groupA ∧
        state.groups[entry.1.second]? = some groupB ∧ entry.1.first < entry.1.second ∧
        CanField state entry.1.rank groupA ∧ CanField state entry.1.rank groupB ∧
        entry.2 = slotMatch state entry.1.rank groupA groupB := by
  simp only [filledSlots, List.mem_flatMap, slotEntry]
  constructor
  · rintro ⟨key, mem, p, pair, h⟩
    split at h
    · next field =>
      obtain rfl := List.mem_singleton.mp h
      obtain ⟨lt, first, second⟩ := mem_pairings.mp pair
      exact ⟨key, mem, rfl, p.1.1, p.2.1, List.mem_zipIdx_iff_getElem?.mp first,
        List.mem_zipIdx_iff_getElem?.mp second, lt, field.1, field.2, rfl⟩
    · cases h
  · rintro ⟨key, mem, same, groupA, groupB, first, second, lt, fieldA, fieldB, m⟩
    obtain ⟨⟨rank, i, j⟩, m'⟩ := entry
    obtain rfl : rankText key = rank := same
    obtain rfl : m' = slotMatch state (rankText key) groupA groupB := m
    refine ⟨key, mem, ((groupA, i), groupB, j), mem_pairings.mpr ⟨lt, ?_, ?_⟩, ?_⟩
    · exact List.mem_zipIdx_iff_getElem?.mpr first
    · exact List.mem_zipIdx_iff_getElem?.mpr second
    · rw [if_pos ⟨fieldA, fieldB⟩]
      exact List.mem_singleton_self _

theorem nodup_rankSlots (state : TournamentStateDTO) (rank : String) :
    (((pairings 0 state.groups).flatMap (slotEntry state rank)).map Prod.fst).Nodup := by
  have pairs := nodup_pairings 0 state.groups
  rw [List.map_flatMap, List.nodup_flatMap]
  constructor
  · intro p _
    rw [slotEntry]
    split <;> simp
  · refine (List.pairwise_map.mp pairs).imp ?_
    intro p q apart slot hp hq
    simp only [slotEntry] at hp hq
    split at hp
    · split at hq
      · simp only [List.map_cons, List.map_nil, List.mem_singleton] at hp hq
        have same := hp.symm.trans hq
        simp only [Slot.mk.injEq, true_and] at same
        exact apart (Prod.ext same.1 same.2)
      · cases hq
    · cases hp

theorem nodup_slots_of_rank {keys : List RankKey} {rank : String} (nodup : keys.Nodup)
    (one : ∀ key ∈ keys, ∀ key' ∈ keys, rankText key = rank → rankText key' = rank → key = key') :
    (((filledSlots state keys).map Prod.fst).filter (·.rank = rank)).Nodup := by
  rw [filledSlots, List.map_flatMap, List.filter_flatMap, List.nodup_flatMap]
  constructor
  · intro key _
    exact (nodup_rankSlots state (rankText key)).filter _
  · refine (List.Pairwise.and_mem.mp nodup).imp ?_
    rintro key key' ⟨mem, mem', apart⟩ slot h h'
    have rank_of : ∀ key, slot ∈ (((pairings 0 state.groups).flatMap
        (slotEntry state (rankText key))).map Prod.fst).filter (·.rank = rank) →
          rankText key = rank := by
      intro key h
      obtain ⟨h, same⟩ := List.mem_filter.mp h
      rw [List.map_flatMap] at h
      obtain ⟨p, -, h⟩ := List.mem_flatMap.mp h
      rw [slotEntry] at h
      split at h
      · obtain rfl := List.mem_singleton.mp h
        simpa using same
      · cases h
    exact apart (one key mem key' mem' (rank_of key h) (rank_of key' h'))

end Meet
