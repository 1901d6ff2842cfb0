import ShuttleWorks.Console.TrafficLight
import ShuttleWorks.Lib.Tally

/-! The constraints that a schedule violates: a player in two matches at once or without their rest
between two, and two matches on one court. The checks compare neighbours in the order of the starts
and count the matches in every slot of a court. -/

namespace Console.ConstraintChecker
open Lib
open Console.TrafficLight (Js MatchDTO PlayerDTO TournamentConfig formatMatchIdentity
  getMatchPlayerIds meetMatchIdentityFromStored orUnknown)

/-! ## Rows -/

structure ScheduleAssignment where
  matchId : String
  slotId : Int
  courtId : Int
  durationSlots : Int
  durationPos : 1 ≤ durationSlots

inductive ViolationType
  | overlap | rest | courtCapacity
  deriving DecidableEq, Repr

inductive Severity
  | hard | soft
  deriving DecidableEq, Repr

structure ConstraintViolation where
  type : ViolationType
  severity : Severity
  playerIds : List String
  matchIds : List String
  description : String
  deriving DecidableEq

/-- What a player is busy with. -/
structure Slot where
  start : Int
  stop : Int
  matchId : String
  lasts : start < stop

/-- The schedule that is checked. -/
structure Plan where
  js : Js
  assignments : List ScheduleAssignment
  games : List MatchDTO
  players : List PlayerDTO
  config : TournamentConfig

def indexById {ρ : Type} (id : ρ → String) (rows : List ρ) : List (String × ρ) :=
  rows.foldl (fun index row => Assoc.set (id row) row index) []

/-- `Math.ceil(minutes / interval)`. -/
def slotsOf (config : TournamentConfig) (minutes : Nat) : Nat :=
  (minutes + config.intervalMinutes - 1) / config.intervalMinutes

namespace ScheduleAssignment

variable (a : ScheduleAssignment)

def slot : Slot where
  start := a.slotId
  stop := a.slotId + a.durationSlots
  matchId := a.matchId
  lasts := by have := a.durationPos; omega

def slots : List Int := (List.range a.durationSlots.toNat).map fun (i : Nat) => a.slotId + i

end ScheduleAssignment

namespace Plan

variable (plan : Plan)

def matchOf (id : String) : Option MatchDTO := Assoc.get id (indexById MatchDTO.id plan.games)

def playerOf (id : String) : Option PlayerDTO :=
  Assoc.get id (indexById PlayerDTO.id plan.players)

/-- `getMatchLabel`: the ordinal comes before the rank. -/
def labelOf (id : String) : String :=
  let m := plan.matchOf id
  let number := m.bind MatchDTO.matchNumber
  let rank := if number.isSome then none else m.bind MatchDTO.eventRank
  orUnknown (formatMatchIdentity plan.js (meetMatchIdentityFromStored plan.js rank number)
    ((m.map MatchDTO.id).getD id))

/-! ## Players -/

def playerPushes : List (String × Slot) :=
  plan.assignments.flatMap (fun a =>
    match plan.matchOf a.matchId with
    | none => []
    | some m => (getMatchPlayerIds m).map (fun playerId => (playerId, a.slot)))

def buildPlayerSlots : List (String × List Slot) := grouped plan.playerPushes

def byStart (slots : List Slot) : List Slot := slots.mergeSort (fun a b => a.start ≤ b.start)

def checkPlayerOverlap : List ConstraintViolation :=
  plan.buildPlayerSlots.flatMap (fun (playerId, slots) =>
    (neighbours (byStart slots)).filterMap (fun (a, b) =>
      if b.start < a.stop then
        some { type := .overlap, severity := .hard, playerIds := [playerId]
               matchIds := [a.matchId, b.matchId]
               description := "Player overlap in " ++ plan.labelOf a.matchId ++ " and " ++
                 plan.labelOf b.matchId }
      else none))

/-- The rest a player is checked for; a minimum of zero is no minimum of their own. -/
def restSlots (playerId : String) : Nat :=
  match ((plan.playerOf playerId).bind PlayerDTO.minRestMinutes).filter (fun n => n ≠ 0) with
  | some minutes => slotsOf plan.config minutes
  | none => slotsOf plan.config plan.config.defaultRestMinutes

def checkRestViolations : List ConstraintViolation :=
  plan.buildPlayerSlots.flatMap (fun (playerId, slots) =>
    (neighbours (byStart slots)).filterMap (fun (a, b) =>
      let gap := b.start - a.stop
      if gap < plan.restSlots playerId ∧ 0 ≤ gap then
        some { type := .rest, severity := .soft, playerIds := [playerId]
               matchIds := [a.matchId, b.matchId]
               description := "Rest violation: " ++ plan.labelOf a.matchId ++ " to " ++
                 plan.labelOf b.matchId ++ " (" ++ toString gap ++ "/" ++
                 toString (plan.restSlots playerId) ++ " slots)" }
      else none))

/-! ## Courts -/

def cellKey (court slot : Int) : String := toString court ++ "-" ++ toString slot

def courtPushes : List (String × String) :=
  plan.assignments.flatMap (fun a =>
    match plan.matchOf a.matchId with
    | none => []
    | some _ => a.slots.map (fun s => (cellKey a.courtId s, a.matchId)))

def checkCourtCapacity : List ConstraintViolation :=
  (grouped plan.courtPushes).filterMap (fun (key, matchIds) =>
    if 1 < matchIds.length then
      let pieces := (key.toList.splitOn '-').map String.ofList
      some { type := .courtCapacity, severity := .hard, playerIds := []
             matchIds := matchIds
             description := "Court " ++ pieces.getD 0 "" ++ " conflict: " ++
               ", ".intercalate (matchIds.map plan.labelOf) ++ " at slot " ++ pieces.getD 1 "" }
    else none)

def computeConstraintViolations : List ConstraintViolation :=
  plan.checkPlayerOverlap ++ plan.checkRestViolations ++ plan.checkCourtCapacity

/-! ## The rule -/

def playersOf (a : ScheduleAssignment) : List String :=
  match plan.matchOf a.matchId with
  | none => []
  | some m => getMatchPlayerIds m

/-- A player's minimum rest in slots: that of their own whenever it is set, else the default. -/
def minimumRest (playerId : String) : Nat :=
  slotsOf plan.config (((plan.playerOf playerId).bind PlayerDTO.minRestMinutes).getD
    plan.config.defaultRestMinutes)

end Plan

def Overlaps (a b : ScheduleAssignment) : Prop :=
  a.slotId < b.slotId + b.durationSlots ∧ b.slotId < a.slotId + a.durationSlots

instance (a b : ScheduleAssignment) : Decidable (Overlaps a b) :=
  inferInstanceAs (Decidable (_ ∧ _))

def Apart (rest : Nat) (a b : ScheduleAssignment) : Prop :=
  a.slotId + a.durationSlots + rest ≤ b.slotId ∨ b.slotId + b.durationSlots + rest ≤ a.slotId

instance (rest : Nat) (a b : ScheduleAssignment) : Decidable (Apart rest a b) :=
  inferInstanceAs (Decidable (_ ∨ _))

/-- The rule, for every two of some assignments. -/
structure Keeps (plan : Plan) (assignments : List ScheduleAssignment) : Prop where
  players : assignments.Pairwise fun a b =>
    ∀ playerId ∈ plan.playersOf a, playerId ∈ plan.playersOf b → ¬ Overlaps a b
  courts : assignments.Pairwise fun a b => a.courtId = b.courtId → ¬ Overlaps a b
  rests : assignments.Pairwise fun a b =>
    ∀ playerId ∈ plan.playersOf a, playerId ∈ plan.playersOf b →
      Apart (plan.minimumRest playerId) a b

/-! ## Keys -/

variable {n : Nat} {α : Type} {z s : Int}

theorem digit_ne_minus {c : Char} (h : c ∈ (toString n).toList) : c ≠ '-' := by
  rintro rfl
  rw [Nat.toString_eq_ofList_toDigits, String.toList_ofList] at h
  exact absurd (Nat.isDigit_of_mem_toDigits (by decide) (by decide) h) (by decide)

theorem toString_nat_inj {m : Nat} (h : (toString m).toList = (toString n).toList) : m = n := by
  simp only [Nat.toString_eq_ofList_toDigits, String.toList_ofList] at h
  rw [← Nat.ofDigitChars_toDigits (b := 10) (n := m) (by decide) (by decide), h,
    Nat.ofDigitChars_toDigits (by decide) (by decide)]

theorem append_cons_inj {x : α} {l l' r r' : List α} (plain : x ∉ l) (plain' : x ∉ l')
    (same : l ++ x :: r = l' ++ x :: r') : l = l' ∧ r = r' := by
  induction l generalizing l' with
  | nil =>
    cases l' with
    | nil => exact ⟨rfl, (List.cons.inj same).2⟩
    | cons y l' =>
      obtain ⟨rfl, -⟩ := List.cons.inj same
      exact absurd List.mem_cons_self plain'
  | cons y l ih =>
    cases l' with
    | nil =>
      obtain ⟨rfl, -⟩ := List.cons.inj same
      exact absurd List.mem_cons_self plain
    | cons y' l' =>
      obtain ⟨rfl, rest⟩ := List.cons.inj same
      rw [List.mem_cons, not_or] at plain plain'
      obtain ⟨rfl, rfl⟩ := ih plain.2 plain'.2 rest
      exact ⟨rfl, rfl⟩

theorem toList_int (z : Int) : (toString z).toList =
    if z < 0 then '-' :: (toString z.natAbs).toList else (toString z.natAbs).toList := by
  cases z with
  | ofNat n => simp [Int.toString_eq_repr, Int.repr]
  | negSucc n =>
    rw [if_pos (Int.negSucc_lt_zero n)]
    simp [Int.toString_eq_repr, Int.repr]

theorem minus_not_mem (h : ¬ z < 0) : '-' ∉ (toString z).toList := by
  rw [toList_int, if_neg h]
  exact fun mem => digit_ne_minus mem rfl

theorem toString_int_inj {y : Int} (h : (toString y).toList = (toString z).toList) : y = z := by
  by_cases low : y < 0 <;> by_cases low' : z < 0
  · rw [toList_int, if_pos low, toList_int, if_pos low'] at h
    have abs := toString_nat_inj (List.cons.inj h).2
    omega
  · have mem : '-' ∈ (toString z).toList := by
      rw [← h, toList_int, if_pos low]
      exact List.mem_cons_self
    exact absurd mem (minus_not_mem low')
  · have mem : '-' ∈ (toString y).toList := by
      rw [h, toList_int, if_pos low']
      exact List.mem_cons_self
    exact absurd mem (minus_not_mem low)
  · rw [toList_int, if_neg low, toList_int, if_neg low'] at h
    have abs := toString_nat_inj h
    omega

theorem ne_minus_cons (h : ¬ z < 0) (rest tail : List Char) :
    (toString z).toList ++ rest ≠ '-' :: tail := by
  intro same
  cases text : (toString z).toList with
  | nil =>
    rw [toList_int, if_neg h, Nat.toString_eq_ofList_toDigits, String.toList_ofList] at text
    exact Nat.toDigits_ne_nil text
  | cons d ds =>
    rw [text] at same
    obtain ⟨rfl, -⟩ := List.cons.inj same
    have mem : '-' ∈ (toString z).toList := text ▸ List.mem_cons_self
    exact minus_not_mem h mem

/-- **The key of a slot names its court and its slot.** -/
theorem cellKey_inj {c c' s' : Int} (h : Plan.cellKey c s = Plan.cellKey c' s') :
    c = c' ∧ s = s' := by
  have texts : (toString c).toList ++ '-' :: (toString s).toList =
      (toString c').toList ++ '-' :: (toString s').toList := by
    simpa [Plan.cellKey, String.toList_append] using congrArg String.toList h
  have digits : ∀ z : Int, '-' ∉ (toString z.natAbs).toList :=
    fun z mem => digit_ne_minus mem rfl
  have split : (toString c).toList = (toString c').toList ∧
      (toString s).toList = (toString s').toList := by
    by_cases low : c < 0 <;> by_cases low' : c' < 0
    · rw [toList_int c, if_pos low, toList_int c', if_pos low'] at texts ⊢
      obtain ⟨same, rest⟩ := append_cons_inj (digits c) (digits c') (List.cons.inj texts).2
      exact ⟨by rw [same], rest⟩
    · rw [toList_int c, if_pos low] at texts
      exact absurd texts.symm (ne_minus_cons low' _ _)
    · rw [toList_int c', if_pos low'] at texts
      exact absurd texts (ne_minus_cons low _ _)
    · exact append_cons_inj (minus_not_mem low) (minus_not_mem low') texts
  exact ⟨toString_int_inj split.1, toString_int_inj split.2⟩

section

variable {plan : Plan} {rest : Nat} {b : ScheduleAssignment}

/-! ## Players -/

def Before (rest : Nat) (a b : Slot) : Prop := a.stop + rest ≤ b.start

theorem Before.trans {a b c : Slot} (h : Before rest a b) (h' : Before rest b c) :
    Before rest a c := by
  have := b.lasts
  unfold Before at *
  omega

theorem filterMap_ite_nil {β : Type} {q : α → Prop} [DecidablePred q] {f : α → β} {l : List α} :
    l.filterMap (fun a => if q a then some (f a) else none) = [] ↔
      ∀ a ∈ l, ¬ q a := by
  simp [List.filterMap_eq_nil_iff]

/-- Neither check of the players finds anything exactly where everybody's slots are one after the
other with their rest between them. -/
theorem checks_nil : (plan.checkPlayerOverlap = [] ∧ plan.checkRestViolations = []) ↔
    ∀ playerId, (valuesOf plan.playerPushes playerId).Pairwise fun a b =>
      Before (plan.restSlots playerId) a b ∨ Before (plan.restSlots playerId) b a := by
  have sorted : ∀ (rest : Nat) (slots : List Slot),
      (∀ x ∈ neighbours (Plan.byStart slots), Before rest x.1 x.2) ↔
        slots.Pairwise fun a b => Before rest a b ∨ Before rest b a := by
    intro rest slots
    rw [forall_neighbours (R := Before rest), Plan.byStart]
    apply isChain_mergeSort_iff
    · exact fun h h' => Before.trans h h'
    · intro a b c h h'
      rw [decide_eq_true_eq] at *
      exact h.trans h'
    · intro a b
      simpa using le_total a.start b.start
    · intro a b h before
      rw [decide_eq_true_eq] at h
      have := b.lasts
      unfold Before at before
      omega
  have nothing : ∀ playerId, List.Pairwise (fun a b =>
      Before (plan.restSlots playerId) a b ∨ Before (plan.restSlots playerId) b a) [] :=
    fun _ => .nil
  rw [← forall_grouped nothing]
  simp only [Plan.checkPlayerOverlap, Plan.checkRestViolations, List.flatMap_eq_nil_iff,
    filterMap_ite_nil, ← forall_and, Plan.buildPlayerSlots, ← sorted]
  refine forall_congr' fun x => imp_congr_right fun _ => ?_
  refine forall_congr' fun pair => imp_congr_right fun _ => ?_
  unfold Before
  omega

theorem valuesOf_players (playerId : String) : valuesOf plan.playerPushes playerId =
    plan.assignments.flatMap fun a =>
      ((plan.playersOf a).filter (fun x => x = playerId)).map fun _ => a.slot := by
  rw [valuesOf, Plan.playerPushes, List.filter_flatMap, List.map_flatMap]
  congr 1
  funext a
  unfold Plan.playersOf
  cases plan.matchOf a.matchId with
  | none => rfl
  | some m => simp [List.filter_map, Function.comp_def]

theorem Before.irrefl (a : Slot) : ¬ Before rest a a := by
  have := a.lasts
  unfold Before
  omega

theorem before_iff {a : ScheduleAssignment} :
    (Before rest a.slot b.slot ∨ Before rest b.slot a.slot) ↔ Apart rest a b := by
  simp [Before, ScheduleAssignment.slot, Apart]

/-- The checks of the players, in terms of the assignments: nobody is listed twice in a match, and
two assignments of one player are their rest apart. -/
theorem checks_players : (plan.checkPlayerOverlap = [] ∧ plan.checkRestViolations = []) ↔
    (∀ a ∈ plan.assignments, (plan.playersOf a).Nodup) ∧
      plan.assignments.Pairwise fun a b => ∀ playerId, playerId ∈ plan.playersOf a →
        playerId ∈ plan.playersOf b → Apart (plan.restSlots playerId) a b := by
  have alone : ∀ a : ScheduleAssignment, (plan.playersOf a).Nodup ↔
      ∀ playerId, (((plan.playersOf a).filter (fun x => x = playerId)).map
        fun _ => a.slot).Pairwise fun a b => Before (plan.restSlots playerId) a b ∨
          Before (plan.restSlots playerId) b a := by
    intro a
    simp only [List.pairwise_map, List.pairwise_filter, Before.irrefl, or_self, forall_pairwise]
    refine iff_of_eq (congrArg (fun R => List.Pairwise R _) ?_)
    funext x y
    simp [eq_comm]
  rw [checks_nil, ← forall_pairwise]
  simp only [valuesOf_players, List.pairwise_flatMap, alone]
  rw [forall_and]
  refine and_congr ?_ (forall_congr' fun playerId => ?_)
  · exact ⟨fun h a ha k => h k a ha, fun h k a ha => h a ha k⟩
  · refine iff_of_eq (congrArg (fun R => List.Pairwise R _) ?_)
    funext a b
    simp [← before_iff]

/-! ## Courts -/

theorem mem_slots {a : ScheduleAssignment} :
    s ∈ a.slots ↔ a.slotId ≤ s ∧ s < a.slotId + a.durationSlots := by
  simp only [ScheduleAssignment.slots, List.mem_map, List.mem_range]
  constructor
  · rintro ⟨i, lt, rfl⟩
    omega
  · rintro ⟨le, lt⟩
    exact ⟨(s - a.slotId).toNat, by omega, by omega⟩

theorem nodup_slots (a : ScheduleAssignment) : a.slots.Nodup := by
  refine List.nodup_range.map fun i j same => ?_
  simpa using same

def Plan.known (plan : Plan) : List ScheduleAssignment :=
  plan.assignments.filter (fun a => (plan.matchOf a.matchId).isSome)

theorem valuesOf_courts (key : String) : valuesOf plan.courtPushes key =
    plan.known.flatMap fun a =>
      (a.slots.filter (fun s => Plan.cellKey a.courtId s = key)).map fun _ => a.matchId := by
  rw [valuesOf, Plan.courtPushes, Plan.known, List.filter_flatMap, List.map_flatMap]
  induction plan.assignments with
  | nil => rfl
  | cons a rest ih =>
    rw [List.flatMap_cons, ih, List.filter_cons]
    cases plan.matchOf a.matchId with
    | none => rfl
    | some m => simp [List.filter_map, Function.comp_def]

theorem checkCourtCapacity_nil : plan.checkCourtCapacity = [] ↔
    plan.known.Pairwise fun a b => a.courtId = b.courtId → ¬ Overlaps a b := by
  have free : plan.checkCourtCapacity = [] ↔
      ∀ key, (valuesOf plan.courtPushes key).length ≤ 1 := by
    rw [← forall_grouped (P := fun _ values => values.length ≤ 1) (fun _ => Nat.zero_le 1),
      Plan.checkCourtCapacity]
    simp only [filterMap_ite_nil, not_lt]
  rw [free]
  simp only [valuesOf_courts, length_le_one_iff, List.pairwise_flatMap, List.pairwise_map,
    forall_and, forall_pairwise]
  have once : ∀ key, ∀ a ∈ plan.known,
      (a.slots.filter (fun s => Plan.cellKey a.courtId s = key)).Pairwise fun _ _ => False := by
    intro key a _
    rw [List.pairwise_filter]
    apply (nodup_slots a).imp
    intro s s' ne at_key at_key'
    rw [decide_eq_true_eq] at at_key at_key'
    exact ne (cellKey_inj (at_key.trans at_key'.symm)).2
  rw [and_iff_right once]
  refine iff_of_eq (congrArg (fun R => List.Pairwise R _) ?_)
  funext a b
  apply propext
  constructor
  · rintro apart court ⟨lt, lt'⟩
    -- the later of the two starts is in both
    let s := max a.slotId b.slotId
    have here : s ∈ a.slots := mem_slots.mpr ⟨by omega, by have := a.durationPos; omega⟩
    have there : s ∈ b.slots := mem_slots.mpr ⟨by omega, by have := b.durationPos; omega⟩
    refine apart (Plan.cellKey a.courtId s) a.matchId ?_ b.matchId ?_
    · exact List.mem_map.mpr ⟨s, by simpa using here, rfl⟩
    · exact List.mem_map.mpr ⟨s, by simpa [court] using there, rfl⟩
  · intro apart key x hx y hy
    obtain ⟨s, hs, -⟩ := List.mem_map.mp hx
    obtain ⟨s', hs', -⟩ := List.mem_map.mp hy
    rw [List.mem_filter, decide_eq_true_eq, mem_slots] at hs hs'
    obtain ⟨court, rfl⟩ := cellKey_inj (hs.2.trans hs'.2.symm)
    exact apart court ⟨by omega, by omega⟩

/-! ## The checker and the rule -/

theorem mem_playersOf_known {a : ScheduleAssignment} {playerId : String}
    (h : playerId ∈ plan.playersOf a) : (plan.matchOf a.matchId).isSome := by
  unfold Plan.playersOf at h
  split at h
  · cases h
  · next found => rw [found, Option.isSome_some]

theorem computeConstraintViolations_nil : plan.computeConstraintViolations = [] ↔
    (∀ a ∈ plan.known, (plan.playersOf a).Nodup) ∧
      (plan.known.Pairwise fun a b => ∀ playerId ∈ plan.playersOf a,
        playerId ∈ plan.playersOf b → Apart (plan.restSlots playerId) a b) ∧
      plan.known.Pairwise fun a b => a.courtId = b.courtId → ¬ Overlaps a b := by
  have listed : (∀ a ∈ plan.assignments, (plan.playersOf a).Nodup) ↔
      ∀ a ∈ plan.known, (plan.playersOf a).Nodup := by
    constructor
    · exact fun h a ha => h a (List.mem_of_mem_filter ha)
    · intro h a ha
      cases found : plan.matchOf a.matchId with
      | none => simp [Plan.playersOf, found]
      | some m => exact h a (List.mem_filter.mpr ⟨ha, by simp [found]⟩)
  have two : (plan.assignments.Pairwise fun a b => ∀ playerId ∈ plan.playersOf a,
      playerId ∈ plan.playersOf b → Apart (plan.restSlots playerId) a b) ↔
        plan.known.Pairwise fun a b => ∀ playerId ∈ plan.playersOf a,
          playerId ∈ plan.playersOf b → Apart (plan.restSlots playerId) a b := by
    rw [Plan.known, List.pairwise_filter]
    refine iff_of_eq (congrArg (fun R => List.Pairwise R _) ?_)
    funext a b
    apply propext
    constructor
    · exact fun h _ _ => h
    · exact fun h playerId mem mem' =>
        h (mem_playersOf_known mem) (mem_playersOf_known mem') playerId mem mem'
  rw [Plan.computeConstraintViolations, List.append_eq_nil_iff, List.append_eq_nil_iff,
    checks_players, checkCourtCapacity_nil, listed, two, and_assoc]

theorem Apart.not_overlaps {a : ScheduleAssignment} (h : Apart rest a b) :
    ¬ Overlaps a b := by
  rintro ⟨lt, lt'⟩
  rcases h with h | h
  · omega
  · omega

/-- **The checker finds nothing exactly where the rule is kept**, by the assignments whose match is
listed, and no match of them lists a player twice. -/
theorem computeConstraintViolations_iff (plan : Plan)
    (own : ∀ playerId, (plan.playerOf playerId).bind PlayerDTO.minRestMinutes ≠ some 0) :
    plan.computeConstraintViolations = [] ↔
      Keeps plan plan.known ∧ ∀ a ∈ plan.known, (plan.playersOf a).Nodup := by
  have rest : ∀ playerId, plan.restSlots playerId = plan.minimumRest playerId := by
    intro playerId
    unfold Plan.restSlots Plan.minimumRest
    cases set_ : (plan.playerOf playerId).bind PlayerDTO.minRestMinutes with
    | none => rfl
    | some minutes =>
      have some_ : minutes ≠ 0 := fun zero => own playerId (zero ▸ set_)
      simp [Option.filter, some_]
  rw [computeConstraintViolations_nil]
  simp only [rest]
  constructor
  · rintro ⟨listed, apart, courts⟩
    refine ⟨⟨?_, courts, apart⟩, listed⟩
    exact apart.imp fun h playerId mem mem' => (h playerId mem mem').not_overlaps
  · rintro ⟨kept, listed⟩
    exact ⟨listed, kept.rests, kept.courts⟩

end

/-- A plan of half hours with an hour's rest. -/
def halfHours (assignments : List ScheduleAssignment) (games : List MatchDTO) : Plan where
  js := TrafficLight.Rehearsal.decimal
  assignments := assignments
  games := games
  players := [⟨"ann", "Ann", some 30⟩]
  config := TrafficLight.Rehearsal.day

def annTwice : Plan :=
  halfHours [⟨"a", 0, 1, 2, by decide⟩, ⟨"b", 3, 1, 1, by decide⟩]
    [{ id := "a", sideA := ["ann"] }, { id := "b", sideA := ["ann"] }]

/-- It is the rest that she has asked for. -/
theorem computeConstraintViolations_iff_ann : annTwice.computeConstraintViolations = [] := by
  have own : ∀ playerId,
      (annTwice.playerOf playerId).bind PlayerDTO.minRestMinutes ≠ some 0 := by
    intro playerId
    by_cases ann : "ann" = playerId
    · subst ann
      decide
    · simp [Plan.playerOf, annTwice, halfHours, indexById, Assoc.set, Assoc.get, ann]
  refine (computeConstraintViolations_iff annTwice own).mpr ⟨⟨?_, ?_, ?_⟩, ?_⟩
  · decide
  · decide
  · decide
  · decide

/-- Two assignments of matches that are not listed may overlap on a court. -/
theorem computeConstraintViolations_unlisted :
    ¬ ∀ plan : Plan, plan.computeConstraintViolations = [] ↔ Keeps plan plan.assignments := by
  intro always
  have kept := (always (halfHours [⟨"a", 0, 1, 2, by decide⟩, ⟨"b", 1, 1, 2, by decide⟩] [])).mp
    rfl
  have apart := (List.pairwise_pair.mp kept.courts) rfl
  exact apart ⟨by decide, by decide⟩

end Console.ConstraintChecker
