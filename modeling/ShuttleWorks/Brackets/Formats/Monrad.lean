import ShuttleWorks.Brackets.Formats.Spawn

/-! The Monrad draw: losers keep playing, in one plate over the first round's
losers or in a classification bracket for every range of positions. -/

namespace Brackets
open Lib

/-- One planned classification bracket: its range, its id and the units whose losers enter. -/
structure ClassificationPlan where
  lo : Nat
  hi : Nat
  segId : String
  entries : List PlayUnitId
  deriving DecidableEq, Repr

def classificationId (lo hi : Nat) : String := "P" ++ (toString lo ++ "_" ++ toString hi)

/-- `_plan_children`, no deeper than `fuel`. -/
def planChildren (idPrefix : String) : Nat → String → Nat → Nat → List ClassificationPlan
  | 0, _, _, _ => []
  | fuel + 1, parentSeg, lo, s =>
    (List.range (s.log2 - 1)).flatMap fun r =>
      let childSize := s >>> (r + 1)
      if childSize < 2 then []
      else
        let childLo := lo + (s >>> (r + 1))
        let childHi := lo + (s >>> r) - 1
        let childSeg := classificationId childLo childHi
        { lo := childLo, hi := childHi, segId := childSeg
          entries := (List.range childSize).map (knockoutUnitId idPrefix parentSeg r) } ::
          planChildren idPrefix fuel childSeg childLo childSize

def rangeLe (p q : ClassificationPlan) : Prop := p.lo < q.lo ∨ (p.lo = q.lo ∧ p.hi ≤ q.hi)

instance : DecidableRel rangeLe := fun _ _ => inferInstanceAs (Decidable (_ ∨ _))

/-- One classification bracket built as the next segment. -/
def addClassification (eventId : EventId) (idPrefix : String) (durationSlots : Nat)
    (built : List BuiltSegment) (plan : ClassificationPlan) : Except String (List BuiltSegment) :=
  (buildKnockout (plan.entries.map fun id => .feeder id .loser) eventId idPrefix plan.segId
    built.length durationSlots (some (plan.lo, plan.hi))).map fun units =>
      built ++ [builtSegment "monrad" plan.segId built.length (some (plan.lo, plan.hi)) units]

/-- The plate over the first round's losers, when there are two at least. -/
def addPlate (eventId : EventId) (idPrefix : String) (durationSlots : Nat)
    (main : List (List PlayUnit)) (built : List BuiltSegment) : Except String (List BuiltSegment) :=
  match main with
  | [] => .ok built
  | first :: _ =>
    if first.length < 2 then .ok built
    else
      (buildKnockout (first.map fun u => .feeder u.id .loser) eventId idPrefix "PLATE" 1
        durationSlots).map fun units => built ++ [builtSegment "monrad" "PLATE" 1 none units]

def generateMonrad (participants : List Participant) (eventId : EventId) (idPrefix : String)
    (durationSlots : Nat) (seededCount bracketSize : Option Nat) (consolation : String) :
    Except String Draw :=
  if consolation ≠ "full" ∧ consolation ≠ "plate" then
    .error ("consolation must be one of ('full', 'plate'), got '" ++ consolation ++ "'")
  else do
    let (size, seeded) ← bracketShape participants seededCount bracketSize
    let main ← buildKnockout (entrantSlots participants size) eventId idPrefix "M" 0 durationSlots
    let root := [builtSegment "monrad" "M" 0 none main]
    let built ← if consolation = "plate" then
        addPlate eventId idPrefix durationSlots main root
      else
        ((planChildren idPrefix size "M" 1 size).insertionSort rangeLe).foldlM
          (addClassification eventId idPrefix durationSlots) root
    assemble (knockoutEvent eventId "monrad" size participants.length seeded) participants built

/-! ## The recursion in closed form -/

/-- A child bracket of the bracket `segId` over `2 ^ (k + 1)` positions from `lo`. -/
structure Child where
  lo : Nat
  k : Nat
  parent : String
  round : Nat
  deriving DecidableEq, Repr

namespace Child

def hi (c : Child) : Nat := c.lo + 2 ^ (c.k + 1) - 1

def segId (c : Child) : String := classificationId c.lo c.hi

/-- The classification bracket as the generator plans it. -/
def toPlan (idPrefix : String) (c : Child) : ClassificationPlan where
  lo := c.lo
  hi := c.hi
  segId := c.segId
  entries := (List.range (2 ^ (c.k + 1))).map (knockoutUnitId idPrefix c.parent c.round)

def toKnockout (c : Child) : PlannedKnockout where
  segId := c.segId
  positions := some (c.lo, c.hi)
  k := c.k
  source := some (c.parent, c.round)

end Child

/-- The child that the losers of round `r` enter. -/
def childOf (parent : String) (lo k r : Nat) : Child where
  lo := lo + 2 ^ (k - r)
  k := k - 1 - r
  parent := parent
  round := r

def children : Nat → String → Nat → Nat → List Child
  | 0, _, _, _ => []
  | fuel + 1, parent, lo, k =>
    (List.range k).flatMap fun r =>
      childOf parent lo k r :: children fuel (childOf parent lo k r).segId (lo + 2 ^ (k - r)) (k - 1 - r)

theorem planChildren_eq (idPrefix : String) (fuel : Nat) (parent : String) (lo k : Nat) :
    planChildren idPrefix fuel parent lo (2 ^ (k + 1)) =
      (children fuel parent lo k).map (Child.toPlan idPrefix) := by
  induction fuel generalizing parent lo k with
  | zero => rfl
  | succ fuel ih =>
    rw [planChildren, children, Nat.log2_two_pow, Nat.add_sub_cancel, List.map_flatMap]
    refine congrArg List.flatten (List.map_congr_left (fun r hr => ?_))
    have hr : r < k := List.mem_range.mp hr
    have half : 2 ^ (k + 1) >>> (r + 1) = 2 ^ (k - 1 - r + 1) := by
      rw [Nat.shiftRight_eq_div_pow, Nat.pow_div (by omega) (by omega)]
      congr 1
      omega
    have full : 2 ^ (k + 1) >>> r = 2 ^ (k - 1 - r + 1) + 2 ^ (k - 1 - r + 1) := by
      rw [Nat.shiftRight_eq_div_pow, Nat.pow_div (by omega) (by omega),
        show k + 1 - r = k - 1 - r + 1 + 1 from by omega, Nat.pow_succ]
      omega
    have size : 2 ^ (k - r) = 2 ^ (k - 1 - r + 1) := by
      congr 1
      omega
    have pos : 0 < 2 ^ (k - 1 - r) := Nat.two_pow_pos _
    have two : ¬ 2 ^ (k - 1 - r + 1) < 2 := by
      rw [Nat.pow_succ]
      omega
    have top : lo + (2 ^ (k - 1 - r + 1) + 2 ^ (k - 1 - r + 1)) - 1 =
        lo + 2 ^ (k - 1 - r + 1) + 2 ^ (k - 1 - r + 1) - 1 := by omega
    simp only [half, full, if_neg two, List.map_cons, ih, top, childOf, Child.toPlan, Child.segId,
      Child.hi, size]

/-! ## Ranges -/

theorem children_range (fuel : Nat) (parent : String) (lo k : Nat) :
    ∀ c ∈ children fuel parent lo k, lo < c.lo ∧ c.lo + 2 ^ (c.k + 1) ≤ lo + 2 ^ (k + 1) := by
  induction fuel generalizing parent lo k with
  | zero => simp [children]
  | succ fuel ih =>
    intro c hc
    rw [children, List.mem_flatMap] at hc
    obtain ⟨r, hr, hc⟩ := hc
    have hr : r < k := List.mem_range.mp hr
    have pos : 0 < 2 ^ (k - r) := Nat.two_pow_pos _
    have step : 2 ^ (k - r + 1) ≤ 2 ^ (k + 1) := Nat.pow_le_pow_right (by omega) (by omega)
    have size : 2 ^ (k - 1 - r + 1) = 2 ^ (k - r) := by
      congr 1
      omega
    rw [Nat.pow_succ] at step
    rcases List.mem_cons.mp hc with rfl | hc
    · simp only [childOf, size]
      omega
    · obtain ⟨above, inside⟩ := ih _ _ _ c hc
      rw [size] at inside
      omega

theorem children_block {k r : Nat} (hr : r < k) (fuel : Nat) (parent : String) (lo : Nat) :
    ∀ c ∈ childOf parent lo k r ::
        children fuel (childOf parent lo k r).segId (lo + 2 ^ (k - r)) (k - 1 - r),
      lo + 2 ^ (k - r) ≤ c.lo ∧ c.lo < lo + 2 ^ (k - r + 1) := by
  intro c hc
  have pos : 0 < 2 ^ (k - r) := Nat.two_pow_pos _
  rw [Nat.pow_succ]
  rcases List.mem_cons.mp hc with rfl | hc
  · simp only [childOf]
    omega
  · obtain ⟨above, inside⟩ := children_range _ _ _ _ c hc
    have size : 2 ^ (k - 1 - r + 1) = 2 ^ (k - r) := by
      congr 1
      omega
    have : 0 < 2 ^ (c.k + 1) := Nat.two_pow_pos _
    omega

/-- **Every planned bracket begins at a position of its own.** -/
theorem children_nodup (fuel : Nat) (parent : String) (lo k : Nat) :
    ((children fuel parent lo k).map Child.lo).Nodup := by
  induction fuel generalizing parent lo k with
  | zero => simp [children]
  | succ fuel ih =>
    rw [children, List.map_flatMap, List.nodup_flatMap]
    constructor
    · intro r hr
      have hr : r < k := List.mem_range.mp hr
      rw [List.map_cons, List.nodup_cons]
      refine ⟨fun h => ?_, ih _ _ _⟩
      obtain ⟨c, hc, e⟩ := List.mem_map.mp h
      have := (children_range _ _ _ _ c hc).1
      simp only [childOf] at e
      omega
    · refine List.Pairwise.imp_of_mem ?_ List.pairwise_lt_range
      intro r r' hr hr' lt x hx hx'
      obtain ⟨c, hc, rfl⟩ := List.mem_map.mp hx
      obtain ⟨c', hc', e⟩ := List.mem_map.mp hx'
      have low := children_block (List.mem_range.mp hr) _ _ _ c hc
      have high := children_block (List.mem_range.mp hr') _ _ _ c' hc'
      have : 2 ^ (k - r' + 1) ≤ 2 ^ (k - r) := Nat.pow_le_pow_right (by omega) (by
        have := List.mem_range.mp hr'
        omega)
      omega

theorem children_parent (fuel : Nat) (parent : String) (lo k : Nat) :
    ∀ c ∈ children fuel parent lo k,
      (∃ r < k, c = childOf parent lo k r) ∨
        ∃ q ∈ children fuel parent lo k, ∃ r < q.k, c = childOf q.segId q.lo q.k r := by
  induction fuel generalizing parent lo k with
  | zero => simp [children]
  | succ fuel ih =>
    intro c hc
    rw [children, List.mem_flatMap] at hc
    obtain ⟨r, hr, hc⟩ := hc
    have inside : ∀ q, q ∈ childOf parent lo k r ::
        children fuel (childOf parent lo k r).segId (lo + 2 ^ (k - r)) (k - 1 - r) →
        q ∈ children (fuel + 1) parent lo k := by
      intro q hq
      rw [children, List.mem_flatMap]
      exact ⟨r, hr, hq⟩
    rcases List.mem_cons.mp hc with rfl | hc
    · exact Or.inl ⟨r, List.mem_range.mp hr, rfl⟩
    · right
      rcases ih _ _ _ c hc with ⟨r', hr', rfl⟩ | ⟨q, hq, r', hr', e⟩
      · exact ⟨_, inside _ List.mem_cons_self, r', hr', rfl⟩
      · exact ⟨q, inside q (List.mem_cons_of_mem _ hq), r', hr', e⟩

theorem children_complete {fuel : Nat} {parent : String} {lo k : Nat} (enough : k ≤ fuel) :
    ∀ c ∈ children fuel parent lo k, ∀ r < c.k,
      childOf c.segId c.lo c.k r ∈ children fuel parent lo k := by
  induction fuel generalizing parent lo k with
  | zero => simp [children]
  | succ fuel ih =>
    intro c hc r hr
    rw [children, List.mem_flatMap] at hc ⊢
    obtain ⟨t, ht, hc⟩ := hc
    have ht' : t < k := List.mem_range.mp ht
    refine ⟨t, ht, List.mem_cons_of_mem _ ?_⟩
    rcases List.mem_cons.mp hc with rfl | hc
    · simp only [childOf] at hr
      cases fuel with
      | zero => omega
      | succ fuel =>
        rw [children, List.mem_flatMap]
        exact ⟨r, List.mem_range.mpr hr, List.mem_cons_self⟩
    · exact ih (by omega) c hc r hr

theorem blocks_perm (lo k : Nat) :
    ((List.range k).flatMap fun r => List.range' (lo + 2 ^ (k - r)) (2 ^ (k - r))).Perm
      (List.range' (lo + 2) (2 ^ (k + 1) - 2)) := by
  induction k with
  | zero => exact .refl _
  | succ k ih =>
    have shift : ((List.range (k + 1)).flatMap fun r =>
        List.range' (lo + 2 ^ (k + 1 - r)) (2 ^ (k + 1 - r))) =
        List.range' (lo + 2 ^ (k + 1)) (2 ^ (k + 1)) ++
          (List.range k).flatMap fun r => List.range' (lo + 2 ^ (k - r)) (2 ^ (k - r)) := by
      rw [List.range_succ_eq_map, List.flatMap_cons, Nat.sub_zero, List.flatMap_map]
      simp only [Nat.succ_eq_add_one, Nat.add_sub_add_right]
    have pos : 0 < 2 ^ k := Nat.two_pow_pos k
    have size : 2 ^ (k + 1 + 1) - 2 = (2 ^ (k + 1) - 2) + 2 ^ (k + 1) := by
      rw [Nat.pow_succ 2 (k + 1), Nat.pow_succ]
      omega
    have top : lo + 2 ^ (k + 1) = lo + 2 + (2 ^ (k + 1) - 2) := by
      rw [Nat.pow_succ]
      omega
    rw [shift, size, ← List.range'_append_1, top]
    exact List.perm_append_comm.trans (ih.append_right _)

/-- **The finals of a bracket's descendants decide the positions from its third on.** -/
theorem children_positions {fuel : Nat} {parent : String} {lo k : Nat} (enough : k ≤ fuel) :
    ((children fuel parent lo k).flatMap fun c => [c.lo, c.lo + 1]).Perm
      (List.range' (lo + 2) (2 ^ (k + 1) - 2)) := by
  induction fuel generalizing parent lo k with
  | zero =>
    obtain rfl : k = 0 := by omega
    exact .refl _
  | succ fuel ih =>
    rw [children, List.flatMap_assoc]
    refine List.Perm.trans ?_ (blocks_perm lo k)
    refine List.Perm.flatMap_left _ fun r hr => ?_
    have hr : r < k := List.mem_range.mp hr
    have pos : 0 < 2 ^ (k - 1 - r) := Nat.two_pow_pos _
    have size : 2 ^ (k - r) = 2 + (2 ^ (k - 1 - r + 1) - 2) := by
      rw [show k - r = k - 1 - r + 1 from by omega, Nat.pow_succ]
      omega
    have rest := @ih (childOf parent lo k r).segId (lo + 2 ^ (k - r)) (k - 1 - r) (by omega)
    have block : ∀ a, List.range' a (2 ^ (k - r)) =
        [a, a + 1] ++ List.range' (a + 2) (2 ^ (k - 1 - r + 1) - 2) := by
      intro a
      rw [size, ← List.range'_append_1]
      rfl
    rw [List.flatMap_cons, block]
    exact (List.Perm.refl [lo + 2 ^ (k - r), lo + 2 ^ (k - r) + 1]).append rest

/-! ## Ids of classification brackets -/

theorem classificationId_inj {lo hi lo' hi' : Nat}
    (e : classificationId lo hi = classificationId lo' hi') : lo = lo' ∧ hi = hi' := by
  have lists := congrArg String.toList ((String.append_right_inj _).mp e)
  simp only [String.toList_append, toList_toString] at lists
  have line : "_".toList = ['_'] := rfl
  simp only [line, List.append_assoc, List.singleton_append] at lists
  obtain ⟨h, h'⟩ := append_cons_inj Nat.underscore_not_in_toDigits Nat.underscore_not_in_toDigits
    lists
  have read := fun (l m : List Char) (e : l = m) => congrArg (fun l => Nat.ofDigitChars 10 l 0) e
  exact ⟨by simpa only [Nat.ofDigitChars_ten_toDigits] using read _ _ h,
    by simpa only [Nat.ofDigitChars_ten_toDigits] using read _ _ h'⟩

theorem dashFree_classificationId (lo hi : Nat) : DashFree (classificationId lo hi) := by
  intro h
  simp only [classificationId, String.toList_append, List.mem_append] at h
  rcases h with h | (h | h) | h
  · exact absurd h (by decide)
  · exact dashFree_toString lo h
  · exact absurd h (by decide)
  · exact dashFree_toString hi h

theorem classificationId_ne_main (lo hi : Nat) : classificationId lo hi ≠ "M" := by
  intro e
  have head := congrArg (fun s => s.toList.head?) e
  simp [classificationId, String.toList_append] at head

/-! ## The plan of a Monrad draw -/

/-- What all knockouts of a Monrad draw share. -/
def monradDraw (participants : List Participant) (size : Nat) (eventId : EventId)
    (idPrefix : String) (durationSlots : Nat) : KnockoutDraw where
  formatId := "monrad"
  idPrefix := idPrefix
  eventId := eventId
  durationSlots := durationSlots
  entrants := entrantSlots participants size

def mainKnockout (k : Nat) : PlannedKnockout := { segId := "M", k := k }

def sortedChildren (k : Nat) : List Child :=
  (children (2 ^ (k + 1)) "M" 1 k).insertionSort fun c c' =>
    c.lo < c'.lo ∨ (c.lo = c'.lo ∧ c.hi ≤ c'.hi)

def fullPlan (k : Nat) : List PlannedKnockout :=
  mainKnockout k :: (sortedChildren k).map Child.toKnockout

def platePlan (k : Nat) : List PlannedKnockout :=
  if k = 0 then [mainKnockout k]
  else [mainKnockout k, { segId := "PLATE", k := k - 1, source := some ("M", 0) }]

theorem platePlan_spawns (participants : List Participant) (k : Nat) (eventId : EventId)
    (idPrefix : String) (durationSlots : Nat) :
    SpawnPlan (monradDraw participants (2 ^ (k + 1)) eventId idPrefix durationSlots)
      (platePlan k) := by
  have main : DashFree "M" ∧ positionsOfId "M" = none := by decide
  have plate : DashFree "PLATE" ∧ positionsOfId "PLATE" = none := by decide
  have length := length_entrantSlots participants (2 ^ (k + 1))
  unfold platePlan
  split
  · exact SpawnPlan.single (entrantSlots_participants _ _) length main.1 main.2
  · next hk =>
    refine ⟨by simp, entrantSlots_participants _ _, ?_, ?_, ?_, by simp [mainKnockout], ?_, ?_⟩
    · intro i p hi hs
      have := List.mem_of_getElem? hi
      simp only [List.mem_cons, List.not_mem_nil, or_false] at this
      rcases this with rfl | rfl
      · exact length
      · cases hs
    · intro i p hi segId r hs
      match i, hi with
      | 0, hi =>
        cases hi
        cases hs
      | 1, hi =>
        cases hi
        cases hs
        exact ⟨0, by omega, mainKnockout k, rfl, rfl, by simp only [mainKnockout]; omega⟩
    · intro p hp q hq same
      simp only [List.mem_cons, List.not_mem_nil, or_false] at hp hq
      rcases hp with rfl | rfl <;> rcases hq with rfl | rfl
      · rfl
      · cases same
      · cases same
      · rfl
    · intro p hp
      simp only [List.mem_cons, List.not_mem_nil, or_false] at hp
      rcases hp with rfl | rfl
      · exact main.1
      · exact plate.1
    · intro p hp
      simp only [List.mem_cons, List.not_mem_nil, or_false] at hp
      rcases hp with rfl | rfl
      · exact main.2
      · exact plate.2

theorem mem_sortedChildren {k : Nat} {c : Child} :
    c ∈ sortedChildren k ↔ c ∈ children (2 ^ (k + 1)) "M" 1 k :=
  List.mem_insertionSort _

theorem children_once {k : Nat} {c c' : Child} (hc : c ∈ sortedChildren k)
    (hc' : c' ∈ sortedChildren k) (parent : c.parent = c'.parent) (round : c.round = c'.round) :
    c = c' := by
  have distinct := children_nodup (2 ^ (k + 1)) "M" 1 k
  have same : ∀ {q q'}, q ∈ children (2 ^ (k + 1)) "M" 1 k → q' ∈ children (2 ^ (k + 1)) "M" 1 k →
      q.segId = q'.segId → q = q' := fun hq hq' e =>
    List.inj_on_of_nodup_map distinct hq hq' (classificationId_inj e).1
  rcases children_parent _ _ _ _ c (mem_sortedChildren.mp hc) with
    ⟨r, hr, rfl⟩ | ⟨q, hq, r, hr, rfl⟩ <;>
  rcases children_parent _ _ _ _ c' (mem_sortedChildren.mp hc') with
    ⟨r', hr', rfl⟩ | ⟨q', hq', r', hr', rfl⟩
  · cases round
    rfl
  · exact absurd parent.symm (classificationId_ne_main _ _)
  · exact absurd parent (classificationId_ne_main _ _)
  · obtain rfl := same hq hq' parent
    cases round
    rfl

theorem index_lt {k : Nat} {c q : Child} {i j : Nat} (hi : (sortedChildren k)[i]? = some c)
    (hj : (sortedChildren k)[j]? = some q) (lt : q.lo < c.lo) : j < i := by
  have sorted : (sortedChildren k).Pairwise
      fun c c' => c.lo < c'.lo ∨ (c.lo = c'.lo ∧ c.hi ≤ c'.hi) := by
    have : Std.Total fun c c' : Child => c.lo < c'.lo ∨ (c.lo = c'.lo ∧ c.hi ≤ c'.hi) :=
      ⟨fun c c' => by omega⟩
    have : IsTrans Child fun c c' => c.lo < c'.lo ∨ (c.lo = c'.lo ∧ c.hi ≤ c'.hi) :=
      ⟨fun c c' c'' h h' => by omega⟩
    exact List.pairwise_insertionSort _ _
  by_contra h
  obtain ⟨hi', ei⟩ := List.getElem?_eq_some_iff.mp hi
  obtain ⟨hj', ej⟩ := List.getElem?_eq_some_iff.mp hj
  rcases Nat.lt_or_ge i j with hlt | hge
  · have := List.pairwise_iff_getElem.mp sorted i j hi' hj' hlt
    rw [ei, ej] at this
    omega
  · have : i = j := by omega
    subst this
    rw [hi] at hj
    cases hj
    omega

theorem fullPlan_spawns (participants : List Participant) (k : Nat) (eventId : EventId)
    (idPrefix : String) (durationSlots : Nat) :
    SpawnPlan (monradDraw participants (2 ^ (k + 1)) eventId idPrefix durationSlots)
      (fullPlan k) := by
  have main : DashFree "M" ∧ positionsOfId "M" = none := by decide
  have member : ∀ {p}, p ∈ fullPlan k → p = mainKnockout k ∨ ∃ c ∈ sortedChildren k,
      c.toKnockout = p := by
    intro p hp
    rcases List.mem_cons.mp hp with rfl | hp
    · exact Or.inl rfl
    · exact Or.inr (List.mem_map.mp hp)
  refine ⟨by simp [fullPlan], entrantSlots_participants _ _, ?_, ?_, ?_, ?_, ?_, ?_⟩
  · intro i p hi hs
    rcases member (List.mem_of_getElem? hi) with rfl | ⟨c, -, rfl⟩
    · exact length_entrantSlots participants (2 ^ (k + 1))
    · cases hs
  · intro i p hi segId r hs
    cases i with
    | zero =>
      cases hi
      cases hs
    | succ i =>
      rw [fullPlan, List.getElem?_cons_succ, List.getElem?_map, Option.map_eq_some_iff] at hi
      obtain ⟨c, hi, rfl⟩ := hi
      cases hs
      have hc := mem_sortedChildren.mp (List.mem_of_getElem? hi)
      rcases children_parent _ _ _ _ c hc with ⟨r, hr, rfl⟩ | ⟨q, hq, r, hr, rfl⟩
      · refine ⟨0, by omega, mainKnockout k, rfl, rfl, ?_⟩
        simp only [mainKnockout, Child.toKnockout, childOf]
        omega
      · obtain ⟨j, hj⟩ := List.getElem?_of_mem (mem_sortedChildren.mpr hq)
        have before : j < i := index_lt hi hj (by
          have : 0 < 2 ^ (q.k - r) := Nat.two_pow_pos _
          simp only [childOf]
          omega)
        refine ⟨j + 1, by omega, q.toKnockout, ?_, rfl, ?_⟩
        · rw [fullPlan, List.getElem?_cons_succ, List.getElem?_map, hj]
          rfl
        · simp only [Child.toKnockout, childOf]
          omega
  · intro p hp q hq same
    rcases member hp with rfl | ⟨c, hc, rfl⟩ <;> rcases member hq with rfl | ⟨c', hc', rfl⟩
    · rfl
    · cases same
    · cases same
    have e := Option.some.inj same
    rw [children_once hc hc' (congrArg Prod.fst e) (congrArg Prod.snd e)]
  · rw [fullPlan, List.map_cons, List.nodup_cons, List.map_map]
    constructor
    · intro h
      obtain ⟨c, -, e⟩ := List.mem_map.mp h
      exact classificationId_ne_main _ _ e
    · have distinct : ((sortedChildren k).map Child.lo).Nodup :=
        ((List.perm_insertionSort _ _).map Child.lo).nodup_iff.mpr (children_nodup _ _ _ _)
      refine List.Nodup.of_map (fun s => s) ?_
      rw [List.map_map]
      refine List.pairwise_map.mpr ((List.pairwise_map.mp distinct).imp ?_)
      intro c c' hne e
      exact hne (classificationId_inj e).1
  · intro p hp
    rcases member hp with rfl | ⟨c, -, rfl⟩
    · exact main.1
    · exact dashFree_classificationId _ _
  · intro p hp
    rcases member hp with rfl | ⟨c, -, rfl⟩
    · exact main.2
    · rfl

/-! ## What the generator builds -/

theorem foldlM_addClassification {participants : List Participant} {size : Nat}
    {eventId : EventId} {idPrefix : String} {durationSlots : Nat} (cs : List Child)
    (plan : List PlannedKnockout) :
    (cs.map (Child.toPlan idPrefix)).foldlM (addClassification eventId idPrefix durationSlots)
        (plan.mapIdx (monradDraw participants size eventId idPrefix durationSlots).built) =
      .ok ((plan ++ cs.map Child.toKnockout).mapIdx
        (monradDraw participants size eventId idPrefix durationSlots).built) := by
  induction cs generalizing plan with
  | nil =>
    simp only [List.map_nil, List.append_nil]
    rfl
  | cons c cs ih =>
    have entries : (c.toPlan idPrefix).entries.map (fun id => BracketSlot.feeder id .loser) =
        KnockoutDraw.losers idPrefix c.parent c.round (2 ^ (c.k + 1)) := by
      rw [Child.toPlan, List.map_map]
      rfl
    have len : (KnockoutDraw.losers idPrefix c.parent c.round (2 ^ (c.k + 1))).length =
        2 ^ (c.k + 1) := by
      simp [KnockoutDraw.losers]
    have step : addClassification eventId idPrefix durationSlots
        (plan.mapIdx (monradDraw participants size eventId idPrefix durationSlots).built)
          (c.toPlan idPrefix) =
        .ok ((plan ++ [c.toKnockout]).mapIdx
          (monradDraw participants size eventId idPrefix durationSlots).built) := by
      rw [addClassification, entries, buildKnockout_eq len, List.mapIdx_append]
      simp only [List.length_mapIdx, List.mapIdx_cons, List.mapIdx_nil, Nat.zero_add]
      rfl
    rw [List.map_cons, List.foldlM_cons, step, ok_bind, ih, List.map_cons, List.append_assoc]
    rfl

theorem insertionSort_toPlan (idPrefix : String) (cs : List Child) :
    (cs.map (Child.toPlan idPrefix)).insertionSort rangeLe =
      (cs.insertionSort fun c c' => c.lo < c'.lo ∨ (c.lo = c'.lo ∧ c.hi ≤ c'.hi)).map
        (Child.toPlan idPrefix) := by
  exact (List.map_insertionSort _ rangeLe (Child.toPlan idPrefix) cs
    (fun _ _ _ _ => Iff.rfl)).symm

/-- **A Monrad draw is laid out by its plan.** -/
theorem generateMonrad_ok {participants : List Participant} {eventId : EventId}
    {idPrefix : String} {durationSlots : Nat} {seededCount bracketSize : Option Nat}
    {consolation : String} {d : Draw}
    (h : generateMonrad participants eventId idPrefix durationSlots seededCount bracketSize
      consolation = .ok d) :
    ∃ size seeded k plan, size = 2 ^ (k + 1) ∧
      bracketShape participants seededCount bracketSize = .ok (size, seeded) ∧
      plan = (if consolation = "plate" then platePlan k else fullPlan k) ∧
      SpawnPlan (monradDraw participants size eventId idPrefix durationSlots) plan ∧
      assemble (knockoutEvent eventId "monrad" size participants.length seeded) participants
        (plan.mapIdx (monradDraw participants size eventId idPrefix durationSlots).built) =
          .ok d := by
  unfold generateMonrad at h
  split at h
  · cases h
  obtain ⟨⟨size, seeded⟩, hs, h⟩ := bind_eq_ok.mp h
  obtain ⟨⟨k, rfl⟩, -, -, -⟩ := bracketShape_ok hs
  dsimp only at h
  rw [buildKnockout_eq (length_entrantSlots participants (2 ^ (k + 1))), ok_bind] at h
  have root : [builtSegment "monrad" "M" 0 none
      ((segmentCascade eventId idPrefix "M" 0 durationSlots none).rounds
        (entrantSlots participants (2 ^ (k + 1))))] =
      [mainKnockout k].mapIdx
        (monradDraw participants (2 ^ (k + 1)) eventId idPrefix durationSlots).built := rfl
  by_cases plate : consolation = "plate"
  · rw [if_pos plate] at h
    obtain ⟨built, hb, h⟩ := bind_eq_ok.mp h
    have len : (KnockoutDraw.losers idPrefix "M" 0 (2 ^ k)).length = 2 ^ k := by
      simp [KnockoutDraw.losers]
    have first : (segmentCascade eventId idPrefix "M" 0 durationSlots none).firstRound
        (entrantSlots participants (2 ^ (k + 1))) =
        (List.range (2 ^ k)).map ((segmentCascade eventId idPrefix "M" 0 durationSlots none).unitAt
          (fun i => (entrantSlots participants (2 ^ (k + 1))).getD i (.participant BYE)) 0) := by
      have rounds := Cascade.rounds_eq (segmentCascade eventId idPrefix "M" 0 durationSlots none)
        (length_entrantSlots participants (2 ^ (k + 1))) (.participant BYE)
      rw [Cascade.rounds, List.range_succ_eq_map, List.map_cons] at rounds
      exact (List.cons.inj rounds).1
    refine ⟨2 ^ (k + 1), seeded, k, platePlan k, rfl, hs, (if_pos plate).symm,
      platePlan_spawns _ _ _ _ _, ?_⟩
    have : built = (platePlan k).mapIdx
        (monradDraw participants (2 ^ (k + 1)) eventId idPrefix durationSlots).built := by
      rw [Cascade.rounds, addPlate, first, List.length_map, List.length_range] at hb
      unfold platePlan
      by_cases hk : k = 0
      · subst hk
        rw [if_pos (by decide)] at hb
        cases hb
        rw [if_pos rfl, ← root, Cascade.rounds, first]
      · obtain ⟨j, rfl⟩ : ∃ j, k = j + 1 := ⟨k - 1, by omega⟩
        have many : ¬ 2 ^ (j + 1) < 2 := by
          have : 0 < 2 ^ j := Nat.two_pow_pos _
          rw [Nat.pow_succ]
          omega
        have entries : ((List.range (2 ^ (j + 1))).map
            ((segmentCascade eventId idPrefix "M" 0 durationSlots none).unitAt
              (fun i => (entrantSlots participants (2 ^ (j + 1 + 1))).getD i
                (.participant BYE)) 0)).map (fun u => BracketSlot.feeder u.id .loser) =
            KnockoutDraw.losers idPrefix "M" 0 (2 ^ (j + 1)) := by
          rw [List.map_map, KnockoutDraw.losers]
          exact List.map_congr_left (fun m _ => congrArg (BracketSlot.feeder · .loser)
            (Cascade.unitAt_id _ _ _ _))
        rw [if_neg many, entries, buildKnockout_eq len] at hb
        cases hb
        rw [if_neg hk]
        rw [← first]
        rfl
    rw [← this]
    exact h
  · rw [if_neg plate, planChildren_eq, insertionSort_toPlan, root, foldlM_addClassification,
      ok_bind] at h
    exact ⟨2 ^ (k + 1), seeded, k, fullPlan k, rfl, hs, (if_neg plate).symm,
      fullPlan_spawns _ _ _ _ _, h⟩

end Brackets
