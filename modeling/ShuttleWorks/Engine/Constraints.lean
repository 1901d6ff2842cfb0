import ShuttleWorks.Engine.CourtPool

/-! The posted constraints, plugin by plugin, as conditions on the values the solver gives
the start and the court of every match. Of the objective only the range of its disruption
variables is kept; its other variables have room for every schedule within the day. -/

namespace Engine
open Lib

/-- The values of the decision variables. -/
structure Values where
  start : String → Int
  court : String → Int

def Values.span (v : Values) (m : Match) : Span := ⟨v.start m.id, v.start m.id + m.durationSlots⟩

/-- The slots from the first one up to `n`. -/
def slotRange (n : Int) : List Int := (List.range n.toNat).map fun (i : Nat) => (i : Int)

variable {t : Int}

@[simp] theorem mem_slotRange {n : Int} : t ∈ slotRange n ↔ 0 ≤ t ∧ t < n := by
  simp only [slotRange, List.mem_map, List.mem_range]
  constructor
  · rintro ⟨i, hi, rfl⟩
    omega
  · rintro ⟨lower, upper⟩
    exact ⟨t.toNat, by omega, by omega⟩

def coversRange (windows : List (Int × Int)) (a : Span) : Prop :=
  ∃ w ∈ windows, w.1 ≤ a.start ∧ a.stop ≤ w.2

instance (windows : List (Int × Int)) (a : Span) : Decidable (coversRange windows a) :=
  inferInstanceAs (Decidable (∃ w ∈ windows, _))

def inWindow (a : Span) (first last : Int) : Prop := a.start < last ∧ first < a.stop

instance (a : Span) (first last : Int) : Decidable (inWindow a first last) :=
  inferInstanceAs (Decidable (_ ∧ _))

namespace Scheduler

/-- `_allowed_starts`: the slots where the match fits the windows of everybody in it and no
break; `none` where nothing restricts it. -/
def allowedStarts (s : Scheduler) (m : Match) : Option (List Int) :=
  let maxStart := s.config.totalSlots - m.durationSlots
  if maxStart < 0 then some []
  else
    let windows := (m.playerIds.filterMap s.players.get).filterMap fun player =>
      if player.availability = [] then none else some player.availability
    if windows = [] ∧ s.config.breakSlots = [] then none
    else
      some ((slotRange (maxStart + 1)).filter fun t =>
        (∀ w ∈ windows, coversRange w ⟨t, t + m.durationSlots⟩) ∧
          ∀ b ∈ s.config.breakSlots, ¬ inWindow ⟨t, t + m.durationSlots⟩ b.1 b.2)

theorem mem_allowedStarts {s : Scheduler} {m : Match} {allowed : List Int}
    (h : s.allowedStarts m = some allowed) (ht : t ∈ allowed) :
    (∀ id ∈ m.playerIds, ∀ player ∈ s.players.get id, player.availability ≠ [] →
      coversRange player.availability ⟨t, t + m.durationSlots⟩) ∧
    ∀ b ∈ s.config.breakSlots, ¬ inWindow ⟨t, t + m.durationSlots⟩ b.1 b.2 := by
  unfold allowedStarts at h
  dsimp only at h
  split at h
  · cases h
    simp at ht
  · split at h
    · simp at h
    · cases h
      obtain ⟨-, ht⟩ := List.mem_filter.mp ht
      obtain ⟨covered, breaks⟩ := of_decide_eq_true ht
      refine ⟨fun id hid player hp some => covered _ ?_, breaks⟩
      refine List.mem_filterMap.mpr ⟨player, List.mem_filterMap.mpr ⟨id, hid, hp⟩, ?_⟩
      rw [if_neg some]

variable (s : Scheduler) (v : Values)

/-! ## One plugin after the other -/

def StartsInDay : Prop := ∀ m ∈ s.games.rows,
  0 ≤ v.start m.id ∧ v.start m.id ≤ max (s.config.totalSlots - m.durationSlots) 0 ∧
    (v.span m).stop ≤ s.config.totalSlots

def CourtsInRange : Prop := ∀ m ∈ s.games.rows, m.id ∉ s.planPool.pooled →
  v.court m.id ∈ s.courts

def CourtClosures : Prop := ∀ m ∈ s.games.rows, ∀ w ∈ s.closureWindows,
  v.court m.id = w.1 → (v.span m).stop ≤ w.2.1 ∨ w.2.2 ≤ v.start m.id

/-- `CourtCapacity`: matches with a court of their own do not overlap on it, and no more
pooled matches are under way than the pool has courts. -/
def CourtCapacity : Prop :=
  (∀ m ∈ s.games.rows, ∀ n ∈ s.games.rows, m.id ≠ n.id → m.id ∉ s.planPool.pooled →
    n.id ∉ s.planPool.pooled → v.court m.id = v.court n.id → (v.span m).Apart (v.span n)) ∧
  ∀ t, (s.games.rows.filter fun m => m.id ∈ s.planPool.pooled ∧ (v.span m).Holds t).length ≤
    s.planPool.poolCourts.length

def OnShared (P : Match → Match → String → Prop) : Prop := ∀ m ∈ s.games.rows, ∀ n ∈ s.games.rows,
  m.id ≠ n.id → ∀ id ∈ m.playerIds, id ∈ n.playerIds → P m n id

theorem onShared_of_apart {s : Scheduler} (apart : ∀ m ∈ s.games.rows, ∀ n ∈ s.games.rows,
    m.id ≠ n.id → ∀ id ∈ m.playerIds, id ∉ n.playerIds) (P : Match → Match → String → Prop) :
    s.OnShared P :=
  fun m hm n hn ne id hid hid' => absurd hid' (apart m hm n hn ne id hid)

/-- `PlayerNoOverlap`; where players may overlap it only adds to the objective. -/
def PlayerNoOverlap : Prop := s.config.allowPlayerOverlap = false →
  s.OnShared fun m n _ => (v.span m).Apart (v.span n)

def Availability : Prop := ∀ m ∈ s.games.rows, ∀ allowed ∈ s.allowedStarts m, v.start m.id ∈ allowed

def Stays (prev : PreviousAssignment) : Prop :=
  v.start prev.matchId = prev.slotId ∧ v.court prev.matchId = prev.courtId

instance (prev : PreviousAssignment) : Decidable (Stays v prev) :=
  inferInstanceAs (Decidable (_ ∧ _))

/-- `LocksAndPins`: a lock outside the day or the courts leaves no schedule. -/
def LocksAndPins : Prop := ∀ prev ∈ s.previousAssignments.rows, ∀ m ∈ s.games.get prev.matchId,
  if prev.locked then
    (0 ≤ prev.slotId ∧ prev.slotId ≤ s.config.totalSlots - m.durationSlots ∧
      prev.courtId ∈ s.courts) ∧ Stays v prev
  else
    (∀ t ∈ prev.pinnedSlotId, v.start prev.matchId = t) ∧
      ∀ c ∈ prev.pinnedCourtId, v.court prev.matchId = c

/-- `_add_locked_constraints`, on the matches that have a court of their own. -/
def LockedConstraints : Prop := ∀ lock ∈ s.lockedAssignments, s.games.Has lock.matchId →
  lock.matchId ∉ s.planPool.pooled →
    v.court lock.matchId = lock.courtId ∧ v.start lock.matchId = lock.timeSlot

def FreezeHorizon : Prop := s.config.currentSlot < s.cutoff →
  ∀ prev ∈ s.previousAssignments.rows, s.games.Has prev.matchId → prev.locked = false →
    prev.slotId < s.cutoff → Stays v prev

/-- `b` starts when `a` has ended and `gap` slots have gone by. -/
def Follows (a b : Span) (gap : Int) : Prop := a.stop + gap ≤ b.start

/-- `RestBetweenMatches`: a player without an entry rests by default. -/
def RestBetweenMatches : Prop := s.OnShared fun m n id =>
  let player := s.players.get id
  let rest := (player.map Player.restSlots).getD s.config.defaultRestSlots
  if (player.map Player.restIsHard).getD true ∨ s.config.softRestEnabled = false then
    Follows (v.span m) (v.span n) rest ∨ Follows (v.span n) (v.span m) rest
  else ∃ slack, 0 ≤ slack ∧ slack ≤ rest ∧
    (Follows (v.span m) (v.span n) (rest - slack) ∨ Follows (v.span n) (v.span m) (rest - slack))

/-- The slacks of the spacing between two matches, the second one after the first. -/
def Spaced (a b : Span) : Prop :=
  Follows a b 0 ∧
    (∀ least ∈ s.config.minGameSpacingSlots, ∃ slack, 0 ≤ slack ∧ slack ≤ least ∧
      least ≤ b.start - a.stop + slack) ∧
    ∀ most ∈ s.config.maxGameSpacingSlots, ∃ slack, 0 ≤ slack ∧ slack ≤ s.config.totalSlots ∧
      b.start - a.stop - slack ≤ most

def GameProximity : Prop := s.config.enableGameProximity = true →
  s.config.minGameSpacingSlots.isSome ∨ s.config.maxGameSpacingSlots.isSome →
    s.OnShared fun m n _ => s.Spaced (v.span m) (v.span n) ∨ s.Spaced (v.span n) (v.span m)

/-- The objective's `disrupt_` variables range up to `total_slots`: no match that has a place and is
not locked can start further from it. Every configuration has a positive penalty. -/
def Disruption : Prop := ∀ prev ∈ s.previousAssignments.rows, s.games.Has prev.matchId →
  prev.matchId ∉ s.lockedMatches →
    v.start prev.matchId - prev.slotId ≤ s.config.totalSlots ∧
      prev.slotId - v.start prev.matchId ≤ s.config.totalSlots

/-- The values satisfy every posted constraint. -/
structure Satisfies : Prop where
  startsInDay : s.StartsInDay v
  courtsInRange : s.CourtsInRange v
  courtClosures : s.CourtClosures v
  courtCapacity : s.CourtCapacity v
  playerNoOverlap : s.PlayerNoOverlap v
  availability : s.Availability v
  locksAndPins : s.LocksAndPins v
  freezeHorizon : s.FreezeHorizon v
  restBetweenMatches : s.RestBetweenMatches v
  gameProximity : s.GameProximity v
  lockedConstraints : s.LockedConstraints v
  disruption : s.Disruption v

end Scheduler

end Engine
