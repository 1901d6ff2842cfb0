import ShuttleWorks.Engine.Constraints

/-! The greedy backend. Locked and frozen matches are pinned where they stood, without a
look at what is there; every other match then takes the first place that a table of taken
cells and the players' windows leave it. Breaks, closed courts, rest and the request's
other locks are not looked at. -/

namespace Engine
open Lib

section

/-- `_player_ids`: everybody on a side; it is only asked who is in it. -/
def Match.everybody (m : Match) : List String := m.sideA ++ m.sideB

/-- A place with the place the match comes from. -/
structure Rescheduled extends Assignment where
  moved : Bool := false
  previousSlotId : Option Int := none
  previousCourtId : Option Int := none
  deriving DecidableEq, Repr

def slotsFrom (slot : Int) (duration : Nat) : List Int :=
  (List.range duration).map fun (i : Nat) => slot + i

def occupies (slot court : Int) (duration : Nat) : List (Int × Int) :=
  (slotsFrom slot duration).map fun t => (t, court)

def Rescheduled.cells (a : Rescheduled) : List (Int × Int) :=
  occupies a.slotId a.courtId a.durationSlots

@[simp] theorem mem_slotsFrom {t slot : Int} {duration : Nat} :
    t ∈ slotsFrom slot duration ↔ (Span.mk slot (slot + duration)).Holds t := by
  simp only [slotsFrom, List.mem_map, List.mem_range, Span.Holds]
  constructor
  · rintro ⟨i, hi, rfl⟩
    omega
  · rintro ⟨lower, upper⟩
    exact ⟨(t - slot).toNat, by omega, by omega⟩

@[simp] theorem mem_occupies {t slot court c : Int} {duration : Nat} :
    (t, c) ∈ occupies slot court duration ↔
      c = court ∧ (Span.mk slot (slot + duration)).Holds t := by
  rw [occupies, List.mem_map]
  constructor
  · rintro ⟨t', ht, e⟩
    cases e
    exact ⟨rfl, mem_slotsFrom.mp ht⟩
  · rintro ⟨rfl, ht⟩
    exact ⟨t, mem_slotsFrom.mpr ht, rfl⟩

/-- Cells by slot and court, and the match that is on each. -/
abbrev Board := List ((Int × Int) × String)

/-- What the placer looks things up in. -/
structure GreedyPlacer where
  matchesById : Table Match.id
  playersById : Table Player.id
  totalSlots : Int
  courtCount : Int

/-- What the placer writes. -/
structure GreedyState where
  slotCourtToMatch : Board := []
  assignments : Table (fun a : Rescheduled => a.matchId) := .empty
  movedCount : Nat := 0

namespace GreedyPlacer

variable (p : GreedyPlacer)

def courts : List Int := (slotRange p.courtCount).map (· + 1)

/-- `_player_busy`: an empty id counts as nobody. -/
def playerBusy (board : Board) (pid : String) (slot : Int) (duration : Nat) : Prop :=
  ∃ t ∈ slotsFrom slot duration, ∃ c ∈ p.courts, ∃ mid ∈ Assoc.get (t, c) board,
    mid ≠ "" ∧ ∃ m ∈ p.matchesById.get mid, pid ∈ m.everybody

/-- `_available`: one window takes all of the slots, or nothing is known of the player. -/
def available (pid : String) (slot : Int) (duration : Nat) : Prop :=
  ∀ player ∈ p.playersById.get pid, player.availability ≠ [] →
    ∃ w ∈ player.availability, ∀ t ∈ slotsFrom slot duration, w.1 ≤ t ∧ t < w.2

instance (board : Board) (pid : String) (slot : Int) (duration : Nat) :
    Decidable (p.playerBusy board pid slot duration) :=
  inferInstanceAs (Decidable (∃ t ∈ slotsFrom slot duration, _))

instance (pid : String) (slot : Int) (duration : Nat) : Decidable (p.available pid slot duration) :=
  inferInstanceAs (Decidable (∀ player ∈ p.playersById.get pid, _ → _))

def feasible (board : Board) (m : Match) (slot court : Int) : Prop :=
  slot + m.durationSlots ≤ p.totalSlots ∧
    (∀ cell ∈ occupies slot court m.durationSlots, Assoc.get cell board = none) ∧
    ∀ pid ∈ m.everybody, ¬ p.playerBusy board pid slot m.durationSlots ∧
      p.available pid slot m.durationSlots

instance (board : Board) (m : Match) (slot court : Int) :
    Decidable (p.feasible board m slot court) :=
  inferInstanceAs (Decidable (_ ∧ _ ∧ _))

end GreedyPlacer

def GreedyState.enter (s : GreedyState) (a : Rescheduled) : GreedyState :=
  { s with
    assignments := s.assignments.put a
    slotCourtToMatch := occupy a.matchId a.cells s.slotCourtToMatch }

def Match.pinnedAt (m : Match) (prev : PreviousAssignment) : Rescheduled where
  matchId := m.id
  slotId := prev.slotId
  courtId := prev.courtId
  durationSlots := m.durationSlots

/-- The match at a new place. -/
def Match.placedAt (m : Match) (prev : Option PreviousAssignment) (slot court : Int) :
    Rescheduled where
  matchId := m.id
  slotId := slot
  courtId := court
  durationSlots := m.durationSlots
  moved := prev.any fun prev => prev.slotId ≠ slot ∨ prev.courtId ≠ court
  previousSlotId := prev.map PreviousAssignment.slotId
  previousCourtId := prev.map PreviousAssignment.courtId

namespace GreedyPlacer

variable (p : GreedyPlacer)

/-- `pin_locked`: nothing is looked at but the end of the day. -/
def pinLocked (s : GreedyState) (m : Match) (prev : PreviousAssignment) : GreedyState :=
  if p.totalSlots < prev.slotId + m.durationSlots then s else s.enter (m.pinnedAt prev)

def places (m : Match) : List (Int × Int) :=
  (slotRange (p.totalSlots - m.durationSlots + 1)).flatMap fun t => p.courts.map fun c => (t, c)

def placeGreedy (s : GreedyState) (m : Match) (prev : Option PreviousAssignment) : GreedyState :=
  match (p.places m).find? fun place => p.feasible s.slotCourtToMatch m place.1 place.2 with
  | none => s
  | some (t, c) =>
    let a := m.placedAt prev t c
    let s := if a.moved then { s with movedCount := s.movedCount + 1 } else s
    s.enter a

/-- One match of the first pass. -/
def pinStep (prevByMatch : Table PreviousAssignment.matchId) (locked : List String)
    (s : GreedyState) (id : String) : GreedyState :=
  match p.matchesById.get id, prevByMatch.get id with
  | some m, some prev => if id ∈ locked then p.pinLocked s m prev else s
  | _, _ => s

/-- One match of the second pass. -/
def placeStep (prevByMatch : Table PreviousAssignment.matchId) (s : GreedyState) (id : String) :
    GreedyState :=
  if s.assignments.Has id then s
  else match p.matchesById.get id with
    | some m => p.placeGreedy s m (prevByMatch.get id)
    | none => s

def placeAll (order : List String) (prevByMatch : Table PreviousAssignment.matchId)
    (locked : List String) : GreedyState :=
  order.foldl (p.placeStep prevByMatch) (order.foldl (p.pinStep prevByMatch locked) {})

end GreedyPlacer

/-- `_locked_match_ids`: the locked ones, and the ones before the freeze horizon ends. -/
def lockedMatchIds (previousAssignments : List PreviousAssignment) (freezeUntil : Int) :
    List String :=
  ((previousAssignments.filter fun prev => prev.locked ∨ prev.slotId < freezeUntil).map
    PreviousAssignment.matchId).dedup

/-- "Greedy backend could not place: …" -/
structure CouldNotPlace where
  unscheduled : List String
  deriving DecidableEq, Repr

structure GreedyResult where
  status : SolverStatus
  assignments : List Rescheduled
  unscheduledMatches : List String
  infeasibleReasons : List CouldNotPlace
  movedCount : Nat
  lockedCount : Nat
  deriving DecidableEq, Repr

namespace ScheduleRequest

variable (request : ScheduleRequest)

def order : List String := request.games.map Match.id

def prevByMatch : Table PreviousAssignment.matchId := Table.ofRows request.previousAssignments

def locked : List String :=
  lockedMatchIds request.previousAssignments
    (request.config.currentSlot + request.config.freezeHorizonSlots)

def placer : GreedyPlacer where
  matchesById := Table.ofRows request.games
  playersById := Table.ofRows request.players
  totalSlots := request.config.totalSlots
  courtCount := request.config.courtCount

end ScheduleRequest

/-- `_result`. -/
def greedyResult (order : List String) (s : GreedyState) (locked : List String) : GreedyResult :=
  let unscheduled := order.filter fun id => ¬ s.assignments.Has id
  { status := if unscheduled = [] then .feasible else .infeasible
    assignments := order.filterMap s.assignments.get
    unscheduledMatches := unscheduled
    infeasibleReasons := if unscheduled = [] then [] else [⟨unscheduled⟩]
    movedCount := s.movedCount
    lockedCount := locked.length }

/-- `GreedyBackend.solve`. -/
def greedySolve (request : ScheduleRequest) : GreedyResult :=
  greedyResult request.order
    (request.placer.placeAll request.order request.prevByMatch request.locked) request.locked

end

/-! ## What the backend keeps

The table of taken cells shows every place that was entered, so a match that takes a free place is
apart from all others on its court, and from those of its players whose cells it still shows. -/

@[simp] theorem Rescheduled.mem_cells {a : Rescheduled} {t c : Int} :
    (t, c) ∈ a.cells ↔ c = a.courtId ∧ a.span.Holds t := mem_occupies

theorem Rescheduled.not_mem_cells {a b : Rescheduled}
    (h : b.courtId = a.courtId → a.span.Apart b.span) {cell : Int × Int} (mem : cell ∈ a.cells) :
    cell ∉ b.cells := by
  obtain ⟨t, c⟩ := cell
  obtain ⟨rfl, ht⟩ := mem_cells.mp mem
  intro mem'
  obtain ⟨court, ht'⟩ := mem_cells.mp mem'
  exact (h court.symm).not_both ht ht'

/-! ## The table and the places -/

namespace GreedyState

def Shown (s : GreedyState) : Prop :=
  Occupied (fun a : Rescheduled => a.matchId) Rescheduled.cells s.assignments.rows s.slotCourtToMatch

variable {s : GreedyState} {a : Rescheduled}

theorem mem_enter (new : s.assignments.Has a.matchId → a ∈ s.assignments.rows) (x : Rescheduled) :
    x ∈ (s.enter a).assignments.rows ↔ x = a ∨ x ∈ s.assignments.rows := by
  rw [enter, Table.mem_put]
  constructor
  · exact Or.imp_right And.left
  · rintro (rfl | hx)
    · exact .inl rfl
    by_cases same : x.matchId = a.matchId
    · exact .inl (Table.eq_of_key_eq hx (new (Table.has_iff.mpr ⟨x, hx, same⟩)) same)
    · exact .inr ⟨hx, same⟩

theorem Shown.enter (h : s.Shown) (new : s.assignments.Has a.matchId → a ∈ s.assignments.rows) :
    (s.enter a).Shown :=
  Occupied.occupy h (mem_enter new)

end GreedyState

namespace GreedyPlacer

variable (p : GreedyPlacer)

theorem mem_courts {c : Int} : c ∈ p.courts ↔ 1 ≤ c ∧ c ≤ p.courtCount := by
  simp only [courts, List.mem_map, mem_slotRange]
  constructor
  · rintro ⟨i, hi, rfl⟩
    omega
  · rintro ⟨lower, upper⟩
    exact ⟨c - 1, by omega, by omega⟩

/-! ## The first pass -/

section Pins

variable (prevByMatch : Table PreviousAssignment.matchId) (locked : List String)

/-- Where the first pass pins a match: a locked one at its last place, if the day is long enough. -/
def pinOf (id : String) : Option Rescheduled :=
  match p.matchesById.get id, prevByMatch.get id with
  | some m, some prev =>
    if id ∈ locked ∧ prev.slotId + m.durationSlots ≤ p.totalSlots then some (m.pinnedAt prev)
    else none
  | _, _ => none

variable {p prevByMatch locked} {s : GreedyState} {id : String} {a : Rescheduled}

theorem pinOf_eq_some : p.pinOf prevByMatch locked id = some a ↔
    ∃ m, p.matchesById.get id = some m ∧ ∃ prev, prevByMatch.get id = some prev ∧ id ∈ locked ∧
      prev.slotId + m.durationSlots ≤ p.totalSlots ∧ m.pinnedAt prev = a := by
  unfold pinOf
  split
  next m prev hm hp => simp [hm, hp, and_assoc]
  next other =>
    simp only [reduceCtorEq, false_iff]
    rintro ⟨m, hm, prev, hp, -⟩
    exact other m prev hm hp

theorem pinOf_matchId (h : p.pinOf prevByMatch locked id = some a) : a.matchId = id := by
  obtain ⟨m, hm, prev, -, -, -, rfl⟩ := pinOf_eq_some.mp h
  exact (Table.key_of_get hm : m.id = id)

theorem pinStep_eq (s : GreedyState) (id : String) : p.pinStep prevByMatch locked s id =
    match p.pinOf prevByMatch locked id with
    | some a => s.enter a
    | none => s := by
  unfold pinStep pinOf
  cases p.matchesById.get id with
  | none => rfl
  | some m =>
  cases prevByMatch.get id with
  | none => rfl
  | some prev =>
  dsimp only
  unfold pinLocked
  by_cases mem : id ∈ locked
  · by_cases long : p.totalSlots < prev.slotId + m.durationSlots
    · simp [mem, long, Int.not_le.mpr long]
    · simp [mem, long, Int.not_lt.mp long]
  · simp [mem]

/-- Only pins were entered, and the table shows them. -/
structure Pinned (p : GreedyPlacer) (prevByMatch : Table PreviousAssignment.matchId)
    (locked : List String) (s : GreedyState) : Prop where
  shown : s.Shown
  pins : ∀ a ∈ s.assignments.rows, p.pinOf prevByMatch locked a.matchId = some a

theorem Pinned.start : Pinned p prevByMatch locked {} := by
  constructor
  · exact Occupied.empty
  · intro a ha
    simp at ha

theorem Pinned.step (h : Pinned p prevByMatch locked s) (id : String) :
    Pinned p prevByMatch locked (p.pinStep prevByMatch locked s id) ∧
      (∀ a ∈ s.assignments.rows, a ∈ (p.pinStep prevByMatch locked s id).assignments.rows) ∧
      ∀ a, p.pinOf prevByMatch locked id = some a →
        a ∈ (p.pinStep prevByMatch locked s id).assignments.rows := by
  rw [pinStep_eq]
  cases hp : p.pinOf prevByMatch locked id with
  | none => exact ⟨h, fun _ ha => ha, by simp⟩
  | some a =>
    obtain rfl := pinOf_matchId hp
    have new : s.assignments.Has a.matchId → a ∈ s.assignments.rows := by
      intro has
      obtain ⟨b, hb, same⟩ := Table.has_iff.mp has
      have pinned := h.pins b hb
      rw [same, hp] at pinned
      exact Option.some.inj pinned ▸ hb
    have mem := GreedyState.mem_enter new
    refine ⟨⟨h.shown.enter new, ?_⟩, fun b hb => (mem b).mpr (.inr hb), ?_⟩
    · intro b hb
      rcases (mem b).mp hb with rfl | hb
      · exact hp
      · exact h.pins b hb
    · rintro b ⟨⟩
      exact (mem a).mpr (.inl rfl)

theorem Pinned.run (h : Pinned p prevByMatch locked s) (order : List String) :
    Pinned p prevByMatch locked (order.foldl (p.pinStep prevByMatch locked) s) ∧
      (∀ a ∈ s.assignments.rows,
        a ∈ (order.foldl (p.pinStep prevByMatch locked) s).assignments.rows) ∧
      ∀ id ∈ order, ∀ a, p.pinOf prevByMatch locked id = some a →
        a ∈ (order.foldl (p.pinStep prevByMatch locked) s).assignments.rows := by
  induction order generalizing s with
  | nil => exact ⟨h, fun _ ha => ha, by simp⟩
  | cons id order ih =>
    obtain ⟨next, kept, entered⟩ := h.step id
    obtain ⟨last, kept', entered'⟩ := ih next
    refine ⟨last, fun a ha => kept' a (kept a ha), ?_⟩
    intro id' hid a ha
    rcases List.mem_cons.mp hid with rfl | hid
    · exact kept' a (entered a ha)
    · exact entered' id' hid a ha

end Pins

/-! ## What is promised of a place -/

def Plays (pid id : String) : Prop := ∃ m ∈ p.matchesById.get id, pid ∈ m.everybody

/-- Inside the day, on one of its courts, and inside one window of everybody who has windows. -/
structure Fits (a : Rescheduled) : Prop where
  day : 0 ≤ a.slotId ∧ a.span.stop ≤ p.totalSlots
  court : 1 ≤ a.courtId ∧ a.courtId ≤ p.courtCount
  available : ∀ pid, p.Plays pid a.matchId → ∀ player ∈ p.playersById.get pid,
    player.availability ≠ [] → coversRange player.availability a.span

def Clear (as : List Rescheduled) (b : Rescheduled) : Prop :=
  (1 ≤ b.courtId ∧ b.courtId ≤ p.courtCount) ∧
    ∀ x ∈ as, x.matchId ≠ b.matchId → x.courtId = b.courtId → b.span.Apart x.span

/-- What is promised of a place among others, of which `Free` ones are not pinned. -/
structure WellPlaced (Free : String → Prop) (as : List Rescheduled) (a : Rescheduled) : Prop where
  fits : p.Fits a
  court : ∀ b ∈ as, b.matchId ≠ a.matchId → b.courtId = a.courtId → a.span.Apart b.span
  players : ∀ b ∈ as, b.matchId ≠ a.matchId → ∀ pid, p.Plays pid a.matchId →
    p.Plays pid b.matchId → Free b.matchId ∨ p.Clear as b → a.span.Apart b.span

variable {p}

theorem Clear.mono {as as' : List Rescheduled} {b : Rescheduled} (h : p.Clear as b)
    (sub : ∀ x ∈ as', x ∈ as) : p.Clear as' b :=
  ⟨h.1, fun x hx => h.2 x (sub x hx)⟩

theorem WellPlaced.clear {Free : String → Prop} {as : List Rescheduled} {a : Rescheduled}
    (h : p.WellPlaced Free as a) :
    p.Clear as a := ⟨h.fits.court, h.court⟩

/-! ## The second pass -/

/-- The table shows the places, and all that are not pinned are well placed among them. -/
structure Safe (p : GreedyPlacer) (Free : String → Prop) (s : GreedyState) : Prop where
  shown : s.Shown
  games : ∀ a ∈ s.assignments.rows, ∃ m, p.matchesById.get a.matchId = some m ∧
    a.durationSlots = m.durationSlots
  placed : ∀ a ∈ s.assignments.rows, Free a.matchId →
    p.WellPlaced Free s.assignments.rows a

/-- Matches take a slot at least, and have a name. -/
structure Proper (p : GreedyPlacer) : Prop where
  lasting : ∀ m ∈ p.matchesById.rows, 1 ≤ m.durationSlots
  named : ∀ m ∈ p.matchesById.rows, m.id ≠ ""

section Step

variable {Free : String → Prop} {s : GreedyState} {a : Rescheduled} {m : Match}

theorem Safe.lasting (h : p.Safe Free s) (proper : p.Proper) (ha : a ∈ s.assignments.rows) :
    a.span.start < a.span.stop := by
  obtain ⟨m, hm, e⟩ := h.games a ha
  have least := proper.lasting m (Table.mem_of_get hm)
  show a.slotId < a.slotId + a.durationSlots
  omega

/-- A feasible place is apart from everything that shows on its court, and from whatever of its
players' matches shows on all of its cells. -/
theorem Safe.feasible (h : p.Safe Free s) (proper : p.Proper)
    (get : p.matchesById.get a.matchId = some m) (length : a.durationSlots = m.durationSlots)
    (ok : p.feasible s.slotCourtToMatch m a.slotId a.courtId) :
    (∀ b ∈ s.assignments.rows, b.courtId = a.courtId → a.span.Apart b.span) ∧
      ∀ b ∈ s.assignments.rows, ∀ pid, p.Plays pid a.matchId → p.Plays pid b.matchId →
        p.Clear s.assignments.rows b → a.span.Apart b.span := by
  obtain ⟨-, free, players⟩ := ok
  rw [← length] at free players
  have some_slot : a.span.start < a.span.stop := by
    have least := proper.lasting m (Table.mem_of_get get)
    show a.slotId < a.slotId + a.durationSlots
    omega
  constructor
  · intro b hb court
    by_contra meet
    obtain ⟨t, ht, ht'⟩ := Span.exists_both some_slot (h.lasting proper hb) meet
    exact h.shown.free (free (t, a.courtId) (Rescheduled.mem_cells.mpr ⟨rfl, ht⟩)) hb
      (Rescheduled.mem_cells.mpr ⟨court.symm, ht'⟩)
  · rintro b hb pid ⟨m', hm', hpid⟩ plays clear
    obtain rfl := Option.some.inj (get.symm.trans hm')
    by_contra meet
    obtain ⟨t, ht, ht'⟩ := Span.exists_both some_slot (h.lasting proper hb) meet
    -- the table shows `b` on its own cells, so the player is seen to be busy there
    have seen := h.shown.own hb (fun x hx ne cell mem =>
      Rescheduled.not_mem_cells (clear.2 x hx ne) mem)
      (Rescheduled.mem_cells.mpr ⟨rfl, ht'⟩)
    obtain ⟨n, hn, hpid'⟩ := plays
    have named : b.matchId ≠ "" := by
      rw [← (Table.key_of_get hn : n.id = b.matchId)]
      exact proper.named n (Table.mem_of_get hn)
    apply (players pid hpid).1
    exact ⟨t, mem_slotsFrom.mpr ht, b.courtId, p.mem_courts.mpr clear.1, b.matchId, seen, named,
      n, hn, hpid'⟩

/-- **One more place.** A match that takes a feasible place is well placed, and what was stays so. -/
theorem Safe.enter (h : p.Safe Free s) (proper : p.Proper)
    (new : ¬ s.assignments.Has a.matchId) (get : p.matchesById.get a.matchId = some m)
    (length : a.durationSlots = m.durationSlots) (day : 0 ≤ a.slotId)
    (court : a.courtId ∈ p.courts) (ok : p.feasible s.slotCourtToMatch m a.slotId a.courtId) :
    p.Safe Free (s.enter a) := by
  have mem := GreedyState.mem_enter (s := s) (a := a) fun has => absurd has new
  have other : ∀ b ∈ s.assignments.rows, b.matchId ≠ a.matchId :=
    fun b hb e => new (Table.has_iff.mpr ⟨b, hb, e⟩)
  obtain ⟨onCourt, ofPlayers⟩ := h.feasible proper get length ok
  have clear_of : ∀ b ∈ s.assignments.rows,
      Free b.matchId ∨ p.Clear (s.enter a).assignments.rows b → p.Clear s.assignments.rows b := by
    rintro b hb (free | clear)
    · exact (h.placed b hb free).clear
    · exact clear.mono fun x hx => (mem x).mpr (.inr hx)
  have placed : p.WellPlaced Free (s.enter a).assignments.rows a := by
    constructor
    case fits =>
      refine ⟨⟨day, ?_⟩, p.mem_courts.mp court, ?_⟩
      · have last := ok.1
        rwa [← length] at last
      · rintro pid ⟨m', hm', hpid⟩ player hp some
        obtain rfl := Option.some.inj (get.symm.trans hm')
        obtain ⟨w, hw, inside⟩ := (ok.2.2 pid hpid).2 player hp some
        have least := proper.lasting m (Table.mem_of_get get)
        have first := inside a.slotId (mem_slotsFrom.mpr ⟨by dsimp only; omega, by dsimp only; omega⟩)
        have last := inside (a.slotId + m.durationSlots - 1)
          (mem_slotsFrom.mpr ⟨by dsimp only; omega, by dsimp only; omega⟩)
        refine ⟨w, hw, first.1, ?_⟩
        show a.slotId + a.durationSlots ≤ w.2
        omega
    case court =>
      intro b hb ne same
      rcases (mem b).mp hb with rfl | hb
      · exact absurd rfl ne
      · exact onCourt b hb same
    case players =>
      intro b hb ne pid plays plays' seen
      rcases (mem b).mp hb with rfl | hb
      · exact absurd rfl ne
      · exact ofPlayers b hb pid plays plays' (clear_of b hb seen)
  constructor
  case shown => exact h.shown.enter fun has => absurd has new
  case games =>
    intro b hb
    rcases (mem b).mp hb with rfl | hb
    · exact ⟨m, get, length⟩
    · exact h.games b hb
  case placed =>
    intro b hb free
    rcases (mem b).mp hb with rfl | stood
    · exact placed
    have old := h.placed b stood free
    constructor
    case fits => exact old.fits
    case court =>
      intro x hx ne same
      rcases (mem x).mp hx with rfl | hx
      · exact (onCourt b stood same.symm).symm
      · exact old.court x hx ne same
    case players =>
      intro x hx ne pid plays plays' seen
      rcases (mem x).mp hx with rfl | hx
      · exact (ofPlayers b stood pid plays' plays old.clear).symm
      · exact old.players x hx ne pid plays plays' (.inr (clear_of x hx seen))

theorem placeGreedy_cases (p : GreedyPlacer) (s : GreedyState) (m : Match)
    (prev : Option PreviousAssignment) : p.placeGreedy s m prev = s ∨
      ∃ t c, 0 ≤ t ∧ c ∈ p.courts ∧ p.feasible s.slotCourtToMatch m t c ∧
        ∃ moved, p.placeGreedy s m prev =
          { s.enter (m.placedAt prev t c) with movedCount := moved } := by
  unfold placeGreedy
  split
  · exact .inl rfl
  next t c found =>
  obtain ⟨t', ht, mem⟩ := List.mem_flatMap.mp (List.mem_of_find?_eq_some found)
  obtain ⟨c', hc, e⟩ := List.mem_map.mp mem
  cases e
  refine .inr ⟨t, c, (mem_slotRange.mp ht).1, hc, by simpa using List.find?_some found, ?_⟩
  dsimp only
  split
  · exact ⟨s.movedCount + 1, rfl⟩
  · exact ⟨s.movedCount, rfl⟩

theorem Safe.step (prevByMatch : Table PreviousAssignment.matchId) (h : p.Safe Free s)
    (proper : p.Proper) (id : String) :
    p.Safe Free (p.placeStep prevByMatch s id) ∧
      ∀ a ∈ s.assignments.rows, a ∈ (p.placeStep prevByMatch s id).assignments.rows := by
  unfold placeStep
  split
  · exact ⟨h, fun _ ha => ha⟩
  next new =>
  split
  next m hm =>
    obtain rfl : m.id = id := Table.key_of_get hm
    rcases p.placeGreedy_cases s m (prevByMatch.get m.id) with
      same | ⟨t, c, day, court, ok, moved, placed⟩
    · rw [same]
      exact ⟨h, fun _ ha => ha⟩
    · rw [placed]
      have next := h.enter (a := m.placedAt (prevByMatch.get m.id) t c) proper new hm rfl day court ok
      have mem := GreedyState.mem_enter (s := s) (a := m.placedAt (prevByMatch.get m.id) t c)
        fun has => absurd has new
      exact ⟨⟨next.shown, next.games, next.placed⟩, fun a ha => (mem a).mpr (.inr ha)⟩
  next => exact ⟨h, fun _ ha => ha⟩

theorem Safe.run (prevByMatch : Table PreviousAssignment.matchId) (h : p.Safe Free s)
    (proper : p.Proper) (order : List String) :
    p.Safe Free (order.foldl (p.placeStep prevByMatch) s) ∧
      ∀ a ∈ s.assignments.rows, a ∈ (order.foldl (p.placeStep prevByMatch) s).assignments.rows := by
  induction order generalizing s with
  | nil => exact ⟨h, fun _ ha => ha⟩
  | cons id order ih =>
    obtain ⟨next, kept⟩ := h.step prevByMatch proper id
    obtain ⟨last, kept'⟩ := ih next
    exact ⟨last, fun a ha => kept' a (kept a ha)⟩

end Step

theorem placeAll_safe (prevByMatch : Table PreviousAssignment.matchId) (locked : List String)
    (proper : p.Proper) (order : List String) :
    p.Safe (fun id => p.pinOf prevByMatch locked id = none) (p.placeAll order prevByMatch locked) ∧
      ∀ id ∈ order, ∀ a, p.pinOf prevByMatch locked id = some a →
        a ∈ (p.placeAll order prevByMatch locked).assignments.rows := by
  have start : Pinned p prevByMatch locked {} := .start
  obtain ⟨pinned, -, entered⟩ := start.run order
  have first : p.Safe (fun id => p.pinOf prevByMatch locked id = none)
      (order.foldl (p.pinStep prevByMatch locked) {}) := by
    constructor
    · exact pinned.shown
    · intro a ha
      obtain ⟨m, hm, prev, -, -, -, e⟩ := pinOf_eq_some.mp (pinned.pins a ha)
      exact ⟨m, hm, e ▸ rfl⟩
    · intro a ha free
      rw [pinned.pins a ha] at free
      cases free
  obtain ⟨last, kept⟩ := first.run prevByMatch proper order
  exact ⟨last, fun id hid a ha => kept a (entered id hid a ha)⟩

end GreedyPlacer

/-! ## The whole solve -/

section Solve

variable {request : ScheduleRequest}

def ScheduleRequest.pinOf (request : ScheduleRequest) (id : String) : Option Rescheduled :=
  request.placer.pinOf request.prevByMatch request.locked id

theorem mem_greedySolve {a : Rescheduled} : a ∈ (greedySolve request).assignments ↔
    a ∈ (request.placer.placeAll request.order request.prevByMatch request.locked).assignments.rows ∧
      a.matchId ∈ request.order := by
  show a ∈ request.order.filterMap _ ↔ _
  rw [List.mem_filterMap]
  constructor
  · rintro ⟨id, hid, get⟩
    obtain ⟨mem, rfl⟩ := Table.get_eq_some_iff.mp get
    exact ⟨mem, hid⟩
  · rintro ⟨mem, hid⟩
    exact ⟨a.matchId, hid, Table.get_eq_some_iff.mpr ⟨mem, rfl⟩⟩

/-- **Free places and pins of the greedy backend.** A place that no lock fixes is inside the day
and its players' windows, apart from every other on its court, and apart from its players' other
places, the free ones and those pins that are alone on a court of the day; a locked match that
fits into the day stands at its last place. -/
theorem greedySolve_safe (lasting : ∀ m ∈ request.games, 1 ≤ m.durationSlots)
    (named : ∀ m ∈ request.games, m.id ≠ "") :
    (∀ a ∈ (greedySolve request).assignments, request.pinOf a.matchId = none →
      request.placer.WellPlaced (fun id => request.pinOf id = none)
        (greedySolve request).assignments a) ∧
    ∀ m ∈ request.placer.matchesById.rows, m.id ∈ request.locked →
      ∀ prev ∈ request.prevByMatch.get m.id,
        prev.slotId + m.durationSlots ≤ request.config.totalSlots →
          ∃ a ∈ (greedySolve request).assignments, a.matchId = m.id ∧ a.slotId = prev.slotId ∧
            a.courtId = prev.courtId ∧ a.durationSlots = m.durationSlots := by
  have proper : request.placer.Proper :=
    ⟨fun m hm => lasting m (Table.mem_ofRows hm), fun m hm => named m (Table.mem_ofRows hm)⟩
  obtain ⟨safe, pins⟩ := GreedyPlacer.placeAll_safe request.prevByMatch
    request.locked proper request.order
  constructor
  · intro a ha free
    obtain ⟨mem, -⟩ := mem_greedySolve.mp ha
    have placed := safe.placed a mem free
    have listed : ∀ b ∈ (request.placer.placeAll request.order request.prevByMatch
        request.locked).assignments.rows, b ∈ (greedySolve request).assignments := by
      intro b hb
      obtain ⟨m, hm, -⟩ := safe.games b hb
      refine mem_greedySolve.mpr ⟨hb, ?_⟩
      rw [← (Table.key_of_get hm : m.id = b.matchId)]
      exact List.mem_map_of_mem (Table.mem_ofRows (Table.mem_of_get hm))
    constructor
    · exact placed.fits
    · intro b hb
      exact placed.court b (mem_greedySolve.mp hb).1
    · intro b hb ne pid plays plays' seen
      apply placed.players b (mem_greedySolve.mp hb).1 ne pid plays plays'
      exact seen.imp_right fun clear => clear.mono listed
  · intro m hm hl prev hp fits
    have mem : m.id ∈ request.order := List.mem_map_of_mem (Table.mem_ofRows hm)
    have pin : request.pinOf m.id = some (m.pinnedAt prev) := GreedyPlacer.pinOf_eq_some.mpr
      ⟨m, Table.get_eq_some_iff.mpr ⟨hm, rfl⟩, prev, hp, hl, fits, rfl⟩
    exact ⟨m.pinnedAt prev, mem_greedySolve.mpr ⟨pins m.id mem _ pin, mem⟩, rfl, rfl, rfl, rfl⟩

/-! ## A morning on two courts -/

def single (id one two : String) : Match where
  id := id
  eventCode := "MS"
  sideA := [one]
  sideB := [two]

def morning : ScheduleRequest where
  config := { totalSlots := 4, courtCount := 2 }
  players := [{ id := "ann", name := "Ann", availability := [(1, 4)] }]
  games := [single "first" "ann" "bob", single "second" "ann" "cid"]
  previousAssignments := [{ matchId := "second", slotId := 2, courtId := 2, locked := true }]

theorem morning_safe :
    (∀ a ∈ (greedySolve morning).assignments, morning.pinOf a.matchId = none →
      morning.placer.WellPlaced (fun id => morning.pinOf id = none)
        (greedySolve morning).assignments a) ∧
    (∀ m ∈ morning.placer.matchesById.rows, m.id ∈ morning.locked →
      ∀ prev ∈ morning.prevByMatch.get m.id,
        prev.slotId + m.durationSlots ≤ morning.config.totalSlots →
          ∃ a ∈ (greedySolve morning).assignments, a.matchId = m.id ∧ a.slotId = prev.slotId ∧
            a.courtId = prev.courtId ∧ a.durationSlots = m.durationSlots) ∧
    (greedySolve morning).assignments.map Rescheduled.toAssignment =
      [⟨"first", 1, 1, 1⟩, ⟨"second", 2, 2, 1⟩] := by
  obtain ⟨free, pinned⟩ := @greedySolve_safe morning (by decide) (by decide)
  exact ⟨free, pinned, by decide +kernel⟩

def lunch : ScheduleRequest where
  config := { totalSlots := 4, courtCount := 1, breakSlots := [(0, 1)]
              closedCourtWindows := [(1, 0, 1)] }
  players := []
  games := [single "first" "ann" "bob"]

def late : ScheduleRequest where
  config := { totalSlots := 2, courtCount := 1 }
  players := []
  games := [{ single "first" "ann" "bob" with durationSlots := 2 }]
  previousAssignments := [{ matchId := "first", slotId := 1, courtId := 1, locked := true }]

def annex : ScheduleRequest where
  config := { totalSlots := 4, courtCount := 2 }
  players := []
  games := [single "first" "ann" "bob", single "second" "ann" "cid"]
  previousAssignments := [{ matchId := "second", slotId := 0, courtId := 3, locked := true }]

/-- A match is put into a break and on a closed court, a lock that does not fit is moved, and a
player is called to two courts at once. -/
theorem greedySolve_unsafe :
    (∃ a ∈ (greedySolve lunch).assignments, lunch.pinOf a.matchId = none ∧
      (∃ b ∈ lunch.config.breakSlots, inWindow a.span b.1 b.2) ∧
      ∃ w ∈ lunch.config.closedCourtWindows, a.courtId = w.1 ∧ inWindow a.span w.2.1 w.2.2) ∧
    (∃ prev ∈ late.previousAssignments, prev.locked = true ∧
      ∀ a ∈ (greedySolve late).assignments, a.matchId = prev.matchId → a.slotId ≠ prev.slotId) ∧
    ∃ a ∈ (greedySolve annex).assignments, annex.pinOf a.matchId = none ∧
      ∃ b ∈ (greedySolve annex).assignments, b.matchId ≠ a.matchId ∧
        (∃ m ∈ annex.placer.matchesById.get a.matchId, "ann" ∈ m.everybody) ∧
        (∃ m ∈ annex.placer.matchesById.get b.matchId, "ann" ∈ m.everybody) ∧
        ¬ a.span.Apart b.span := by
  decide +kernel

end Solve

end Engine
