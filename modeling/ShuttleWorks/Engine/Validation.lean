import ShuttleWorks.Engine.Constraints

/-! The validator that needs no solver: every hard constraint a list of places breaks, one
conflict for each way it breaks it. -/

namespace Engine
open Lib

inductive ConflictType
  | unscheduled | unknownMatch | outOfDay | invalidCourt | courtConflict | playerOverlap
  | availability | break | courtClosed | rest | lockViolated | pinViolated | freezeViolated
  deriving DecidableEq, Repr

structure Conflict where
  type : ConflictType
  description : String
  matchId : Option String := none
  otherMatchId : Option String := none
  playerId : Option String := none
  courtId : Option Int := none
  slotId : Option Int := none
  deriving DecidableEq, Repr

/-- What is validated: the places, and the tables they are read against. -/
structure Draft where
  config : ScheduleConfig
  players : Table Player.id
  games : Table Match.id
  assignments : List Assignment
  previousAssignments : Table PreviousAssignment.matchId := Table.empty

/-- Cells are claimed one after the other; the first claim holds a cell, every later one is
reported against it. -/
def claim {κ : Type} [DecidableEq κ] (report : String → κ → String → Conflict)
    (w : List (κ × String) × List Conflict) (c : String × κ) : List (κ × String) × List Conflict :=
  match Assoc.get c.2 w.1 with
  | some holder => (w.1, w.2 ++ [report c.1 c.2 holder])
  | none => (Assoc.set c.2 c.1 w.1, w.2)

def claimed {κ : Type} [DecidableEq κ] (report : String → κ → String → Conflict)
    (claims : List (String × κ)) : List Conflict :=
  (claims.foldl (claim report) ([], [])).2

namespace Draft

def known (d : Draft) : List (Assignment × Match) :=
  d.assignments.filterMap fun a => (d.games.get a.matchId).map fun m => (a, m)

def slots (p : Assignment × Match) : List Int :=
  (List.range p.2.durationSlots).map fun (i : Nat) => p.1.slotId + i

def span (p : Assignment × Match) : Span := ⟨p.1.slotId, p.1.slotId + p.2.durationSlots⟩

def missingMatches (d : Draft) : List Conflict :=
  (d.games.rows.filter fun m => m.id ∉ d.assignments.map Assignment.matchId).map fun m =>
    { type := .unscheduled, matchId := some m.id
      description := s!"Match {m.eventCode} is not assigned" }

def outOfDay (d : Draft) (p : Assignment × Match) : List Conflict :=
  if p.1.slotId < 0 ∨ p.1.slotId + p.2.durationSlots > d.config.totalSlots then
    [{ type := .outOfDay, matchId := some p.1.matchId, slotId := some p.1.slotId
       description := s!"Match {p.2.eventCode} at slot {p.1.slotId} with duration " ++
        s!"{p.2.durationSlots} does not fit in {d.config.totalSlots} total slots" }]
  else []

def invalidCourt (d : Draft) (p : Assignment × Match) : List Conflict :=
  if p.1.courtId < 1 ∨ p.1.courtId > d.config.courtCount then
    [{ type := .invalidCourt, matchId := some p.1.matchId, courtId := some p.1.courtId
       description := s!"Match {p.2.eventCode} on court {p.1.courtId} — valid range " ++
        s!"1..{d.config.courtCount}" }]
  else []

def unknownMatch (a : Assignment) : Conflict where
  type := .unknownMatch
  matchId := some a.matchId
  description := s!"Assignment references unknown match {a.matchId}"

def outside (d : Draft) : List Conflict :=
  d.assignments.flatMap fun a =>
    match d.games.get a.matchId with
    | none => [unknownMatch a]
    | some m => d.outOfDay (a, m) ++ d.invalidCourt (a, m)

def courtConflicts (d : Draft) : List Conflict :=
  claimed (fun id (cell : Int × Int) holder =>
      { type := .courtConflict, matchId := some id, otherMatchId := some holder
        courtId := some cell.2, slotId := some cell.1
        description := s!"Court {cell.2} slot {cell.1}: {id} conflicts with {holder}" })
    (d.known.flatMap fun p => (slots p).map fun t => (p.1.matchId, (t, p.1.courtId)))

def playerOverlaps (d : Draft) : List Conflict :=
  if d.config.allowPlayerOverlap then []
  else
    claimed (fun id (cell : String × Int) holder =>
        { type := .playerOverlap, matchId := some id, otherMatchId := some holder
          playerId := some cell.1, slotId := some cell.2
          description := s!"Player {cell.1} double-booked at slot {cell.2}: {id} and {holder}" })
      (d.known.flatMap fun p => p.2.playerIds.flatMap fun pid =>
        (slots p).map fun t => (p.1.matchId, (pid, t)))

def unavailable (d : Draft) : List Conflict :=
  d.known.flatMap fun p => p.2.playerIds.filterMap fun pid =>
    match d.players.get pid with
    | none => none
    | some player =>
      if player.availability = [] ∨ coversRange player.availability (span p) then none
      else some
        { type := .availability, matchId := some p.1.matchId, playerId := some pid
          slotId := some p.1.slotId
          description := s!"Player {player.name} not available for match {p.2.eventCode} " ++
            s!"at slot {p.1.slotId}" }

def overBreaks (d : Draft) : List Conflict :=
  d.known.flatMap fun p => (d.config.breakSlots.filter fun b => inWindow (span p) b.1 b.2).map
    fun b =>
      { type := .break, matchId := some p.1.matchId, slotId := some p.1.slotId
        description := s!"Match {p.2.eventCode} at slot {p.1.slotId} (duration " ++
          s!"{p.2.durationSlots}) overlaps break [{b.1},{b.2})" }

/-- The closures as the validator reads them. -/
def closureWindows (d : Draft) : List (Int × Int × Int) :=
  d.config.closedCourtWindows ++ (d.config.closedCourtIds.filter fun c =>
    1 ≤ c ∧ c ≤ d.config.courtCount ∧ 0 < d.config.totalSlots).map
      fun c => (c, 0, d.config.totalSlots)

def overClosures (d : Draft) : List Conflict :=
  d.known.flatMap fun p => (d.closureWindows.filter fun w =>
      p.1.courtId = w.1 ∧ inWindow (span p) w.2.1 w.2.2).map fun w =>
    { type := .courtClosed, matchId := some p.1.matchId, courtId := some w.1
      slotId := some p.1.slotId
      description := s!"Match {p.2.eventCode} at slot {p.1.slotId} (duration " ++
        s!"{p.2.durationSlots}) overlaps closure on court {w.1} [{w.2.1},{w.2.2})" }

/-! ## Rest -/

abbrev Segment := Int × Int × String

def segmentLe (a b : Segment) : Prop :=
  a.1 < b.1 ∨ (a.1 = b.1 ∧ (a.2.1 < b.2.1 ∨ (a.2.1 = b.2.1 ∧ a.2.2 ≤ b.2.2)))

instance : DecidableRel segmentLe := fun _ _ => inferInstanceAs (Decidable (_ ∨ _))

/-- When each player plays. -/
def byPlayer (d : Draft) : List (String × List Segment) :=
  (d.known.flatMap fun p => p.2.playerIds.map fun pid => (pid, p)).foldl (fun table q =>
    Assoc.set q.1 ((Assoc.get q.1 table).getD [] ++
      [(q.2.1.slotId, q.2.1.slotId + (q.2.2.durationSlots : Int), q.2.1.matchId)]) table) []

def restConflicts (d : Draft) (pid : String) (segments : List Segment) : List Conflict :=
  let player := d.players.get pid
  let rest := (player.map Player.restSlots).getD d.config.defaultRestSlots
  let isHard := (player.map Player.restIsHard).getD true
  if ¬ isHard ∨ d.config.softRestEnabled ∧ ¬ (player.map Player.restIsHard).getD false then []
  else
    let sorted := segments.insertionSort segmentLe
    ((sorted.zip sorted.tail).filter fun q => q.2.1 < q.1.2.1 + rest).map fun q =>
      { type := .rest, matchId := some q.2.2.2, otherMatchId := some q.1.2.2
        playerId := some pid, slotId := some q.2.1
        description := s!"Player {pid}: {q.1.2.1 - q.1.1}-slot match ends at {q.1.2.1}, next " ++
          s!"starts at {q.2.1} (needs {rest} rest slots)" }

def tooLittleRest (d : Draft) : List Conflict :=
  d.byPlayer.flatMap fun q => d.restConflicts q.1 q.2

/-! ## Locks, pins and the freeze horizon -/

def pinConflicts (a : Assignment) (prev : PreviousAssignment) : List Conflict :=
  (match prev.pinnedSlotId with
    | none => []
    | some t =>
      if a.slotId = t then []
      else [{ type := .pinViolated, matchId := some prev.matchId, slotId := some a.slotId
              description := s!"Pin violated: expected slot {t}, got {a.slotId}" }]) ++
    match prev.pinnedCourtId with
    | none => []
    | some c =>
      if a.courtId = c then []
      else [{ type := .pinViolated, matchId := some prev.matchId, courtId := some a.courtId
              description := s!"Pin violated: expected court {c}, got {a.courtId}" }]

def placeOf (d : Draft) (id : String) : Option Assignment :=
  (d.assignments.filter fun a => a.matchId = id).getLast?

def movedConflicts (d : Draft) (prev : PreviousAssignment) : List Conflict :=
  match d.placeOf prev.matchId with
  | none => []
  | some a =>
    let moved := a.slotId ≠ prev.slotId ∨ a.courtId ≠ prev.courtId
    let cutoff := d.config.currentSlot + d.config.freezeHorizonSlots
    if prev.locked then
      if moved then
        [{ type := .lockViolated, matchId := some prev.matchId
           description := s!"Locked match moved: expected ({prev.slotId}, {prev.courtId}) " ++
            s!"got ({a.slotId}, {a.courtId})" }]
      else []
    else
      pinConflicts a prev ++
        if prev.slotId < cutoff ∧ moved then
          [{ type := .freezeViolated, matchId := some prev.matchId
             description := s!"Freeze horizon violated (cutoff slot {cutoff}): expected " ++
              s!"({prev.slotId}, {prev.courtId}), got ({a.slotId}, {a.courtId})" }]
        else []

def moved (d : Draft) : List Conflict := d.previousAssignments.rows.flatMap d.movedConflicts

def findConflicts (d : Draft) : List Conflict :=
  d.missingMatches ++ d.outside ++ d.courtConflicts ++ d.playerOverlaps ++ d.unavailable ++
    d.overBreaks ++ d.overClosures ++ d.tooLittleRest ++ d.moved

/-! ## What is reported -/

variable {d : Draft} {p : Assignment × Match} {a : Assignment} {m : Match}

theorem mem_known :
    p ∈ d.known ↔ p.1 ∈ d.assignments ∧ d.games.get p.1.matchId = some p.2 := by
  obtain ⟨a, m⟩ := p
  simp only [known, List.mem_filterMap, Option.map_eq_some_iff, Prod.mk.injEq]
  constructor
  · rintro ⟨a', ha, m', hm, rfl, rfl⟩
    exact ⟨ha, hm⟩
  · rintro ⟨ha, hm⟩
    exact ⟨a, ha, m, hm, rfl, rfl⟩

theorem closed_reported {w : Int × Int × Int} (ha : a ∈ d.assignments)
    (hm : d.games.get a.matchId = some m) (hw : w ∈ d.closureWindows) (court : a.courtId = w.1)
    (late : inWindow (span (a, m)) w.2.1 w.2.2) :
    ∃ c ∈ d.findConflicts, c.type = .courtClosed := by
  have found : ∃ c ∈ d.overClosures, c.type = .courtClosed := by
    refine ⟨_, List.mem_flatMap.mpr ⟨(a, m), mem_known.mpr ⟨ha, hm⟩, List.mem_map.mpr ⟨w, ?_, rfl⟩⟩, rfl⟩
    exact List.mem_filter.mpr ⟨hw, by simpa using ⟨court, late⟩⟩
  obtain ⟨c, hc, type⟩ := found
  exact ⟨c, by simp [findConflicts, hc], type⟩

theorem break_reported {b : Int × Int} (ha : a ∈ d.assignments)
    (hm : d.games.get a.matchId = some m) (hb : b ∈ d.config.breakSlots)
    (late : inWindow (span (a, m)) b.1 b.2) : ∃ c ∈ d.findConflicts, c.type = .break := by
  have found : ∃ c ∈ d.overBreaks, c.type = .break := by
    refine ⟨_, List.mem_flatMap.mpr ⟨(a, m), mem_known.mpr ⟨ha, hm⟩, List.mem_map.mpr ⟨b, ?_, rfl⟩⟩, rfl⟩
    exact List.mem_filter.mpr ⟨hb, by simpa using late⟩
  obtain ⟨c, hc, type⟩ := found
  exact ⟨c, by simp [findConflicts, hc], type⟩

theorem outOfDay_reported (ha : a ∈ d.assignments) (hm : d.games.get a.matchId = some m)
    (out : a.slotId < 0 ∨ a.slotId + m.durationSlots > d.config.totalSlots) :
    ∃ c ∈ d.findConflicts, c.type = .outOfDay := by
  obtain ⟨c, e, type⟩ : ∃ c, d.outOfDay (a, m) = [c] ∧ c.type = .outOfDay := ⟨_, if_pos out, rfl⟩
  have mem : c ∈ d.outside := List.mem_flatMap.mpr ⟨a, ha, by rw [hm]; simp [e]⟩
  exact ⟨c, by simp [findConflicts, mem], type⟩

theorem unknown_reported (ha : a ∈ d.assignments) (hm : d.games.get a.matchId = none) :
    ∃ c ∈ d.findConflicts, c.type = .unknownMatch := by
  have mem : unknownMatch a ∈ d.outside := List.mem_flatMap.mpr ⟨a, ha, by simp [hm]⟩
  exact ⟨unknownMatch a, by simp [findConflicts, mem], rfl⟩

theorem invalidCourt_reported (ha : a ∈ d.assignments) (hm : d.games.get a.matchId = some m)
    (out : a.courtId < 1 ∨ a.courtId > d.config.courtCount) :
    ∃ c ∈ d.findConflicts, c.type = .invalidCourt := by
  obtain ⟨c, e, type⟩ : ∃ c, d.invalidCourt (a, m) = [c] ∧ c.type = .invalidCourt :=
    ⟨_, if_pos out, rfl⟩
  have mem : c ∈ d.outside := List.mem_flatMap.mpr ⟨a, ha, by rw [hm]; simp [e]⟩
  exact ⟨c, by simp [findConflicts, mem], type⟩

/-! ## A match by itself -/

theorem claimed_nil {κ : Type} [DecidableEq κ] {report : String → κ → String → Conflict}
    {claims : List (String × κ)} (distinct : (claims.map Prod.snd).Nodup) :
    claimed report claims = [] := by
  suffices from_ : ∀ (w : List (κ × String)) (cs : List Conflict),
      (∀ c ∈ claims, Assoc.get c.2 w = none) → (claims.foldl (claim report) (w, cs)).2 = cs from
    from_ [] [] fun c _ => rfl
  induction claims with
  | nil => exact fun w cs _ => rfl
  | cons c claims ih =>
    intro w cs free
    obtain ⟨fresh, distinct⟩ := List.nodup_cons.mp distinct
    have first : claim report (w, cs) c = (Assoc.set c.2 c.1 w, cs) := by
      simp only [claim, free c List.mem_cons_self]
    rw [List.foldl_cons, first]
    apply ih distinct
    intro c' hc'
    have other : c.2 ≠ c'.2 := fun e => fresh (e ▸ List.mem_map_of_mem hc')
    rw [Assoc.get_set_of_ne other]
    exact free c' (List.mem_cons_of_mem _ hc')

theorem slots_nodup (p : Assignment × Match) : (slots p).Nodup :=
  List.nodup_range.map fun i j (h : p.1.slotId + (i : Int) = p.1.slotId + j) => by omega

theorem playerIds_nodup (m : Match) : m.playerIds.Nodup :=
  (List.perm_insertionSort _ _).nodup_iff.mpr (List.nodup_dedup _)

theorem segments_alone {pids : List String} (distinct : pids.Nodup)
    {table : List (String × List Segment)} (fresh : ∀ pid ∈ pids, Assoc.get pid table = none)
    {q : String × List Segment} (hq : q ∈ (pids.map fun pid => (pid, p)).foldl (fun table q =>
      Assoc.set q.1 ((Assoc.get q.1 table).getD [] ++
        [(q.2.1.slotId, q.2.1.slotId + (q.2.2.durationSlots : Int), q.2.1.matchId)]) table) table) :
    q.2 = [(p.1.slotId, p.1.slotId + (p.2.durationSlots : Int), p.1.matchId)] ∨ q ∈ table := by
  induction pids generalizing table with
  | nil => exact .inr hq
  | cons pid pids ih =>
    obtain ⟨new, distinct⟩ := List.nodup_cons.mp distinct
    rw [List.map_cons, List.foldl_cons, fresh pid List.mem_cons_self] at hq
    have later : ∀ pid' ∈ pids, ∀ v, Assoc.get pid' (Assoc.set pid v table) = none := by
      intro pid' hp v
      have other : pid ≠ pid' := fun e => new (e ▸ hp)
      rw [Assoc.get_set_of_ne other]
      exact fresh pid' (List.mem_cons_of_mem _ hp)
    rcases ih distinct (fun pid' hp => later pid' hp _) hq with e | h
    · exact .inl e
    · rcases Assoc.mem_of_mem_set h with rfl | h
      · exact .inl rfl
      · exact .inr h

/-- The only match there is, on a court of the day and inside it, has no conflict but with what is
closed, a break, or somebody's windows. -/
theorem findConflicts_alone (games : d.games.rows = [m]) (places : d.assignments = [a])
    (id : m.id = a.matchId) (first : d.previousAssignments.rows = []) (day : 0 ≤ a.slotId)
    (room : a.slotId + m.durationSlots ≤ d.config.totalSlots)
    (court : 1 ≤ a.courtId ∧ a.courtId ≤ d.config.courtCount)
    (free : ∀ pid ∈ m.playerIds, ∀ player ∈ d.players.get pid,
      coversRange player.availability (span (a, m)))
    (breaks : ∀ b ∈ d.config.breakSlots, ¬ inWindow (span (a, m)) b.1 b.2)
    (closures : ∀ w ∈ d.closureWindows, a.courtId = w.1 → ¬ inWindow (span (a, m)) w.2.1 w.2.2) :
    d.findConflicts = [] := by
  have get : d.games.get a.matchId = some m :=
    Table.get_eq_some_iff.mpr ⟨by rw [games]; exact List.mem_singleton_self m, id⟩
  have known : d.known = [(a, m)] := by
    rw [Draft.known, places, List.filterMap_cons, get]
    rfl
  have missing : d.missingMatches = [] := by
    simp [missingMatches, games, places, id]
  have outside : d.outside = [] := by
    have inDay : d.outOfDay (a, m) = [] := if_neg (by dsimp only; omega)
    have onCourt : d.invalidCourt (a, m) = [] := if_neg (by dsimp only; omega)
    simp [Draft.outside, places, get, inDay, onCourt]
  have courts : d.courtConflicts = [] := by
    refine claimed_nil ?_
    rw [known, List.flatMap_singleton, List.map_map]
    exact (slots_nodup (a, m)).map fun t u h => (Prod.mk.inj h).1
  have overlaps : d.playerOverlaps = [] := by
    unfold playerOverlaps
    split
    · rfl
    refine claimed_nil ?_
    rw [known, List.flatMap_singleton, List.map_flatMap, List.nodup_flatMap]
    constructor
    · intro pid _
      rw [List.map_map]
      exact (slots_nodup (a, m)).map fun t u h => (Prod.mk.inj h).2
    · refine (playerIds_nodup m).imp fun {pid pid'} ne => ?_
      intro cell h h'
      simp only [List.map_map, List.mem_map, Function.comp] at h h'
      obtain ⟨t, -, rfl⟩ := h
      obtain ⟨t', -, e⟩ := h'
      exact ne (Prod.mk.inj e).1.symm
  have available : d.unavailable = [] := by
    rw [unavailable, known, List.flatMap_singleton, List.filterMap_eq_nil_iff]
    intro pid hp
    cases e : d.players.get pid with
    | none => rfl
    | some player => exact if_pos (.inr (free pid hp player e))
  have overBreaks : d.overBreaks = [] := by
    rw [Draft.overBreaks, known, List.flatMap_singleton, List.map_eq_nil_iff,
      List.filter_eq_nil_iff]
    simpa using breaks
  have overClosures : d.overClosures = [] := by
    rw [Draft.overClosures, known, List.flatMap_singleton, List.map_eq_nil_iff,
      List.filter_eq_nil_iff]
    simpa using closures
  have rest : d.tooLittleRest = [] := by
    refine List.flatMap_eq_nil_iff.mpr fun q hq => ?_
    rw [byPlayer, known, List.flatMap_singleton] at hq
    rcases segments_alone (playerIds_nodup m) (fun pid _ => rfl) hq with e | h
    · rw [restConflicts, e]
      simp
    · simp at h
  have moved : d.moved = [] := by
    rw [Draft.moved, first, List.flatMap_nil]
  simp only [findConflicts, missing, outside, courts, overlaps, available, overBreaks, overClosures,
    rest, moved, List.append_nil]

end Draft

end Engine
