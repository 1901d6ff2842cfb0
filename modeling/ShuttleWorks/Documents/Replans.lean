import ShuttleWorks.Documents.Placements
import ShuttleWorks.Engine.WarmStart

/-! Re-planning a live day. A warm restart and a repair hold matches in two ways: where the
document's schedule has them, and where the rows of the table have them once they are called. A
command that assigns a court moves the row and leaves the schedule. -/

namespace Documents
open Lib Operations
open Engine (Assignment LockedAssignment PreviousAssignment RepairRequest Scheduler Values
  WarmRestartRequest)
open Sync (Uuid getD)

/-! ## What a re-plan reads -/

def lockedStatuses : List MatchStatus := [.called, .playing, .finished, .retired]

namespace Store

variable (s : Store)

def buildLockedAssignments : List LockedAssignment :=
  (s.live.matchRows.rows.filter fun row =>
    row.tournamentId = s.tournamentId ∧ row.status ∈ lockedStatuses).filterMap fun row =>
      match row.courtId, row.timeSlot with
      | some courtId, some timeSlot => some { matchId := row.id, courtId, timeSlot }
      | _, _ => none

/-- Where a match is: where its row has it, or else where the schedule does. -/
def whereabouts (reference : Table Assignment.matchId) (mid : String) : Option (Int × Int) :=
  ((s.rowOf mid).bind fun row => row.courtId.bind fun court =>
    row.timeSlot.map fun slot => (court, slot)).or
  ((reference.get mid).map fun a => (a.courtId, a.slotId))

end Store

/-- An assignment of a stored schedule. -/
def readAssignment (j : Json) : Option Assignment :=
  match j with
  | .obj a =>
    match Assoc.get "matchId" a, Assoc.get "slotId" a, Assoc.get "courtId" a,
      Assoc.get "durationSlots" a with
    | some (.str matchId), some (.int slotId), some (.int courtId), some (.int durationSlots) =>
      if matchId ≠ "" ∧ 0 ≤ slotId ∧ 0 ≤ courtId ∧ 0 ≤ durationSlots then
        some ⟨matchId, slotId, courtId, durationSlots.toNat⟩
      else none
    | _, _, _, _ => none
  | _ => none

def readSchedule (document : JsonObject) : Option (List Assignment) :=
  (scheduleAssignments document).mapM readAssignment

variable {j : Json} {row' : Match} {placement : Placement} {n : Int} {mid : String}

theorem readAssignment_entry {a : Assignment} (h : readAssignment j = some a) :
    assignmentEntry j = some (a.matchId, .int a.courtId, .int a.slotId) := by
  unfold readAssignment at h
  split at h
  · next o =>
    split at h
    · next matchId slotId courtId durationSlots hm hs hc _ =>
      split at h
      · next bounds =>
        cases h
        simp [assignmentEntry, hm, hs, hc, bounds.1, getD]
      · cases h
    · cases h
  · cases h

theorem placementOf_reference {document : JsonObject} {schedule : List Assignment}
    (h : readSchedule document = some schedule) (mid : String) :
    placementOf document mid =
      (((Table.ofRows schedule : Table Assignment.matchId).get mid).map fun a =>
        ((.int a.courtId, .int a.slotId) : Placement)).getD unplaced := by
  have entries : ∀ {js : List Json} {as : List Assignment}, js.mapM readAssignment = some as →
      js.filterMap assignmentEntry =
        as.map fun a => (a.matchId, ((.int a.courtId, .int a.slotId) : Placement)) := by
    intro js
    induction js with
    | nil =>
      rintro as h
      cases h
      rfl
    | cons j js ih =>
      intro as h
      simp only [List.mapM_cons, Option.bind_eq_bind, Option.bind_eq_some_iff, Option.pure_def,
        Option.some.injEq] at h
      obtain ⟨a, ha, as, has, rfl⟩ := h
      rw [List.filterMap_cons, readAssignment_entry ha, List.map_cons, ih has]
  have written : ∀ (as : List Assignment) (acc : List (String × Placement))
      (t : Table Assignment.matchId), Assoc.get mid acc = (t.get mid).map (fun a =>
        ((.int a.courtId, .int a.slotId) : Placement)) →
      Assoc.get mid ((as.map fun a =>
        (a.matchId, ((.int a.courtId, .int a.slotId) : Placement))).foldl
        (fun acc p => Assoc.set p.1 p.2 acc) acc) =
      ((as.foldl Table.put t).get mid).map fun a =>
        ((.int a.courtId, .int a.slotId) : Placement) := by
    intro as
    induction as with
    | nil => exact fun _ _ same => same
    | cons a as ih =>
      intro acc t same
      refine ih _ _ ?_
      rw [Assoc.get_set, Table.get_put]
      by_cases own : a.matchId = mid
      · simp [own]
      · simp [own, same]
  unfold placementOf courtSlotById
  rw [entries h, written schedule [] .empty rfl]
  rfl

/-! ## Rows that stand where the schedule has them -/

/-- A row with a place has the place of the schedule, where that has one. -/
def Fits (row : Match) (placement : Placement) : Prop :=
  ∀ court slot court' slot', row.courtId = some court → row.timeSlot = some slot →
    placement = (.int court', .int slot') → court = court' ∧ slot = slot'

def Aligned (s : Store) : Prop :=
  ∀ mid row, s.rowOf mid = some row → Fits row (placementOf s.data mid)

def Remains (row row' : Match) : Prop :=
  row'.courtId = none ∨ row'.courtId = row.courtId ∧ row'.timeSlot = row.timeSlot

theorem Remains.refl (row : Match) : Remains row row := .inr ⟨rfl, rfl⟩

theorem Remains.trans {a b c : Match} (h : Remains a b) (h' : Remains b c) : Remains a c := by
  rcases h' with gone | ⟨court, slot⟩
  · exact .inl gone
  · rcases h with gone | ⟨court', slot'⟩
    · exact .inl (court.trans gone)
    · exact .inr ⟨court.trans court', slot.trans slot'⟩

theorem Fits.remains {row : Match} (h : Fits row placement) (remains : Remains row row') :
    Fits row' placement := by
  intro court slot court' slot' hc hs e
  rcases remains with gone | ⟨sameCourt, sameSlot⟩
  · rw [gone] at hc
    cases hc
  · exact h court slot court' slot' (sameCourt.symm.trans hc) (sameSlot.symm.trans hs) e

theorem columnInt_int {column : Option Int} (h : columnInt (.int n) = .ok column) :
    column = some n := by
  cases h
  rfl

theorem columnInt_eq_some (h : columnInt j = .ok (some n)) : j = .int n := by
  cases j <;> cases h
  rfl

theorem projectedRow_fits {tournamentId : Uuid} {row : Option Match}
    (h : projectedRow tournamentId mid placement row = .ok row') : Fits row' placement := by
  have columns : ∀ {courtId timeSlot : Option Int}, placementColumn placement.1 = .ok courtId →
      placementColumn placement.2 = .ok timeSlot → ∀ court slot court' slot',
        courtId = some court → timeSlot = some slot → placement = (.int court', .int slot') →
          court = court' ∧ slot = slot' := by
    rintro courtId timeSlot hc hs court slot court' slot' rfl rfl rfl
    have first := columnInt_int (mapError_eq_ok.mp hc)
    have second := columnInt_int (mapError_eq_ok.mp hs)
    exact ⟨Option.some.inj first, Option.some.inj second⟩
  unfold projectedRow at h
  split at h
  · simp only [bind_eq_ok] at h
    obtain ⟨courtId, hc, timeSlot, hs, h⟩ := h
    cases h
    exact columns hc hs
  · split at h
    · next stands =>
      cases h
      rintro court slot court' slot' hc hs rfl
      rw [Stands, hc, hs] at stands
      simpa [jsonOption, Json.same, Json.sameNumber] using stands
    · simp only [bind_eq_ok] at h
      obtain ⟨courtId, hc, timeSlot, hs, h⟩ := h
      cases h
      exact columns hc hs

/-- The court and the slot that `assign_court` asks for. -/
def assigned (r : CommandRequest) : Placement :=
  (getD "court_id" .null (r.payload.getD []), getD "time_slot" .null (r.payload.getD []))

theorem applyCommandMutation_place {r : CommandRequest} {m m' : Match}
    (h : applyCommandMutation r m = .ok m') :
    Remains m m' ∨ r.action = .assignCourt ∧ columnInt (assigned r).1 = .ok m'.courtId ∧
      columnInt (assigned r).2 = .ok m'.timeSlot := by
  unfold applyCommandMutation at h
  simp only [bind_eq_ok] at h
  obtain ⟨status, -, h⟩ := h
  split at h
  · next assign =>
    simp only [bind_eq_ok] at h
    obtain ⟨courtId, hc, timeSlot, hs, h⟩ := h
    cases h
    exact .inr ⟨assign, hc, hs⟩
  · cases h
    exact .inl (.inl rfl)
  · cases h
    exact .inl (.inr ⟨rfl, rfl⟩)

/-- The command is new, and its checks pass. -/
def Accepted (s : Store) (r : CommandRequest) : Prop :=
  replayExistingCommand s.tournamentId r s.facing (s.live.commands.get r.id) = none ∧
    (validateCommand s.tournamentId r s.facing).toOption.isSome

instance (s : Store) (r : CommandRequest) : Decidable (Accepted s r) :=
  inferInstanceAs (Decidable (_ ∧ _))

/-- No accepted command assigns a match of the schedule another place, and every write of the
document is answered without an exception. -/
def InPlace (p : Entries.Platform) (s : Store) : BoardEvent → Prop
  | .command _ _ r => r.action = .assignCourt → Accepted s r →
      ∀ court slot court' slot', assigned r = (.int court, .int slot) →
        placementOf s.data r.matchId.val = (.int court', .int slot') → court = court' ∧ slot = slot'
  | .resolveCourt _ _ _ => True
  | .write db x payload clear expected commit =>
      WriteAccepted p s (.write db x payload clear expected commit)

section

variable {c : Settings} {p : Entries.Platform} {x : Ambient} {s : Store} {live : LiveStore}
  {t : Uuid} {action : ResolutionAction} {live' : LiveStore} {payload : JsonObject}
  {expected : Option Nat}

theorem processCommand_own (submittedBy : Uuid) (r : CommandRequest)
    (h : (processCommand c x t submittedBy r live).1.matchRows.get (t, r.matchId.val) = some row') :
    ∃ row, live.matchRows.get (t, r.matchId.val) = some row ∧ (Remains row row' ∨
      r.action = .assignCourt ∧ columnInt (assigned r).1 = .ok row'.courtId ∧
        columnInt (assigned r).2 = .ok row'.timeSlot ∧
        replayExistingCommand t r live (live.commands.get r.id) = none ∧
        (validateCommand t r live).toOption.isSome) := by
  revert h
  refine processCommand_ends (P := fun y => y.1.matchRows.get (t, r.matchId.val) = some row' → _)
    (fun _ _ h => ⟨row', h, .inl (.refl row')⟩) (fun _ _ h => ⟨row', h, .inl (.refl row')⟩)
    (fun e _ h => ?_) fun m p s' fresh valid applied h => ?_
  · rw [(rejected_keeps submittedBy r _ e).1] at h
    exact ⟨row', h, .inl (.refl row')⟩
  · have found := validateCommand_eq_ok valid
    unfold applyCommandTo at applied
    simp only [bind_eq_ok] at applied
    obtain ⟨m', mutated, s₁, stored, s₂, appended, applied⟩ := applied
    cases applied
    obtain ⟨tournament, same, -⟩ := applyCommandMutation_eq_ok mutated
    have key : m'.key = (t, r.matchId.val) := by
      rw [← Table.key_of_get found, Match.key, Match.key, tournament, same]
    rw [(appendIfEventNode_tables appended).1, (putCommand_tables stored).1] at h
    have own : (live.matchRows.put m').get (t, r.matchId.val) = some m' := by
      rw [← key]
      exact Table.get_put_self _ _
    obtain rfl := Option.some.inj (own.symm.trans h)
    refine ⟨m, found, (applyCommandMutation_place mutated).imp id ?_⟩
    rintro ⟨assign, hc, hs⟩
    exact ⟨assign, hc, hs, fresh, by rw [valid]; rfl⟩

theorem displace_remains {key : Json} (h : displace x t action live key = .ok live')
    (found' : live'.matchRows.get (t, mid) = some row') :
    ∃ row, live.matchRows.get (t, mid) = some row ∧ Remains row row' := by
  unfold displace at h
  split at h
  · next id =>
    split at h
    · cases h
      exact ⟨row', found', .refl row'⟩
    · next m found =>
      cases h
      have key : (applyResolutionToDisplaced action m).key = (t, id) := by
        have own : m.key = (t, id) := Table.key_of_get found
        cases action <;> exact own
      by_cases same : id = mid
      · subst same
        refine ⟨m, found, ?_⟩
        have own : (live.matchRows.put (applyResolutionToDisplaced action m)).get (t, id) =
            some (applyResolutionToDisplaced action m) := by
          rw [← key]
          exact Table.get_put_self _ _
        obtain rfl := Option.some.inj (own.symm.trans found')
        cases action with
        | keepAndMove => exact .inl rfl
        | keepAndUnassign => exact .inl rfl
        | keepAndFinish => exact .inr ⟨rfl, rfl⟩
      · refine ⟨row', ?_, .refl row'⟩
        have other : (live.matchRows.put (applyResolutionToDisplaced action m)).get (t, mid) =
            live.matchRows.get (t, mid) := by
          refine Table.get_put_of_ne _ ?_
          rw [key]
          exact fun e => same (congrArg Prod.snd e)
        exact other.symm.trans found'
  · cases h
  · cases h
  · cases h
    exact ⟨row', found', .refl row'⟩

theorem foldlM_displace_remains {keys : List Json}
    (h : keys.foldlM (displace x t action) live = .ok live')
    (found' : live'.matchRows.get (t, mid) = some row') :
    ∃ row, live.matchRows.get (t, mid) = some row ∧ Remains row row' := by
  induction keys generalizing live with
  | nil =>
    cases h
    exact ⟨row', found', .refl row'⟩
  | cons key keys ih =>
    rw [List.foldlM_cons, bind_eq_ok] at h
    obtain ⟨live₁, first, rest⟩ := h
    obtain ⟨row₁, found₁, remains₁⟩ := ih rest
    obtain ⟨row, found, remains⟩ := displace_remains first found₁
    exact ⟨row, found, remains.trans remains₁⟩

theorem processResolveCourtCommand_remains (submittedBy : Uuid) (r : CommandRequest)
    (h : (processResolveCourtCommand c x t submittedBy r live).1.matchRows.get (t, mid) =
      some row') : ∃ row, live.matchRows.get (t, mid) = some row ∧ Remains row row' := by
  revert h
  refine processResolveCourtCommand_ends (P := fun y => y.1.matchRows.get (t, mid) = some row' → _)
    (fun _ _ h => ⟨row', h, .refl row'⟩) (fun _ _ h => ⟨row', h, .refl row'⟩) (fun e _ h => ?_)
    fun _ action keys live₁ live₂ _ _ _ displaced stored h => ?_
  · rw [(rejected_keeps submittedBy r _ e).1] at h
    exact ⟨row', h, .refl row'⟩
  · rw [(putCommand_tables stored).1] at h
    exact foldlM_displace_remains displaced h

theorem Written.placementOf {fresh : Fresh} {clear : Bool} {s' : Store}
    (h : Written p fresh payload clear expected s s') (mid : String) :
    placementOf s'.data mid = placementOf payload mid := by
  have schedule : Assoc.get "schedule" s'.data = Assoc.get "schedule" payload :=
    h.get_member (by decide) (by decide)
  unfold Documents.placementOf scheduleAssignments objectMember
  rw [schedule]

theorem aligned_of_write {db : Database} {x : Fresh} {clear commit : Bool}
    (accepted : WriteAccepted p s (.write db x payload clear expected commit)) :
    Aligned (serveBoard c p s (.write db x payload clear expected commit)) := by
  intro mid row' found
  obtain ⟨answer, ok⟩ := exists_ok_of_toOption accepted
  obtain ⟨y, ⟨same, written, -⟩, left⟩ := documentWrite_ends.of_ok ok
  obtain ⟨id, -, touched, projected⟩ := written.frame
  have state : serveBoard c p s (.write db x payload clear expected commit) = y.working :=
    left.symm.trans same
  rw [state] at found ⊢
  rw [written.placementOf]
  have rows := bulkProject_get projected mid
  rw [Store.rowOf, id] at found
  split at rows
  · obtain ⟨row, made, got⟩ := rows
    obtain rfl := Option.some.inj (got.symm.trans found)
    exact projectedRow_fits made
  · rw [found] at rows
    cases rows

/-- **Every event of the board keeps the rows where the schedule has them.** -/
theorem Aligned.serveBoard (h : Aligned s) {e : BoardEvent} (inPlace : InPlace p s e) :
    Aligned (serveBoard c p s e) := by
  intro mid row' found
  cases e with
  | command x submittedBy r =>
    by_cases own : mid = r.matchId.val
    · subst own
      obtain ⟨row, before, remains | ⟨assign, hc, hs, accepted⟩⟩ :=
        processCommand_own submittedBy r found
      · exact (h _ row before).remains remains
      · intro court slot court' slot' atCourt atSlot
        rw [atCourt] at hc
        rw [atSlot] at hs
        exact inPlace assign accepted court slot court' slot'
          (Prod.ext (columnInt_eq_some hc) (columnInt_eq_some hs))
    · exact h mid row' ((processCommand_row (s := s.facing) submittedBy r own).symm.trans found)
  | resolveCourt x submittedBy r =>
    obtain ⟨row, before, remains⟩ := processResolveCourtCommand_remains submittedBy r found
    exact (h mid row before).remains remains
  | write db x payload clear expected commit =>
    exact aligned_of_write inPlace mid row' found

/-! ## What is fixed is where it is -/

variable {schedule : List Assignment} {scheduler : Scheduler}

theorem whereabouts_of_lock {reference : Table Assignment.matchId} {lock : LockedAssignment}
    (h : lock ∈ s.buildLockedAssignments) :
    s.whereabouts reference lock.matchId = some (lock.courtId, lock.timeSlot) := by
  obtain ⟨row, hrow, h⟩ := List.mem_filterMap.mp h
  obtain ⟨mem, own⟩ := List.mem_filter.mp hrow
  split at h
  · next courtId timeSlot hc hs =>
    cases h
    have found : s.rowOf row.id = some row :=
      rowOf_eq_some.mpr ⟨mem, (of_decide_eq_true own).1, rfl⟩
    simp [Store.whereabouts, found, hc, hs]
  · cases h

theorem whereabouts_of_reference (aligned : Aligned s) (read : readSchedule s.data = some schedule)
    {ref : Assignment} (h : (Table.ofRows schedule : Table Assignment.matchId).get mid = some ref) :
    s.whereabouts (Table.ofRows schedule) mid = some (ref.courtId, ref.slotId) := by
  have placed := placementOf_reference read mid
  rw [h] at placed
  unfold Store.whereabouts
  rw [h]
  cases found : s.rowOf mid with
  | none => rfl
  | some row =>
    cases hc : row.courtId with
    | none => simp [hc]
    | some court =>
      cases hs : row.timeSlot with
      | none => simp [hc, hs]
      | some slot =>
        obtain ⟨rfl, rfl⟩ := aligned mid row found court slot _ _ hc hs placed
        simp [hc, hs]

/-- No match is fixed to two places; and where the places all matches are at satisfy the rest of
what is posted, they satisfy the locks. -/
def Harmless (s : Store) (schedule : List Assignment) (scheduler : Scheduler) : Prop :=
  (∀ id court slot court' slot', scheduler.Fixes id court slot → scheduler.Fixes id court' slot' →
    court = court' ∧ slot = slot') ∧
  ∀ v : Values, (∀ m ∈ scheduler.games.rows,
    ∀ place ∈ s.whereabouts (Table.ofRows schedule) m.id,
      v.court m.id = place.1 ∧ v.start m.id = place.2) →
    scheduler.SatisfiesRest v → scheduler.Satisfies v

theorem harmless_of_aligned (aligned : Aligned s) (read : readSchedule s.data = some schedule)
    (locks : scheduler.lockedAssignments = s.buildLockedAssignments)
    (previous : ∀ prev ∈ scheduler.previousAssignments.rows, prev.locked = true ∧
      ∃ ref, (Table.ofRows schedule : Table Assignment.matchId).get prev.matchId = some ref ∧
        ref.courtId = prev.courtId ∧ ref.slotId = prev.slotId) : Harmless s schedule scheduler := by
  have fixed : ∀ id court slot, scheduler.Fixes id court slot →
      s.whereabouts (Table.ofRows schedule) id = some (court, slot) := by
    rintro id court slot (⟨prev, hp, -, rfl, rfl, rfl⟩ | ⟨lock, hl, rfl, rfl, rfl⟩)
    · obtain ⟨-, ref, hr, court, slot⟩ := previous prev hp
      rw [whereabouts_of_reference aligned read hr, court, slot]
    · rw [locks] at hl
      exact whereabouts_of_lock hl
  constructor
  · intro id court slot court' slot' first second
    have same := (fixed id court slot first).symm.trans (fixed id court' slot' second)
    exact Prod.ext_iff.mp (Option.some.inj same)
  · intro v stands rest
    refine Scheduler.satisfies_of_rest (fun prev hp => (previous prev hp).1) rest ?_
    intro id has court slot fixes
    obtain ⟨m, hm, rfl⟩ := Table.has_iff.mp has
    exact stands m hm _ (fixed m.id court slot fixes)

end

/-- **Re-planning a live day.** From a committed document on, as long as no command assigns a match
of the schedule another place, the locks of a warm restart or a repair agree and are harmless. -/
theorem replans_harmless (c : Settings) (p : Entries.Platform) (s : Store) (db : Database)
    (x : Fresh) (payload : JsonObject) (clear commit : Bool) (expected : Option Nat)
    (events : List BoardEvent)
    (run : Throughout (serveBoard c p) (InPlace p) s
      (.write db x payload clear expected commit :: events)) :
    let live := served (serveBoard c p) s (.write db x payload clear expected commit :: events)
    ∀ schedule, readSchedule live.data = some schedule →
      (∀ r : WarmRestartRequest, r.originalSchedule = schedule →
        Harmless live schedule (r.scheduler live.buildLockedAssignments)) ∧
      ∀ r : RepairRequest, r.originalSchedule = schedule → ∀ repair, r.sliceFor = .ok repair →
        Harmless live schedule (r.problem repair live.buildLockedAssignments).scheduler := by
  intro live schedule read
  have committed : Aligned (serveBoard c p s (.write db x payload clear expected commit)) :=
    aligned_of_write run.1
  have aligned : Aligned live := run.2.invariant committed fun _ _ h => h.serveBoard
  constructor
  · rintro r rfl
    exact harmless_of_aligned aligned read rfl fun prev hp =>
      Engine.WarmRestartRequest.previous_reference hp
  · rintro r rfl repair sliced
    exact harmless_of_aligned aligned read rfl fun prev hp =>
      Engine.RepairRequest.previous_reference sliced hp

/-! ## One match -/

namespace Rehearsal

def desk (id : Uuid) (action : MatchAction) (seen : Nat) : BoardEvent :=
  .command ambient "desk" ⟨id, ⟨"m1", m1_bounded⟩, action, none, seen⟩

def played (assign : BoardEvent) : List BoardEvent :=
  [.write sound fresh scheduled false none true, assign, desk "command-2" .callToCourt 2,
    desk "command-3" .startMatch 3]

def restart (matchStates : List (String × Engine.MatchStateStatus)) : WarmRestartRequest where
  originalSchedule := [⟨"m1", 0, 1, 1⟩]
  config := { totalSlots := 8, courtCount := 2 }
  intervalMinutes := 30
  players := []
  games := [{ id := "m1", eventCode := "MS", sideA := ["ann"], sideB := ["bea"] }]
  matchStates := matchStates

end Rehearsal

open Rehearsal in
theorem replans_harmless_courtOne :
    let live := served (serveBoard settings platform) hall (played toCourtOne)
    live.buildLockedAssignments = [⟨"m1", 1, 0⟩] ∧
      Harmless live [⟨"m1", 0, 1, 1⟩]
        ((restart [("m1", .started)]).scheduler live.buildLockedAssignments) := by
  have run : Throughout (serveBoard settings platform) (InPlace platform) hall
      (played toCourtOne) := by
    have accepted : ((documentWrite platform sound fresh scheduled false none true).execute
        hall).1.toOption.isSome = true := by decide +kernel
    refine ⟨accepted, ?_, nofun, nofun, trivial⟩
    intro _ _ court slot court' slot' asked placed
    have there : placementOf (serveBoard settings platform hall
        (.write sound fresh scheduled false none true)).data "m1" = (.int 1, .int 0) := by
      decide +kernel
    cases asked
    cases there.symm.trans placed
    exact ⟨rfl, rfl⟩
  refine ⟨by decide +kernel, ?_⟩
  exact (replans_harmless settings platform hall sound fresh scheduled false true none _ run
    [⟨"m1", 0, 1, 1⟩] (by decide +kernel)).1 (restart [("m1", .started)]) rfl

open Rehearsal in
/-- A match that is played on court 2 is fixed there and to court 1, where the schedule has it:
there is no plan, although where it is played there would be one. -/
theorem replan_infeasible :
    let live := served (serveBoard settings platform) hall (played toCourtTwo)
    let replan := (restart [("m1", .started)]).scheduler live.buildLockedAssignments
    readSchedule live.data = some [⟨"m1", 0, 1, 1⟩] ∧
      live.whereabouts (Table.ofRows [⟨"m1", 0, 1, 1⟩]) "m1" = some (2, 3) ∧
      replan.Fixes "m1" 1 0 ∧ replan.Fixes "m1" 2 3 ∧ (¬ ∃ v, replan.Satisfies v) ∧
      ((restart []).scheduler []).Satisfies ⟨fun _ => 3, fun _ => 2⟩ := by
  intro live replan
  have first : replan.Fixes "m1" 1 0 :=
    .inl ⟨⟨"m1", 0, 1, true, none, none⟩, by decide +kernel, rfl, rfl, rfl, rfl⟩
  have second : replan.Fixes "m1" 2 3 := .inr ⟨⟨"m1", 2, 3⟩, by decide +kernel, rfl, rfl, rfl⟩
  refine ⟨by decide +kernel, by decide +kernel, first, second, ?_, ?_⟩
  · rintro ⟨v, sat⟩
    have has : replan.games.Has "m1" := by decide +kernel
    have one := (sat.fixed has first).1
    have two := (sat.fixed has second).1
    omega
  · apply Scheduler.satisfies_alone (m := ⟨"m1", "MS", 1, ["ann"], ["bea"]⟩) rfl rfl rfl
    all_goals decide

end Documents
