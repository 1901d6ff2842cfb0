import ShuttleWorks.Documents.Write
import ShuttleWorks.Operations.Agreement

/-! Where a match stands on the board: desk commands move its row, and so do writes of the
document. -/

namespace Documents
open Lib Operations
open Sync (Uuid)

/-! ## The rows a desk command changes -/

section

variable {c : Settings} {x : Ambient} {t : Uuid} {s s' : LiveStore} {r : CommandRequest}
  {action : ResolutionAction}

theorem applyCommandTo_row {submittedBy : Uuid} {existing : Option Command} {m : Match}
    (found : s.matchRows.get (t, r.matchId.val) = some m) {answer : ProcessedCommand}
    (h : applyCommandTo c x t submittedBy r s existing m = .ok (answer, s')) {mid : String}
    (other : mid ≠ r.matchId.val) : s'.matchRows.get (t, mid) = s.matchRows.get (t, mid) := by
  unfold applyCommandTo at h
  simp only [bind_eq_ok] at h
  obtain ⟨m', mutated, s₁, stored, s₂, appended, h⟩ := h
  cases h
  obtain ⟨tournament, id, -⟩ := applyCommandMutation_eq_ok mutated
  have key : m'.key = (t, r.matchId.val) := by
    rw [← Table.key_of_get found, Match.key, Match.key, tournament, id]
  obtain ⟨rows₁, -⟩ := putCommand_tables stored
  obtain ⟨rows₂, -⟩ := appendIfEventNode_tables appended
  rw [rows₂, rows₁]
  refine Table.get_put_of_ne _ ?_
  rw [key]
  intro same
  exact other (congrArg Prod.snd same).symm

theorem processCommand_row (submittedBy : Uuid) (r : CommandRequest) {mid : String}
    (other : mid ≠ r.matchId.val) :
    (processCommand c x t submittedBy r s).1.matchRows.get (t, mid) =
      s.matchRows.get (t, mid) := by
  refine processCommand_ends
    (P := fun y => y.1.matchRows.get (t, mid) = s.matchRows.get (t, mid)) (fun _ _ => rfl)
    (fun _ _ => rfl) (fun e _ => ?_) fun _ _ _ _ valid applied => ?_
  · rw [(rejected_keeps submittedBy r _ e).1]
  · exact applyCommandTo_row (validateCommand_eq_ok valid) applied other

theorem displace_row {key : Json} (h : displace x t action s key = .ok s') {mid : String}
    (other : key ≠ .str mid) :
    s'.matchRows.get (t, mid) = s.matchRows.get (t, mid) := by
  unfold displace at h
  split at h
  · next id =>
    split at h
    · cases h
      rfl
    · next m found =>
      cases h
      have key : (applyResolutionToDisplaced action m).key = (t, id) := by
        have own : m.key = (t, id) := Table.key_of_get found
        cases action <;> exact own
      refine Table.get_put_of_ne _ ?_
      rw [key]
      intro same
      exact other (congrArg (fun k => Json.str k.2) same)
  · cases h
  · cases h
  · cases h
    rfl

theorem foldlM_displace_row {keys : List Json} (h : keys.foldlM (displace x t action) s = .ok s')
    {mid : String} (other : Json.str mid ∉ keys) :
    s'.matchRows.get (t, mid) = s.matchRows.get (t, mid) := by
  induction keys generalizing s with
  | nil =>
    cases h
    rfl
  | cons key keys ih =>
    rw [List.foldlM_cons, bind_eq_ok] at h
    obtain ⟨s₁, first, rest⟩ := h
    rw [List.mem_cons, not_or] at other
    exact (ih rest other.2).trans (displace_row first (Ne.symm other.1))

def displacedKeys (r : CommandRequest) : List Json :=
  arrayMember "displacedMatchKeys" (r.payload.getD [])

theorem resolution_keys {keys : List Json}
    (h : resolution r (r.payload.getD []) = .ok (action, keys)) : keys = displacedKeys r := by
  unfold resolution at h
  dsimp only at h
  split at h
  · next _ displaced =>
    split at h
    · cases h
      rw [displacedKeys, arrayMember, displaced]
    · cases h
  · cases h

theorem processResolveCourtCommand_row (submittedBy : Uuid) (r : CommandRequest) {mid : String}
    (other : Json.str mid ∉ displacedKeys r) :
    (processResolveCourtCommand c x t submittedBy r s).1.matchRows.get (t, mid) =
      s.matchRows.get (t, mid) := by
  refine processResolveCourtCommand_ends
    (P := fun y => y.1.matchRows.get (t, mid) = s.matchRows.get (t, mid)) (fun _ _ => rfl)
    (fun _ _ => rfl) (fun e _ => ?_) fun chosen action keys s₁ s₂ _ _ valid displaced stored => ?_
  · rw [(rejected_keeps submittedBy r _ e).1]
  · unfold validateResolution at valid
    simp only [bind_eq_ok] at valid
    obtain ⟨_, -, ⟨action', keys'⟩, resolved, valid⟩ := valid
    cases valid
    rw [(putCommand_tables stored).1]
    refine foldlM_displace_row displaced ?_
    rwa [resolution_keys resolved]

end

/-! ## Runs of commands and writes -/

inductive BoardEvent
  | command (x : Ambient) (submittedBy : Uuid) (r : CommandRequest)
  | resolveCourt (x : Ambient) (submittedBy : Uuid) (r : CommandRequest)
  | write (db : Database) (x : Fresh) (payload : JsonObject) (clearBracketAssignments : Bool)
      (expectedVersion : Option Nat) (commit : Bool)

section

variable (c : Settings) (p : Entries.Platform)

/-- Serve an event: the store it leaves, accepted or not. -/
def serveBoard (s : Store) : BoardEvent → Store
  | .command x submittedBy r =>
    { s with live := (processCommand c x s.tournamentId submittedBy r s.facing).1 }
  | .resolveCourt x submittedBy r =>
    { s with live := (processResolveCourtCommand c x s.tournamentId submittedBy r s.facing).1 }
  | .write db x payload clear expected commit =>
    ((documentWrite p db x payload clear expected commit).execute s).2

def WriteAccepted (s : Store) : BoardEvent → Prop
  | .write db x payload clear expected commit =>
    ((documentWrite p db x payload clear expected commit).execute s).1.toOption.isSome
  | _ => True

def SamePlacement (a b : Placement) : Prop := Json.same a.1 b.1 = true ∧ Json.same a.2 b.2 = true

instance (a b : Placement) : Decidable (SamePlacement a b) := inferInstanceAs (Decidable (_ ∧ _))

/-- The payload lists the match, with the assignment it has in the stored document. -/
def Retains (s : Store) (payload : JsonObject) (mid : String) : Prop :=
  mid ∈ matchIds payload ∧ SamePlacement (placementOf s.data mid) (placementOf payload mid)

instance (s : Store) (payload : JsonObject) (mid : String) : Decidable (Retains s payload mid) :=
  inferInstanceAs (Decidable (_ ∧ _))

/-- The event is a command on the match, or a write that changes its assignment. -/
def Concerns (s : Store) (mid : String) : BoardEvent → Prop
  | .command _ _ r => mid = r.matchId.val
  | .resolveCourt _ _ r => Json.str mid ∈ displacedKeys r
  | .write _ _ payload _ _ _ => ¬ Retains s payload mid

instance (s : Store) (mid : String) : (e : BoardEvent) → Decidable (Concerns s mid e)
  | .command _ _ r => inferInstanceAs (Decidable (mid = r.matchId.val))
  | .resolveCourt _ _ r => inferInstanceAs (Decidable (Json.str mid ∈ displacedKeys r))
  | .write _ _ payload _ _ _ => inferInstanceAs (Decidable (¬ Retains s payload mid))

def Store.rowOf (s : Store) (mid : String) : Option Match :=
  s.live.matchRows.get (s.tournamentId, mid)

/-- The rows of the matches that an event does not concern stay as they are. -/
def RowsKept (s : Store) (e : BoardEvent) : Prop :=
  ∀ row ∈ s.live.matchRows.rows, row.tournamentId = s.tournamentId → ¬ Concerns s row.id e →
    (serveBoard c p s e).rowOf row.id = some row

instance (s : Store) (e : BoardEvent) : Decidable (RowsKept c p s e) :=
  inferInstanceAs (Decidable (∀ row ∈ s.live.matchRows.rows, _))

/-- The rows of the matches whose assignment a write retains stand where it assigns them: no
command has moved them since the document was written. -/
def RowsStand (s : Store) : BoardEvent → Prop
  | .write _ _ payload _ _ _ =>
    ∀ row ∈ s.live.matchRows.rows, row.tournamentId = s.tournamentId →
      Retains s payload row.id → Stands row (placementOf payload row.id)
  | _ => True

instance (s : Store) : (e : BoardEvent) → Decidable (RowsStand s e)
  | .write _ _ payload _ _ _ => inferInstanceAs (Decidable (∀ row ∈ s.live.matchRows.rows,
      row.tournamentId = s.tournamentId → Retains s payload row.id →
        Stands row (placementOf payload row.id)))
  | .command _ _ _ => .isTrue trivial
  | .resolveCourt _ _ _ => .isTrue trivial

end

section

variable {c : Settings} {p : Entries.Platform} {s : Store} {e : BoardEvent} {mid : String}
  {row : Match} {payload : JsonObject}

theorem rowOf_eq_some : s.rowOf mid = some row ↔
    row ∈ s.live.matchRows.rows ∧ row.tournamentId = s.tournamentId ∧ row.id = mid := by
  rw [Store.rowOf, Table.get_eq_some_iff, Match.key, Prod.mk.injEq]

/-! ## One event -/

theorem projectPayload_rowOf {touched : Nat} {s' : Store} (listed : mid ∈ matchIds payload)
    (stands : Stands row (placementOf payload mid)) (found : s.rowOf mid = some row)
    (projected : projectPayload payload s = .ok (touched, s')) :
    s'.rowOf mid = some row := by
  obtain ⟨live, moved, rfl⟩ := projectPayload_frame projected
  have rows := bulkProject_get moved mid
  rw [if_pos listed] at rows
  obtain ⟨row', made, got⟩ := rows
  rw [show s.live.matchRows.get (s.tournamentId, mid) = some row from found] at made
  rw [(projectedRow_stands made).mpr stands] at got
  exact got

theorem documentWrite_rowOf {db : Database} {x : Fresh} {clear commit : Bool}
    {expected : Option Nat} (listed : mid ∈ matchIds payload)
    (stands : Stands row (placementOf payload mid)) (found : s.rowOf mid = some row) :
    ((documentWrite p db x payload clear expected commit).execute s).2.rowOf mid = some row := by
  have keeps : Work.Keeps (fun s' : Store => s'.rowOf mid = some row)
      (documentWrite p db x payload clear expected commit) := by
    refine .bind (commitTournamentState_keeps (fun _ _ kept => kept) ?_ ?_) fun row =>
      .bind commitIf_keeps fun _ => .pure row
    · intro document s₁ s₂ kept replaced
      obtain ⟨live, -, -, id, -⟩ := replaceDocument_frame replaced
      rw [Store.rowOf, live, id]
      exact kept
    · intro s₁ touched s₂ kept projected
      exact projectPayload_rowOf listed stands kept projected
  exact keeps.execute found

/-- **Whatever rows stand where the document has them are kept by every event.** -/
theorem rowsKept_of_rowsStand (stand : RowsStand s e) : RowsKept c p s e := by
  intro row mem own aside
  have found : s.rowOf row.id = some row := rowOf_eq_some.mpr ⟨mem, own, rfl⟩
  cases e with
  | command x submittedBy r => exact (processCommand_row submittedBy r aside).trans found
  | resolveCourt x submittedBy r =>
    exact (processResolveCourtCommand_row submittedBy r aside).trans found
  | write db x payload clear expected commit =>
    have retained : Retains s payload row.id := not_not.mp aside
    exact documentWrite_rowOf retained.1 (stand row mem own retained) found

theorem rowsStand_of_rowsKept (accepted : WriteAccepted p s e) (kept : RowsKept c p s e) :
    RowsStand s e := by
  cases e with
  | command x submittedBy r => trivial
  | resolveCourt x submittedBy r => trivial
  | write db x payload clear expected commit =>
    intro row mem own retained
    obtain ⟨answer, ok⟩ := exists_ok_of_toOption accepted
    obtain ⟨y, ⟨same, written, -⟩, left⟩ := documentWrite_ends.of_ok ok
    obtain ⟨id, -, touched, projected⟩ := written.frame
    have rows := bulkProject_get projected row.id
    rw [if_pos retained.1] at rows
    obtain ⟨row', made, got⟩ := rows
    have found : s.live.matchRows.get (s.tournamentId, row.id) = some row :=
      rowOf_eq_some.mpr ⟨mem, own, rfl⟩
    rw [found] at made
    have stays := kept row mem own (not_not.mpr retained)
    rw [show serveBoard c p s (.write db x payload clear expected commit) = y.working from
      left.symm.trans same, Store.rowOf, id, got] at stays
    exact (projectedRow_stands made).mp (Option.some.inj stays)

/-! ## Whole runs -/

theorem served_rowOf {events : List BoardEvent}
    (kept : Throughout (serveBoard c p) (RowsKept c p) s events)
    (aside : Throughout (serveBoard c p) (fun s e => ¬ Concerns s mid e) s events)
    (found : s.rowOf mid = some row) : (served (serveBoard c p) s events).rowOf mid = some row := by
  induction events generalizing s with
  | nil => exact found
  | cons e es ih =>
    obtain ⟨mem, own, rfl⟩ := rowOf_eq_some.mp found
    exact ih kept.2 aside.2 (kept.1 row mem own aside.1)

/-- **Placements.** Where every write finds the rows it retains standing where it assigns them, a
row stays as it is until a command on its match or a write that changes the assignment; and of
accepted writes only these keep the rows. -/
theorem placements_kept (c : Settings) (p : Entries.Platform) (s : Store)
    (events : List BoardEvent) :
    (Throughout (serveBoard c p) RowsStand s events →
      Throughout (serveBoard c p) (RowsKept c p) s events ∧
      ∀ mid row, s.rowOf mid = some row →
        Throughout (serveBoard c p) (fun s e => ¬ Concerns s mid e) s events →
        (served (serveBoard c p) s events).rowOf mid = some row) ∧
    (Throughout (serveBoard c p) (WriteAccepted p) s events →
      Throughout (serveBoard c p) (RowsKept c p) s events →
      Throughout (serveBoard c p) RowsStand s events) := by
  constructor
  · intro stand
    have kept : Throughout (serveBoard c p) (RowsKept c p) s events :=
      stand.mono fun _ _ => rowsKept_of_rowsStand
    exact ⟨kept, fun mid row found aside => served_rowOf kept aside found⟩
  · intro accepted kept
    induction events generalizing s with
    | nil => trivial
    | cons e es ih =>
      exact ⟨rowsStand_of_rowsKept accepted.1 kept.1, ih _ accepted.2 kept.2⟩

end

/-! ## One match -/

namespace Rehearsal

def settings : Settings := ⟨Sync.Rehearsal.env, none, id⟩

def ambient : Ambient := ⟨none, ⟨[], [], "", "", "2026-03-01T09:00:00Z"⟩⟩

def scheduled : JsonObject :=
  [("matches", .arr [.obj [("id", .str "m1"), ("sideA", .arr [.str "ann"]),
      ("sideB", .arr [.str "bea"])]]),
    ("schedule", .obj [("assignments", .arr [assignment "m1" 0 1])])]

def hall : Store :=
  { holding scheduled with live := {
      matchRows := ⟨[{ tournamentId := eventId, id := "m1", courtId := some 1,
                       timeSlot := some 0 }], by decide⟩ } }

theorem m1_bounded : 1 ≤ "m1".length ∧ "m1".length ≤ 100 := by decide

def request (action : MatchAction) (payload : JsonObject) (seen : Nat) : CommandRequest :=
  ⟨"command-1", ⟨"m1", m1_bounded⟩, action, some payload, seen⟩

def toCourtTwo : BoardEvent :=
  .command ambient "desk" (request .assignCourt [("court_id", .int 2), ("time_slot", .int 3)] 1)

def toCourtOne : BoardEvent :=
  .command ambient "desk" (request .assignCourt [("court_id", .int 1), ("time_slot", .int 0)] 1)

def save : BoardEvent :=
  .write sound fresh (("groups", .arr []) :: scheduled) false none true

end Rehearsal

open Rehearsal in
theorem placements_kept_courtOne :
    (served (serveBoard settings platform) hall [toCourtOne, save]).rowOf "m1" =
      some { tournamentId := eventId, id := "m1", courtId := some 1, timeSlot := some 0,
             version := 2, machineVersion := 1 } ∧
    Throughout (serveBoard settings platform) (RowsKept settings platform) hall
      [toCourtOne, save] := by
  have run := placements_kept settings platform hall [toCourtOne, save]
  exact ⟨by decide +kernel, (run.1 (by decide +kernel)).1⟩

open Rehearsal in
/-- A saved document takes the match back to court 1, and counts its version up. -/
theorem placement_undone :
    ¬ Throughout (serveBoard settings platform) (RowsKept settings platform) hall
      [toCourtTwo, save] ∧
    (serveBoard settings platform hall toCourtTwo).rowOf "m1" =
      some { tournamentId := eventId, id := "m1", courtId := some 2, timeSlot := some 3,
             version := 2, machineVersion := 1 } ∧
    Retains (serveBoard settings platform hall toCourtTwo) (("groups", .arr []) :: scheduled) "m1" ∧
    (served (serveBoard settings platform) hall [toCourtTwo, save]).rowOf "m1" =
      some { tournamentId := eventId, id := "m1", courtId := some 1, timeSlot := some 0,
             version := 3, machineVersion := 1 } := by
  decide +kernel

end Documents
