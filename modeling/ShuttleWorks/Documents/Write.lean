import ShuttleWorks.Documents.Matches

/-! Writing a whole document: a backup of the prior one, the version counted up, the roster
ingested and projected, the rows of the matches projected. Each part may commit on its own. -/

namespace Documents
open Lib Competition Operations
open Sync (Uuid getD pyStrip stripWith)

/-! ## Backups -/

def backupKeep : Nat := 10

def slugChar (c : Char) : Bool := c.isAlphanum || c = '-'

/-- Every run of other characters becomes one hyphen. -/
def hyphenate (inRun : Bool) : List Char → List Char
  | [] => []
  | c :: cs =>
    if slugChar c then c :: hyphenate false cs
    else if inRun then hyphenate true cs
    else '-' :: hyphenate true cs

def slugify (p : Entries.Platform) (value : String) : String :=
  textOr (stripWith (fun c => c = '-')
    (String.ofList (hyphenate false (p.lower (pyStrip value)).toList))) "tournament"

def backupFilename (p : Entries.Platform) (x : Fresh) (payload : JsonObject) : String :=
  let name := (objectMember "config" payload).bind (textMember "tournamentName")
  "tournament-" ++ slugify p (textOr name "tournament") ++ "-" ++ x.stamp ++ ".json"

def newestFirst (backups : List TournamentBackup) : List TournamentBackup :=
  backups.mergeSort (fun a b => b.createdAt < a.createdAt ∨ (a.createdAt = b.createdAt ∧ b.id ≤ a.id))

def hourOf (b : TournamentBackup) : Int := b.createdAt / 3600000000

/-- The first backup of each hour that was not seen yet. -/
def thinned (seenHours : List Int) : List TournamentBackup → List TournamentBackup
  | [] => []
  | b :: rest =>
    if hourOf b ∈ seenHours then thinned seenHours rest
    else b :: thinned (hourOf b :: seenHours) rest

/-- The automatic backups that stay: the newest `keep`, and one an hour beyond them. -/
def keptBackups (keep : Nat) (backups : List TournamentBackup) : List TournamentBackup :=
  let rows := (newestFirst backups).filter (fun b => b.origin ≠ .manual)
  rows.take keep ++ thinned ((rows.take keep).map hourOf) (rows.drop keep)

def rotated (keep : Nat) (backups : List TournamentBackup) : List TournamentBackup :=
  backups.filter (fun b => b.origin = .manual ∨ b.id ∈ (keptBackups keep backups).map (·.id))

section

variable (p : Entries.Platform) (db : Database) (x : Fresh)

def commitIf (commit : Bool) (site : Site) : DocumentWork Unit :=
  if commit then Work.commit (db site) else pure ()

/-- The store with one more backup. -/
def withBackup (snapshot : JsonObject) (filename : String) (s : Store) : Store :=
  { s with backups := s.backups ++ [{ id := x.backupId, filename := filename,
                                      snapshot := snapshot, createdAt := x.instant }] }

def createBackup (snapshot : JsonObject) (filename : String) (commit : Bool) :
    DocumentWork Unit := do
  Work.edit (fun s => .ok ((), withBackup x snapshot filename s))
  Work.flush (db .backup)
  commitIf db commit .backupCommit

def withRotation (keep : Nat) (s : Store) : Store := { s with backups := rotated keep s.backups }

def rotateBackups (keep : Nat) (commit : Bool) : DocumentWork Unit := do
  let removed ← Work.edit (fun s =>
    .ok (s.backups.length - (rotated keep s.backups).length, withRotation keep s))
  commitIf db (commit && 0 < removed) .rotationCommit

/-! ## The document -/

def stampPayload (payload : JsonObject) : JsonObject :=
  Assoc.erase "_integrity"
    (Assoc.merge payload [("updatedAt", .str x.nowIso), ("version", .int 1)])

/-- The version a caller expects is reserved together with the write. -/
def reserve (expectedVersion : Option Nat) (s : Store) : Except DocumentError Unit :=
  match expectedVersion with
  | none => .ok ()
  | some expected =>
    if expected = s.stateVersion then .ok ()
    else .error (.live (.conflict
      { matchId := s.tournamentId
        message := "workspace state changed from " ++ toString expected ++ " to " ++
          toString s.stateVersion
        currentVersion := some s.stateVersion
        seenVersion := some expected }))

/-- The store with the document replaced and its version counted up; the roster is ingested from
the document, and projected into it. -/
def replaceDocument (payload : JsonObject) (s : Store) : Except DocumentError Store := do
  let document := stampPayload x payload
  let workspace ← (ingestDocument p s.workspace document).mapError DocumentError.competition
  let row := { s.workspace.tournament with
    data := document, stateVersion := s.stateVersion + 1 }
  .ok { s with workspace := project p { workspace with tournament := row } false }

def upsertData (payload : JsonObject) (expectedVersion : Option Nat) (commit : Bool) :
    DocumentWork Tournament := do
  Work.flush (db .reservation)
  let row ← Work.edit (fun s => do
    reserve expectedVersion s
    let s ← replaceDocument p x payload s
    .ok (s.workspace.tournament, s))
  Work.flush (db .state)
  commitIf db commit .stateCommit
  pure row

/-- The store with the rows of a document's matches, and how many rows were touched. -/
def projectPayload (payload : JsonObject) (s : Store) : Except DocumentError (Nat × Store) := do
  let (touched, live) ← bulkProjectFromSchedule s.tournamentId payload s.live
  .ok (touched, { s with live := live })

/-- The projection of a document's matches commits where it touched a row. -/
def projectMatchesFromPayload (payload : JsonObject) : DocumentWork Unit := do
  let touched ← Work.edit (projectPayload payload)
  commitIf db (0 < touched) .projectionCommit

/-! ## The setup document -/

def sectionData (setup : JsonObject) (key : String) : JsonObject :=
  ((objectMember key setup).bind (objectMember "data")).getD []

/-- `section.get(key)`, where it is truthy. -/
def truthyOf (key : String) (data : JsonObject) : Option Json :=
  (Assoc.get key data).filter Json.truthy

/-- `str(value)[:10]`, for the texts a setup section holds. -/
def firstTen (value : Json) : Json :=
  match value with
  | .str s => .str (String.ofList (s.toList.take 10))
  | j => j

def ruleFields : List (String × String) :=
  [("scoring", "scoringFormat"), ("setsToWin", "setsToWin"), ("pointsPerSet", "pointsPerSet"),
    ("deuceEnabled", "deuceEnabled"), ("defaultRestMinutes", "defaultRestMinutes")]

/-- What the setup document says about the config, field by field. -/
def setupConfig (setup : JsonObject) : JsonObject :=
  let field (key : String) (value : Option Json) : JsonObject :=
    match value with
    | some v => [(key, v)]
    | none => []
  let rules := sectionData setup "rules"
  field "tournamentName" (truthyOf "name" (sectionData setup "general")) ++
    field "tournamentDate" ((truthyOf "tournamentStart" (sectionData setup "dates")).map firstTen) ++
    field "courtCount" (match Assoc.get "courts" (sectionData setup "venue") with
      | some (.arr (c :: cs)) => some (.int (c :: cs).length)
      | _ => none) ++
    ruleFields.flatMap (fun f =>
      field f.2 ((Assoc.get f.1 rules).filter (fun v => decide (v ≠ .null))))

/-- Keep the config subordinate to the setup document. -/
def projectCanonicalSetup (document : JsonObject) : JsonObject :=
  match objectMember "setup" document with
  | none => document
  | some setup =>
    let config := Assoc.merge ((objectMember "config" document).getD []) (setupConfig setup)
    if config = [] then document else Assoc.set "config" (.obj config) document

/-! ## Committing a state -/

def serverKeys : List String := ["bracket_session", "setup", "activity"]

def keepServerKeys (prior payload : JsonObject) : JsonObject :=
  serverKeys.foldl (fun merged key =>
    match Assoc.get key prior with
    | some v => if (Assoc.get key merged).isNone then Assoc.set key v merged else merged
    | none => merged) payload

def dropBracketAssignments (document : JsonObject) : JsonObject :=
  match objectMember "bracket_session" document with
  | none => document
  | some session => Assoc.set "bracket_session" (.obj (Assoc.erase "assignments" session)) document

/-- The document that a payload is stored as. -/
def mergedDocument (prior payload : JsonObject) (clearBracketAssignments : Bool) : JsonObject :=
  let merged := projectCanonicalSetup (keepServerKeys prior payload)
  if clearBracketAssignments then dropBracketAssignments merged else merged

/-- An empty document is not worth a backup. -/
def backUp (prior : JsonObject) (commit : Bool) : DocumentWork Unit :=
  if prior = [] then pure ()
  else do
    createBackup db x prior (backupFilename p x prior) commit
    rotateBackups db backupKeep commit

/-- The document replaced, and the matches of the payload projected. -/
def saveDocument (document payload : JsonObject) (expectedVersion : Option Nat) (commit : Bool) :
    DocumentWork Tournament := do
  let row ← upsertData p db x document expectedVersion commit
  projectMatchesFromPayload db payload
  pure row

def commitTournamentState (payload : JsonObject) (clearBracketAssignments : Bool)
    (expectedVersion : Option Nat) (commit : Bool) : DocumentWork Tournament := do
  let s ← Work.read
  backUp p db x s.data commit
  let row ← saveDocument p db x (mergedDocument s.data payload clearBracketAssignments) payload
    expectedVersion commit
  Work.flush (db .projected)
  pure row

/-- `None` where the backup is missing. -/
def restoreTournamentFromBackup (filename : String) : DocumentWork Tournament := do
  let s ← Work.read
  match s.backups.find? (fun b => b.filename = filename) with
  | none => Work.raise (.fileNotFound filename)
  | some backup => saveDocument p db x backup.snapshot backup.snapshot none true

/-! ## What an accepted write leaves -/

def backedUp (s : Store) : Store :=
  if s.data = [] then s
  else withRotation backupKeep (withBackup x s.data (backupFilename p x s.data) s)

/-- The store with the document replaced and the matches of the payload projected. -/
def Saved (document payload : JsonObject) (s s' : Store) : Prop :=
  ∃ s₁ touched, replaceDocument p x document s = .ok s₁ ∧
    projectPayload payload s₁ = .ok (touched, s')

/-- The store that an accepted write leaves. -/
structure Written (payload : JsonObject) (clearBracketAssignments : Bool)
    (expectedVersion : Option Nat) (s s' : Store) : Prop where
  expected : reserve expectedVersion s = .ok ()
  saved : Saved p x (mergedDocument s.data payload clearBracketAssignments) payload
    (backedUp p x s) s'

section

variable {p : Entries.Platform} {db : Database} {x : Fresh} {document payload : JsonObject}
  {clearBracketAssignments commit : Bool} {expectedVersion : Option Nat} {s s' : Store}
  {y : Session Store} {site : Site} {I : Store → Prop} {prior : JsonObject}

theorem commitIf_ends {Q : Unit → Session Store → Prop} {E : Session Store → Prop} :
    (commitIf db commit site).Ends Q E y ↔
      (commit = true → (db site = none → Q () ⟨y.working, y.working⟩) ∧ ((db site).isSome → E y)) ∧
      (commit = false → Q () y) := by
  cases commit <;> simp [commitIf]

theorem commitIf_keeps :
    Work.Keeps I (commitIf db commit site) :=
  .ite (.commit _) (.pure _)

theorem backUp_keeps (h : ∀ s backups, I s → I { s with backups := backups }) (prior : JsonObject) :
    Work.Keeps I (backUp p db x prior commit) := by
  refine .ite (.pure _) (.bind (.bind (.edit ?_) fun _ => .bind (.flush _) fun _ => commitIf_keeps)
    fun _ => .bind (.edit ?_) fun _ => commitIf_keeps)
  · rintro s ⟨⟩ s' kept ok
    cases ok
    exact h _ _ kept
  · rintro s _ s' kept ok
    cases ok
    exact h _ _ kept

theorem upsertData_keeps (h : ∀ s s', I s → replaceDocument p x payload s = .ok s' → I s') :
    Work.Keeps I (upsertData p db x payload expectedVersion commit) := by
  refine .bind (.flush _) fun _ => .bind (.edit ?_) fun _ => .bind (.flush _) fun _ =>
    .bind commitIf_keeps fun _ => .pure _
  intro s row s' kept ok
  simp only [bind_eq_ok] at ok
  obtain ⟨_, -, s₁, replaced, ok⟩ := ok
  cases ok
  exact h s s' kept replaced

theorem backUp_ends :
    (backUp p db x y.working.data commit).Ends
      (fun _ y' => y'.working = backedUp p x y.working ∧
        (commit = false → y'.committed = y.committed))
      (fun y' => commit = false → y'.committed = y.committed) y := by
  unfold backUp backedUp
  by_cases empty : y.working.data = []
  · simp [empty]
  · cases commit <;> simp [empty, createBackup, rotateBackups, commitIf_ends]

theorem upsertData_ends :
    (upsertData p db x payload expectedVersion commit).Ends
      (fun row y' => reserve expectedVersion y.working = .ok () ∧
        replaceDocument p x payload y.working = .ok y'.working ∧
        row = y'.working.workspace.tournament ∧
        y'.committed = if commit then y'.working else y.committed)
      (fun y' => y'.committed = y.committed) y := by
  simp only [upsertData, Work.ends_bind, Work.ends_flush, Work.ends_edit, Work.ends_pure,
    commitIf_ends, bind_eq_ok, implies_true, and_true]
  rintro - row s ⟨⟨⟩, reserved, s', replaced, done⟩ -
  cases done
  cases commit <;> simp [reserved, replaced]

theorem projectMatchesFromPayload_ends :
    (projectMatchesFromPayload db payload).Ends
      (fun _ y' => ∃ touched, projectPayload payload y.working = .ok (touched, y'.working) ∧
        y'.committed = if 0 < touched then y'.working else y.committed)
      (fun y' => y'.committed = y.committed) y := by
  simp only [projectMatchesFromPayload, Work.ends_bind, Work.ends_edit, commitIf_ends,
    implies_true, and_true]
  intro touched s projected
  rcases Nat.eq_zero_or_pos touched with rfl | some
  · simp [projected]
  · simp [some, Nat.ne_of_gt some, projected]

theorem reserve_backedUp : reserve expectedVersion (backedUp p x s) = reserve expectedVersion s := by
  unfold backedUp
  split <;> rfl

theorem projectPayload_frame {touched : Nat} (h : projectPayload payload s = .ok (touched, s')) :
    ∃ live, bulkProjectFromSchedule s.tournamentId payload s.live = .ok (touched, live) ∧
      s' = { s with live := live } := by
  simp only [projectPayload, bind_eq_ok] at h
  obtain ⟨⟨n, live⟩, projected, h⟩ := h
  cases h
  exact ⟨live, projected, rfl⟩

theorem projectPayload_untouched (h : projectPayload payload s = .ok (0, s')) : s' = s := by
  obtain ⟨live, projected, rfl⟩ := projectPayload_frame h
  rw [bulkProject_projected projected ((bulkProject_touched projected).mp rfl)]

theorem saveDocument_ends :
    (saveDocument p db x document payload expectedVersion commit).Ends
      (fun row y' => reserve expectedVersion y.working = .ok () ∧
        ∃ s₁ touched, replaceDocument p x document y.working = .ok s₁ ∧
          projectPayload payload s₁ = .ok (touched, y'.working) ∧
          row = y'.working.workspace.tournament ∧
          y'.committed = if 0 < touched ∨ commit = true then y'.working else y.committed)
      (fun y' => y'.committed = y.committed ∨
        commit = true ∧ replaceDocument p x document y.working = .ok y'.committed) y := by
  unfold saveDocument
  refine Work.ends_bind.mpr (upsertData_ends.mono (fun row y₁ upserted => ?_)
    (fun _ same => .inl same))
  obtain ⟨reserved, replaced, rfl, committed⟩ := upserted
  refine Work.ends_bind.mpr (projectMatchesFromPayload_ends.mono (fun _ y₂ projected => ?_)
    (fun y₂ same => ?_))
  · obtain ⟨touched, projected, committed₂⟩ := projected
    obtain ⟨live, -, same⟩ := projectPayload_frame projected
    have row : y₂.working.workspace = y₁.working.workspace := by rw [same]
    refine ⟨reserved, y₁.working, touched, replaced, projected, by rw [row], ?_⟩
    rw [committed₂, committed]
    rcases Nat.eq_zero_or_pos touched with rfl | some
    · rw [projectPayload_untouched projected]
      simp
    · simp [some]
  · rw [same, committed]
    cases commit
    · exact .inl rfl
    · exact .inr ⟨rfl, replaced⟩

/-- **A write that is accepted has replaced the document and projected its matches.** -/
theorem commitTournamentState_ends :
    (commitTournamentState p db x payload clearBracketAssignments expectedVersion commit).Ends
      (fun row y => Written p x payload clearBracketAssignments expectedVersion s y.working ∧
        row = y.working.workspace.tournament ∧ (commit = true → y.committed = y.working))
      (fun _ => True) (.opened s) := by
  unfold commitTournamentState
  refine Work.ends_bind.mpr (Work.ends_read.mpr (Work.ends_bind.mpr ?_))
  refine backUp_ends.mono (fun _ y backed => ?_) (fun _ _ => trivial)
  refine Work.ends_bind.mpr (saveDocument_ends.mono (fun row y₁ saved => ?_) (fun _ _ => trivial))
  obtain ⟨reserved, s₁, touched, replaced, projected, rfl, committed⟩ := saved
  rw [backed.1] at reserved replaced
  have written : Written p x payload clearBracketAssignments expectedVersion s y₁.working :=
    ⟨reserve_backedUp.symm.trans reserved, s₁, touched, replaced, projected⟩
  simp only [Work.ends_bind, Work.ends_flush, Work.ends_pure, implies_true, and_true]
  exact fun _ => ⟨written, trivial, fun commits => by rw [committed, if_pos (.inr commits)]⟩

theorem projectMatchesFromPayload_keeps
    (h : ∀ s touched s', I s → projectPayload payload s = .ok (touched, s') → I s') :
    Work.Keeps I (projectMatchesFromPayload db payload) :=
  .bind (.edit h) fun _ => commitIf_keeps

theorem commitTournamentState_keeps (backups : ∀ s backups, I s → I { s with backups := backups })
    (replaced : ∀ document s s', I s → replaceDocument p x document s = .ok s' → I s')
    (projected : ∀ s touched s', I s → projectPayload payload s = .ok (touched, s') → I s') :
    Work.Keeps I (commitTournamentState p db x payload clearBracketAssignments expectedVersion
      commit) := by
  refine .bind .read fun s => .bind (backUp_keeps backups s.data) fun _ => .bind ?_ fun row =>
    .bind (.flush _) fun _ => .pure row
  exact .bind (upsertData_keeps (replaced _)) fun row =>
    .bind (projectMatchesFromPayload_keeps projected) fun _ => .pure row

/-! ## What an accepted write commits -/

/-- A write on its own, or in a transaction that its caller commits. -/
def documentWrite (p : Entries.Platform) (db : Database) (x : Fresh) (payload : JsonObject)
    (clearBracketAssignments : Bool) (expectedVersion : Option Nat) (commit : Bool) :
    DocumentWork Tournament := do
  let row ← commitTournamentState p db x payload clearBracketAssignments expectedVersion commit
  commitIf db (!commit) .requestCommit
  pure row

/-- **An accepted write has committed the replaced document and its projected matches.** -/
theorem documentWrite_ends :
    (documentWrite p db x payload clearBracketAssignments expectedVersion commit).Ends
      (fun row y => y.committed = y.working ∧
        Written p x payload clearBracketAssignments expectedVersion s y.working ∧
        row = y.working.workspace.tournament)
      (fun _ => True) (.opened s) := by
  unfold documentWrite
  cases commit with
  | true =>
    refine Work.ends_bind.mpr (commitTournamentState_ends.mono (fun row y done => ?_)
      (fun _ _ => trivial))
    simp only [Bool.not_true, Work.ends_bind, commitIf_ends, Work.ends_pure]
    simpa using ⟨done.2.2 rfl, done.1, done.2.1⟩
  | false =>
    refine Work.ends_bind.mpr (commitTournamentState_ends.mono (fun row y done => ?_)
      (fun _ _ => trivial))
    simp only [Bool.not_false, Work.ends_bind, commitIf_ends, Work.ends_pure]
    simpa using fun _ => ⟨done.1, done.2.1⟩

/-! ## The document it leaves -/

/-- The document as the projection leaves it: the one it was given where nothing differs. -/
def keptDocument (p : Entries.Platform) (workspace : Workspace) : JsonObject :=
  if Json.same (.obj (projectedDocument p workspace)) (.obj workspace.tournament.data) then
    workspace.tournament.data
  else projectedDocument p workspace

theorem project_tournament (workspace : Workspace) :
    (project p workspace false).tournament =
      { workspace.tournament with data := keptDocument p workspace } := by
  obtain ⟨participants, h⟩ := projectBrackets_frame workspace.events.rows _
  unfold project
  dsimp only
  rw [h]
  unfold keptDocument
  split <;> rfl

theorem replaceDocument_frame (h : replaceDocument p x payload s = .ok s') :
    s'.live = s.live ∧ s'.backups = s.backups ∧ s'.regulations = s.regulations ∧
      s'.tournamentId = s.tournamentId ∧ s'.stateVersion = s.stateVersion + 1 := by
  simp only [replaceDocument, bind_eq_ok] at h
  obtain ⟨workspace, -, h⟩ := h
  cases h
  refine ⟨rfl, rfl, rfl, ?_, ?_⟩
  · rw [Store.tournamentId, project_tournament]
    rfl
  · rw [Store.stateVersion, project_tournament]

theorem backedUp_frame : (backedUp p x s).workspace = s.workspace ∧
    (backedUp p x s).live = s.live := by
  unfold backedUp
  split <;> exact ⟨rfl, rfl⟩

theorem Written.frame (h : Written p x payload clearBracketAssignments expectedVersion s s') :
    s'.tournamentId = s.tournamentId ∧ s'.stateVersion = s.stateVersion + 1 ∧
      ∃ touched, bulkProjectFromSchedule s.tournamentId payload s.live = .ok (touched, s'.live) := by
  obtain ⟨-, s₁, touched, replaced, projected⟩ := h
  obtain ⟨live, rows, rfl⟩ := projectPayload_frame projected
  obtain ⟨live₁, -, -, id, version⟩ := replaceDocument_frame replaced
  obtain ⟨workspace, live₀⟩ := backedUp_frame (p := p) (x := x) (s := s)
  have own : (backedUp p x s).tournamentId = s.tournamentId := by rw [Store.tournamentId, workspace]; rfl
  have counted : (backedUp p x s).stateVersion = s.stateVersion := by
    rw [Store.stateVersion, workspace]; rfl
  rw [id, own, live₁, live₀] at rows
  exact ⟨id.trans own, version.trans (by rw [counted]), touched, rows⟩

/-! ## The members it leaves -/

def rewrittenKeys : List String :=
  ["_integrity", "updatedAt", "version", "groups", "players", "bracketPlayers"]

def keptKeys : List String := ["bracket_session", "setup", "activity", "config"]

theorem get_projectedDocument {ws : Workspace} {key : String} (other : key ∉ rewrittenKeys) :
    Assoc.get key (projectedDocument p ws) = Assoc.get key ws.tournament.data := by
  simp only [rewrittenKeys, List.mem_cons, List.not_mem_nil, or_false, not_or] at other
  unfold projectedDocument
  dsimp only
  split
  · rw [Assoc.get_set_of_ne (Ne.symm other.2.2.2.2.2)]
  · rw [Assoc.get_set_of_ne (Ne.symm other.2.2.2.1), Assoc.get_set_of_ne (Ne.symm other.2.2.2.2.1)]

theorem get_stampPayload {key : String} (other : key ∉ rewrittenKeys) :
    Assoc.get key (stampPayload x document) = Assoc.get key document := by
  simp only [rewrittenKeys, List.mem_cons, List.not_mem_nil, or_false, not_or] at other
  rw [stampPayload, Assoc.get_erase_of_ne (Ne.symm other.1),
    Assoc.get_merge_of_not_mem (by simp [Assoc.keys, other.2.1, other.2.2.1])]

theorem get_replaceDocument {key : String} (h : replaceDocument p x document s = .ok s')
    (other : key ∉ rewrittenKeys) : Assoc.get key s'.data = Assoc.get key document := by
  simp only [replaceDocument, bind_eq_ok] at h
  obtain ⟨workspace, -, h⟩ := h
  cases h
  rw [Store.data, project_tournament]
  dsimp only
  unfold keptDocument
  split
  · exact get_stampPayload other
  · rw [get_projectedDocument other]
    exact get_stampPayload other

theorem get_keepServerKeys {key : String} (other : key ∉ serverKeys) :
    Assoc.get key (keepServerKeys prior payload) = Assoc.get key payload := by
  unfold keepServerKeys
  suffices ∀ keys : List String, key ∉ keys → ∀ merged : JsonObject,
      Assoc.get key (keys.foldl (fun merged key =>
        match Assoc.get key prior with
        | some v => if (Assoc.get key merged).isNone then Assoc.set key v merged else merged
        | none => merged) merged) = Assoc.get key merged from this _ other _
  intro keys other
  induction keys with
  | nil => exact fun _ => rfl
  | cons k keys ih =>
    intro merged
    rw [List.mem_cons, not_or] at other
    rw [List.foldl_cons, ih other.2]
    split
    · split
      · exact Assoc.get_set_of_ne (Ne.symm other.1) _ _
      · rfl
    · rfl

theorem get_projectCanonicalSetup {key : String} (other : key ≠ "config") :
    Assoc.get key (projectCanonicalSetup document) = Assoc.get key document := by
  unfold projectCanonicalSetup
  split
  · rfl
  · dsimp only
    split
    · rfl
    · exact Assoc.get_set_of_ne other.symm _ _

theorem get_dropBracketAssignments {key : String} (other : key ≠ "bracket_session") :
    Assoc.get key (dropBracketAssignments document) = Assoc.get key document := by
  unfold dropBracketAssignments
  split
  · rfl
  · exact Assoc.get_set_of_ne other.symm _ _

theorem get_mergedDocument {key : String} (other : key ∉ keptKeys) :
    Assoc.get key (mergedDocument prior payload clearBracketAssignments) =
      Assoc.get key payload := by
  simp only [keptKeys, List.mem_cons, List.not_mem_nil, or_false, not_or] at other
  have merged : Assoc.get key (projectCanonicalSetup (keepServerKeys prior payload)) =
      Assoc.get key payload := by
    rw [get_projectCanonicalSetup other.2.2.2, get_keepServerKeys (by simp [serverKeys, other])]
  unfold mergedDocument
  dsimp only
  split
  · rw [get_dropBracketAssignments other.1, merged]
  · exact merged

theorem Saved.data_eq (h : Saved p x document payload s s') :
    ∃ s₁, replaceDocument p x document s = .ok s₁ ∧ s'.data = s₁.data := by
  obtain ⟨s₁, touched, replaced, projected⟩ := h
  obtain ⟨live, -, rfl⟩ := projectPayload_frame projected
  exact ⟨s₁, replaced, rfl⟩

theorem Written.get_member {key : String}
    (h : Written p x payload clearBracketAssignments expectedVersion s s')
    (other : key ∉ rewrittenKeys) (free : key ∉ keptKeys) :
    Assoc.get key s'.data = Assoc.get key payload := by
  obtain ⟨s₁, replaced, same⟩ := h.saved.data_eq
  rw [same, get_replaceDocument replaced other, get_mergedDocument free]

end

end

end Documents
