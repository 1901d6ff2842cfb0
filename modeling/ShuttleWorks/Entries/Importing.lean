import ShuttleWorks.Entries.Idempotency

/-! Imported batches. An import is checked as a whole before its first write, and its submissions
are recorded one after the other in one transaction. A lost race for a key rolls that transaction
back and carries on, so what was recorded before it is gone though it stays in the result. -/

namespace Entries
open Lib
open Sync (Uuid pyStrip)

variable {p : Platform} {l : Locking} {first : List Uuid}

/-! ## The request -/

structure ImportPlayer where
  sourceKey : String
  fullName : String
  gender : String
  club : Option String := none
  representation : Option String := none
  birthYear : Option Int := none
  remarks : Option String := none
  eventIds : List Uuid
  partners : List (Uuid × String) := []

structure ImportSubmission where
  sourceKey : String
  idempotencyKey : String
  accountId : Uuid
  players : List ImportPlayer
  feeTotalCents : Option Int := none
  feeBasis : Option FeeBasis := none
  emailVerified : Bool := true

structure ImportBatch where
  sourceKey : String
  submissions : List ImportSubmission

/-! ## Checks before the first write -/

/-- The events of a player: each named once, and there. -/
def resolveEvents (r : Registry) (player : String) : List Uuid → List Uuid → Except Refused Unit
  | _, [] => .ok ()
  | seen, id :: ids => do
    require (id ∉ seen) (.invalid s!"duplicate eventId for player {player}: {id}")
    require (r.events.Has id) (.invalid s!"entry event not found in tournament: {id}")
    resolveEvents r player (id :: seen) ids

def resolvePlayers (r : Registry) :
    List String → List ImportPlayer → Except Refused (List PlayerInput)
  | _, [] => .ok []
  | seen, player :: players => do
    let source := pyStrip player.sourceKey
    require (source ≠ "") (.invalid "player sourceKey must not be empty")
    require (source ∉ seen) (.invalid s!"duplicate player sourceKey: {source}")
    resolveEvents r source [] player.eventIds
    let rest ← resolvePlayers r (source :: seen) players
    .ok ({ fullName := player.fullName, gender := player.gender, club := player.club
           representation := player.representation, birthYear := player.birthYear
           remarks := player.remarks, events := player.eventIds
           partners := player.partners } :: rest)

/-- The submissions of a batch: no source key and no identity is there twice. -/
def resolveSubmissions (r : Registry) :
    List String → List (Uuid × String) → List ImportSubmission →
      Except Refused (List SubmissionForm)
  | _, _, [] => .ok []
  | sources, identities, s :: rest => do
    let source := pyStrip s.sourceKey
    let key := pyStrip s.idempotencyKey
    require (source ≠ "" ∧ key ≠ "")
      (.invalid "submission sourceKey and idempotencyKey must not be empty")
    require (source ∉ sources) (.invalid s!"duplicate submission sourceKey: {source}")
    require ((s.accountId, key) ∉ identities) (.invalid s!"duplicate idempotencyKey: {key}")
    let account := s.accountId
    let _ ← found (Assoc.get account r.accounts)
      (.invalid s!"entrant account not found: {account}")
    let players ← resolvePlayers r [] s.players
    let forms ← resolveSubmissions r (source :: sources) ((s.accountId, key) :: identities) rest
    .ok ({ accountId := s.accountId, players := players, feeTotalCents := s.feeTotalCents
           feeBasis := s.feeBasis, idempotencyKey := some key
           emailVerified := s.emailVerified } :: forms)

def resolveBatch (r : Registry) (batch : ImportBatch) : Except Refused (List SubmissionForm) := do
  require (pyStrip batch.sourceKey ≠ "") (.invalid "sourceKey must not be empty")
  resolveSubmissions r [] [] batch.submissions

/-! ## Transactions of a batch -/

/-- An import whose checks passed on the rows it read. -/
structure Import where
  read : Registry
  batch : ImportBatch
  forms : List SubmissionForm
  resolved : resolveBatch read batch = .ok forms
  draws : Nat → Draws

/-- `_persist_import_batch` makes one call for each submission. -/
def Import.calls (i : Import) : List CreateCall :=
  i.forms.mapIdx fun n form =>
    { form := form, page := i.read.page, now := (i.draws n).now, uuid4 := (i.draws n).uuid4
      tokenUrlsafe := (i.draws n).tokenUrlsafe }

inductive EntryRequest
  | submit (call : CreateCall)
  | importEntries (i : Import)

def EntryRequest.calls : EntryRequest → List CreateCall
  | .submit call => [call]
  | .importEntries i => i.calls

/-- The line of a call in the result of its batch. -/
structure ImportResult where
  idempotencyKey : Option String
  submissionId : Uuid
  replayed : Bool
  playersCreated : Nat
  entriesCreated : Nat
  deriving DecidableEq

def CreateAnswer.importResult (a : CreateAnswer) : ImportResult where
  idempotencyKey := a.call.form.idempotencyKey
  submissionId := a.result.submission
  replayed := a.result.replayed
  playersCreated := if a.result.replayed then 0 else a.players.length
  entriesCreated := if a.result.replayed then 0 else a.result.entries.length

/-- A line of a result says what is stored: the act is there for its account and key, and a new
act has its players and entries as reported. -/
def Stored (r : Registry) (a : CreateAnswer) : Prop :=
  ∃ x ∈ r.submissions.rows, x.id = a.importResult.submissionId ∧ ActOf a.call x ∧
    (a.importResult.replayed = false →
      (entriesOf r x.id).length = a.importResult.entriesCreated ∧
      a.players.length = a.importResult.playersCreated ∧
      (∀ id ∈ a.players, r.players.Has id) ∧
      (entriesOf r x.id).map Entry.id = a.result.entries ∧
      Entered a.call.form.players a.players (ofAct (cores r) x.id))

theorem stored_of_known {r : Registry} {a : CreateAnswer}
    (h : Known r.submissions.rows (cores r) r.players.Has a) : Stored r a := by
  obtain ⟨x, hx, id, act, entries, entered, players⟩ := h
  rw [← ids_entriesOf] at entries
  refine ⟨x, hx, id, act, fun fresh => ?_⟩
  have fresh : a.result.replayed = false := fresh
  refine ⟨?_, ?_, players, entries.symm, entered fresh⟩
  · simp only [CreateAnswer.importResult, fresh, entries, List.length_map]
    rfl
  · simp only [CreateAnswer.importResult, fresh]
    rfl

/-- Of every transaction either all is stored that it answered, or nothing: what the committed
ones answered is there, and every act that was added is one that a committed one answered. -/
structure AllOrNothing (first : List Uuid) (books : Books) : Prop where
  returned : ∀ a ∈ books.answers, Stored books.registry a
  raised : books.registry.submissions.rows.map Submission.id = first ++ recorded books.answers
  entries : ∀ e ∈ books.registry.entries.rows, ∀ id, e.submissionId = some id →
    id ∈ first ∨ ∃ a ∈ books.answers, a.result.replayed = false ∧ a.result.submission = id ∧
      e.id ∈ a.result.entries

/-- **A batch is all or nothing while its races are lost first**: in every run in which no
transaction loses the race for a key after it recorded an act. -/
theorem import_all_or_nothing {registry : Registry} (lawful : Lawful registry)
    {s : Interleaved Books CreateTx}
    (h : Reachable (fun s => s = ⟨⟨registry, []⟩, []⟩)
      (Interleaved.Steps (fun request : EntryRequest => CreateTx.start request.calls)
        (CreateTx.exec p l) LosesFirst) s) :
    AllOrNothing (registry.submissions.rows.map Submission.id) s.store := by
  have fits : Interleaved.Fits (Sane (registry.submissions.rows.map Submission.id))
      (fun books tx => Fitting books.registry tx) (Apart CreateTx.locks) s := by
    apply Interleaved.Fits.reachable (recording_rule EntryRequest.calls) ?_ h
    rintro s rfl
    exact ⟨lawful.sane, by simp, List.Pairwise.nil⟩
  have sane := fits.store
  refine ⟨fun a ha => stored_of_known (sane.known a ha), sane.counted, ?_⟩
  intro e he id act
  have has := sane.billed e.core (List.mem_map_of_mem he) id act
  rw [Table.Has, sane.counted, List.mem_append] at has
  refine has.imp_right fun mem => ?_
  obtain ⟨a, ha, same⟩ := List.mem_map.mp mem
  obtain ⟨ha, fresh⟩ := List.mem_filter.mp ha
  obtain ⟨x, -, named, -, entries, -⟩ := sane.known a ha
  refine ⟨a, ha, by simpa using fresh, same, ?_⟩
  rw [entries, ← ids_entriesOf, named, same]
  refine List.mem_map_of_mem (List.mem_filter.mpr ⟨he, ?_⟩)
  simpa using act

/-! ## A batch of two -/

def guests : Registry :=
  { hall.registry with accounts := [("ann", "ann@hall.org"), ("bob", "bob@hall.org")] }

def item (account : Uuid) (key : String) : ImportSubmission where
  sourceKey := account
  idempotencyKey := key
  accountId := account
  players := [{ sourceKey := "1", fullName := account, gender := "F", eventIds := ["md"] }]

def pair : Import where
  read := guests
  batch := ⟨"file", [item "ann" "a", item "bob" "b"]⟩
  forms := [("ann", "a"), ("bob", "b")].map fun (account, key) =>
    { accountId := account, feeTotalCents := none, feeBasis := none
      players := [{ fullName := account, gender := "F", events := ["md"] }]
      idempotencyKey := some key }
  resolved := rfl
  draws n := ⟨1, fun k => toString n ++ letters.uuid4 k, letters.tokenUrlsafe⟩

/-- The batch beside a submission that records its act in the middle of it: `ahead` flushes of the
batch, then the whole submission, then the rest of the batch. -/
def beside (call : CreateCall) (ahead : Nat) : List (Interleaved.Move EntryRequest) :=
  [.start (.importEntries pair), .start (.submit call)] ++ List.replicate ahead (.run 0) ++
    List.replicate 8 (.run 1) ++ List.replicate 11 (.run 0)

/-- The batch loses its first key before it recorded anything, and is whole. -/
theorem import_all_or_nothing_first :
    let s := Interleaved.after (fun request : EntryRequest => CreateTx.start request.calls)
      (CreateTx.exec letters .rows) ⟨⟨guests, []⟩, []⟩ (beside (keyed "ann" "a" "w") 1)
    AllOrNothing [] s.store ∧
      s.store.answers.map (fun a => (a.importResult.submissionId, a.importResult.replayed)) =
        [("wu", false), ("wu", true), ("1u", false)] := by
  intro s
  have lawful : Lawful guests := ⟨List.Pairwise.nil, by simp [guests, hall, Table.empty]⟩
  refine ⟨import_all_or_nothing lawful (Interleaved.Along.reachable (.init rfl) ?_), ?_⟩
  · show Interleaved.Along _ _ _ _ (beside (keyed "ann" "a" "w") 1)
    decide +kernel
  · decide +kernel

/-- The batch loses its second key: its first submission is rolled back and answered as recorded,
and the import returns. -/
theorem import_loses_recorded :
    ¬ ∀ (p : Platform) (l : Locking) (registry : Registry), Lawful registry →
      ∀ s, Reachable (fun s => s = ⟨⟨registry, []⟩, []⟩)
        (Interleaved.Steps (fun request : EntryRequest => CreateTx.start request.calls)
          (CreateTx.exec p l) fun _ _ _ => True) s →
        AllOrNothing (registry.submissions.rows.map Submission.id) s.store := by
  intro always
  have lawful : Lawful guests := ⟨List.Pairwise.nil, by simp [guests, hall, Table.empty]⟩
  let s := Interleaved.after (fun request : EntryRequest => CreateTx.start request.calls)
    (CreateTx.exec letters .rows) ⟨⟨guests, []⟩, []⟩ (beside (keyed "bob" "b" "w") 8)
  have reached : Reachable (fun s => s = ⟨⟨guests, []⟩, []⟩)
      (Interleaved.Steps (fun request : EntryRequest => CreateTx.start request.calls)
        (CreateTx.exec letters .rows) fun _ _ _ => True) s := by
    refine Interleaved.Along.reachable (.init rfl) ?_
    show Interleaved.Along _ _ _ _ (beside (keyed "bob" "b" "w") 8)
    decide +kernel
  have whole := always letters .rows guests lawful s reached
  have answered : s.store.answers.map (fun a => a.importResult.submissionId) =
      ["wu", "0u", "wu"] := by decide +kernel
  have rows : s.store.registry.submissions.rows.map Submission.id = ["wu"] := by decide +kernel
  have mem : "0u" ∈ s.store.answers.map (fun a => a.importResult.submissionId) := by
    rw [answered]
    decide
  obtain ⟨a, ha, same⟩ := List.mem_map.mp mem
  obtain ⟨x, hx, id, -⟩ := whole.returned a ha
  have stored := List.mem_map_of_mem (f := Submission.id) hx
  rw [rows, id, same] at stored
  simp at stored

end Entries
