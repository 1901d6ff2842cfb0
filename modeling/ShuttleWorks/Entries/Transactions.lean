import ShuttleWorks.Entries.Submissions
import ShuttleWorks.Lib.Interleaving

/-! Acts recorded side by side. A transaction records one call of `create_submission` after the
other, flush by flush: each flush is decided by what is committed and by what the transaction wrote
itself, and waits for the rows and index entries that others hold. An integrity error rolls the
transaction back, which takes away all that it wrote, and the key is looked up once more. -/

namespace Entries
open Lib
open Sync (Uuid)

deriving instance DecidableEq for Submission, EntryPlayer, Entry, PartnerInvitation

/-! ## Rows written -/

/-- Rows that are written back as they are, or read for update, to keep others waiting. -/
inductive SharedRow
  | page
  | tournament
  | event (id : Uuid)
  deriving DecidableEq

inductive RowWrite
  | submission (s : Submission)
  | player (x : EntryPlayer)
  | entry (e : Entry)
  | invitation (i : PartnerInvitation)
  | touch (row : SharedRow)
  deriving DecidableEq

/-- An entry of a primary key or of a unique index. -/
inductive RowKey
  | submission (id : Uuid)
  | act (account : Uuid) (key : String)
  | player (id : Uuid)
  | entry (id : Uuid)
  | invitation (id : Uuid)
  | token (hash : String)
  | row (row : SharedRow)
  deriving DecidableEq

def RowWrite.keys : RowWrite → List RowKey
  | .submission s => .submission s.id :: (s.idempotencyKey.map (RowKey.act s.accountId)).toList
  | .player x => [.player x.id]
  | .entry e => [.entry e.id]
  | .invitation i => .invitation i.id :: (i.tokenHash.map RowKey.token).toList
  | .touch row => [.row row]

namespace Registry

def write (r : Registry) : RowWrite → Registry
  | .submission s => { r with submissions := r.submissions.put s }
  | .player x => { r with players := r.players.put x }
  | .entry e => { r with entries := r.entries.put e }
  | .invitation i => { r with invitations := r.invitations.put i }
  | .touch _ => r

def writeAll (r : Registry) (ws : List RowWrite) : Registry := ws.foldl write r

@[simp] theorem writeAll_nil (r : Registry) : r.writeAll [] = r := rfl

theorem writeAll_append (r : Registry) (ws ws' : List RowWrite) :
    r.writeAll (ws ++ ws') = (r.writeAll ws).writeAll ws' := List.foldl_append

/-- The rows that a flush sends. -/
def changes (r r' : Registry) : List RowWrite :=
  (r.submissions.changes r'.submissions).map .submission ++
    (r.players.changes r'.players).map .player ++
    (r.entries.changes r'.entries).map .entry ++
    (r.invitations.changes r'.invitations).map .invitation

end Registry

/-! ## Calls and transactions -/

/-- The clock, ids and tokens of a request. -/
structure Draws where
  now : Instant
  uuid4 : Nat → Uuid
  tokenUrlsafe : Nat → String

/-- One call of `create_submission`: the form, the entry page it was read with if there is one, the
clock, and the ids and tokens it draws. -/
structure CreateCall where
  form : SubmissionForm
  page : Option EntryPage
  now : Instant
  uuid4 : Nat → Uuid
  tokenUrlsafe : Nat → String

/-- What a call answered, with the player of every spec of an act it recorded. -/
structure CreateAnswer where
  call : CreateCall
  result : SubmissionResult
  players : List Uuid := []

/-- The next flush of a call. -/
inductive CreatePhase
  | replay
  | submission
  | person (people : List (PlayerInput × Option Int))
  | entry (person : Person) (events : List (Option Int × EntryEvent))
      (people : List (PlayerInput × Option Int))
  | nominate (e : Entry) (event : EntryEvent) (person : Person)
      (events : List (Option Int × EntryEvent)) (people : List (PlayerInput × Option Int))
  /-- After the rollback: the key is looked up again. -/
  | reread (constraint : String)

/-- A transaction: the calls it still makes, the first of them at its next flush with what it has
recorded so far, the rows written since the transaction began, and the answers of its earlier
calls. -/
structure CreateTx where
  calls : List CreateCall
  phase : CreatePhase := .replay
  writes : List RowWrite := []
  drawn : Nat := 0
  submission : Uuid := ""
  players : List Uuid := []
  entries : List Uuid := []
  invites : List (Uuid × String) := []
  answers : List CreateAnswer := []

/-- The committed rows, and the answers that were given so far. -/
structure Books where
  registry : Registry
  answers : List CreateAnswer := []

variable (p : Platform)

namespace CreateCall

def platform (call : CreateCall) : Platform :=
  { p with uuid4 := call.uuid4, tokenUrlsafe := call.tokenUrlsafe }

/-- The row of the act. -/
def submission (call : CreateCall) (id : Uuid) : Submission where
  id := id
  accountId := call.form.accountId
  idempotencyKey := call.form.idempotencyKey.filter (fun k => k ≠ "")
  regulationsAcceptedAt := call.now
  regulationsVersionAccepted := call.page.map EntryPage.regulationsVersion
  feeTotalCents := call.form.feeTotalCents
  feeBasis := call.form.feeBasis
  feeCurrency := call.page.bind EntryPage.feeCurrency

end CreateCall

namespace CreateTx

def start (calls : List CreateCall) : CreateTx := { calls := calls }

def locks (tx : CreateTx) : List RowKey := tx.writes.flatMap RowWrite.keys

def view (r : Registry) (tx : CreateTx) : Registry :=
  { r.writeAll tx.writes with drawn := tx.drawn }

end CreateTx

/-! ## The flushes of a call -/

/-- The act's own row. -/
def insertSubmission (r : Registry) (call : CreateCall) : Except Refused (Registry × Uuid) := do
  let (id, r) := r.mint p
  require (¬ KeyTaken r call.form) (.integrity "submissions.idempotency_key")
  let submissions ← found (r.submissions.insert (call.submission id)) (.integrity "submissions.id")
  .ok ({ r with submissions := submissions }, id)

/-- The player of a spec and the events to enter. -/
def meetPerson (r : Registry) (form : SubmissionForm) (spec : PlayerInput) :
    Except Refused (Registry × Person × List EntryEvent) := do
  let (r, player, adopted) ← adoptOrMint p r form.accountId spec form.blankClears
  let flagged := !adopted ∧ HasUnresolvableNamesake p r form.accountId spec.fullName
    spec.birthYear player.id
  require (form.accountId ∈ player.representatives)
    (.notPermitted "This account does not represent the selected player")
  let selected ← spec.events.mapM (fun id => found (r.events.get id) (.integrity "entries.event"))
  .ok (r, ⟨player, spec, flagged, landingState form.emailVerified⟩, distinct selected)

/-- The row of one entry. -/
def insertEntry (r : Registry) (form : SubmissionForm) (submission : Uuid) (person : Person)
    (event : EntryEvent) (share : Option Int) (now : Instant) : Except Refused (Registry × Entry) := do
  let reasons := landingReasons p r form person event
  let (id, r) := r.mint p
  let e : Entry :=
    { id := id, entryEventId := event.id, submissionId := some submission
      entryPlayerId := some person.player.id, state := person.landing
      pendingReasons := reasons, feeCents := share, submittedAt := now }
  let e ← placeEntry r e event now
  let entries ← found (r.entries.insert e) (.integrity "entries.id")
  .ok ({ r with entries := entries }, e)

namespace CreateTx

def answer (tx : CreateTx) (calls : List CreateCall) (a : CreateAnswer) : CreateTx :=
  { calls := calls, writes := tx.writes, answers := tx.answers ++ [a] }

/-- `session.rollback()` after an integrity error. -/
def rolledBack (tx : CreateTx) (constraint : String) : CreateTx :=
  { calls := tx.calls, phase := .reread constraint, answers := tx.answers }

/-- One flush: it may be refused, and waits for the rows it would write. -/
def flush {α : Type} (l : Locking) (others : List CreateTx) (tx : CreateTx) (r : Registry)
    (answer : Except Refused (Registry × α)) (next : α → CreateTx) :
    Progress Books Refused CreateTx :=
  match answer with
  | .error (.integrity constraint) => .goesOn (tx.rolledBack constraint)
  | .error e => .fails e
  | .ok (r', a) =>
    if l.Blocked locks others ((r.changes r').flatMap RowWrite.keys) then .waits
    else .goesOn { next a with writes := tx.writes ++ r.changes r', drawn := r'.drawn }

/-- The next flush of a transaction; one with no call left commits. -/
def exec (l : Locking) (books : Books) (others : List CreateTx) (tx : CreateTx) :
    Progress Books Refused CreateTx :=
  match tx.calls with
  | [] => .commits ⟨books.registry.writeAll tx.writes, books.answers ++ tx.answers⟩
  | call :: calls =>
    let form := call.form
    let q := call.platform p
    let r := tx.view books.registry
    match tx.phase with
    | .replay =>
      match replay r form.idempotencyKey form.accountId with
      | some result => .goesOn (tx.answer calls ⟨call, result, []⟩)
      | none => .goesOn { tx with phase := .submission }
    | .submission =>
      tx.flush l others r (insertSubmission q r call) fun id =>
        { tx with phase := .person (perPlayerFee form), submission := id }
    | .person [] =>
      .goesOn (tx.answer calls ⟨call,
        { submission := tx.submission, entries := tx.entries, invites := tx.invites }, tx.players⟩)
    | .person ((spec, priced) :: people) =>
      tx.flush l others r (meetPerson q r form spec) fun (person, events) =>
        { tx with
          phase := .entry person ((split priced events.length).zip events) people
          players := tx.players ++ [person.player.id] }
    | .entry _ [] people => .goesOn { tx with phase := .person people }
    | .entry person ((share, event) :: events) people =>
      tx.flush l others r (insertEntry q r form tx.submission person event share call.now) fun e =>
        { tx with phase := .nominate e event person events people, entries := tx.entries ++ [e.id] }
    | .nominate e event person events people =>
      tx.flush l others r (nominateNamed q r person.spec e event call.now) fun invites =>
        { tx with phase := .entry person events people, invites := tx.invites ++ invites }
    | .reread constraint =>
      match replay r form.idempotencyKey form.accountId with
      | some winner => .goesOn (tx.answer calls ⟨call, winner, []⟩)
      | none => .fails (.integrity constraint)

end CreateTx

end Entries
