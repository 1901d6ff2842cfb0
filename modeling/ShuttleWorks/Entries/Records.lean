import Mathlib.Algebra.Ring.Int.Defs
import Mathlib.Algebra.Ring.Nat
import ShuttleWorks.Lib.Machine
import ShuttleWorks.Lib.Table
import ShuttleWorks.Sync.Schemas

/-! The registration rows of one tournament: entry events and the entry page,
submissions with their payments, the players they enter, the entries, and the
partner invitations between entries. Tables keep their rows in the order of
their creation times. -/

namespace Entries
open Lib
open Sync (Uuid)

/-- An instant, in microseconds. -/
abbrev Instant := Nat

/-- What one person of an act pays. -/
structure PlayerFee where
  key : String
  eventCount : Nat
  eventCodes : List String
  cents : Option Int
  deriving DecidableEq

/-- How the total of an act was derived. -/
structure FeeBasis where
  basis : String
  currency : Option String
  scheduleUsed : Option (List (Int × Int))
  players : List PlayerFee
  totalCents : Option Int
  deriving DecidableEq

/-- Why `int` raises: no number can be read (`TypeError`, `ValueError`), or the number is infinite
(`OverflowError`). -/
inductive IntError
  | unreadable | overflow
  deriving DecidableEq

/-- What the service takes from its surroundings: drawn ids and tokens, digests and the
foldings of text that its database and its language differ in. -/
structure Platform where
  uuid4 : Nat → Uuid
  uuid5 : (space : Uuid) → (name : String) → Uuid
  tokenUrlsafe : Nat → String
  hashToken : String → String
  lower : String → String
  casefold : String → String
  upper : String → String
  sqlLower : String → String
  intOfText : String → Option Int
  intOfFloat : NumberText → Except IntError Int
  inviteTtl : Nat
  /-- The association codes a player may represent. -/
  representations : List String
  /-- The digest of a quote: selection, total, basis, regulations version and currency. -/
  quote : List String → Option Int → FeeBasis → Int → Option String → String

/-! ## States -/

inductive EntryState
  | unverified | pending | waitlisted | confirmed | rejected | withdrawn
  deriving DecidableEq, Repr

def EntryState.text : EntryState → String
  | .unverified => "unverified"
  | .pending => "pending"
  | .waitlisted => "waitlisted"
  | .confirmed => "confirmed"
  | .rejected => "rejected"
  | .withdrawn => "withdrawn"

def liveStates : List EntryState := [.unverified, .pending, .waitlisted, .confirmed]

def overCap : String := "over_cap"
def awaitingPayment : String := "awaiting_payment"
def awaitingPartner : String := "awaiting_partner"
def pairConflict : String := "pair_conflict"
def needsReview : String := "needs_review"
def genderMismatch : String := "gender_mismatch"
def needsReviewPerson : String := "needs_review_person"

inductive InvitationStatus
  | sent | accepted | expired | revoked
  deriving DecidableEq, Repr

inductive SubmissionStatus
  | draft | submitted | cancelled
  deriving DecidableEq, Repr

/-! ## Rows -/

structure EntryEvent where
  id : Uuid
  code : String
  discipline : String
  entryType : String := "singles"
  cap : Option Int := none
  feeCents : Option Int := none
  genderConstraint : Option String := none
  opensAt : Option Instant := none
  closesAt : Option Instant := none
  withdrawsUntil : Option Instant := none
  retentionDays : Option Int := none
  competitionEventId : Option Uuid := none

structure EntryPage where
  isOpen : Bool
  regulationsVersion : Int
  feeSchedule : Option Json
  feeCurrency : Option String
  maxEventsPerPerson : Option Int
  disciplineCaps : Option Json

structure Submission where
  id : Uuid
  accountId : Uuid
  status : SubmissionStatus := .submitted
  version : Nat := 1
  idempotencyKey : Option String
  regulationsAcceptedAt : Instant
  regulationsVersionAccepted : Option Int
  feeTotalCents : Option Int
  feeBasis : Option FeeBasis
  feeCurrency : Option String

structure Payment where
  id : Uuid
  submissionId : Uuid
  amountCents : Int
  currency : String
  note : Option String
  actorId : String
  requestId : String

structure EntryPlayer where
  id : Uuid
  rosterKey : Option String := none
  rosterAttributes : JsonObject := []
  representatives : List Uuid := []
  fullName : String
  gender : String
  club : Option String := none
  representation : Option String := none
  representationPublic : Bool := false
  birthYear : Option Int := none
  remarks : Option String := none
  erasedAt : Option Instant := none

structure Entry where
  id : Uuid
  machineVersion : Nat := 1
  entryEventId : Uuid
  submissionId : Option Uuid
  entryPlayerId : Option Uuid
  state : EntryState
  pendingReasons : List String
  feeCents : Option Int
  submittedAt : Instant
  withdrawnAt : Option Instant := none

structure PartnerInvitation where
  id : Uuid
  invitingEntryId : Uuid
  acceptedEntryId : Option Uuid := none
  recipientEmail : String
  tokenHash : Option String
  expiresAt : Option Instant
  acceptedAt : Option Instant := none
  status : InvitationStatus := .sent

structure Registry where
  page : Option EntryPage
  /-- The address of every entrant account. -/
  accounts : List (Uuid × String) := []
  events : Table EntryEvent.id
  submissions : Table Submission.id
  payments : Table Payment.id
  players : Table EntryPlayer.id
  entries : Table Entry.id
  invitations : Table PartnerInvitation.id
  /-- How many ids and tokens were drawn. -/
  drawn : Nat := 0
  /-- A node holds the write authority of the tournament, or is about to. -/
  checkedOut : Bool := false

/-! ## Refusals -/

inductive Refused
  | lifecycle (r : Refusal)
  | competition (code message : String)
  | unavailable (message : String)
  | invalid (message : String)
  | notPermitted (message : String)
  | integrity (constraint : String)
  | missing
  | exception (type message : String)
  deriving DecidableEq

def require (p : Prop) [Decidable p] (e : Refused) : Except Refused Unit :=
  if p then .ok () else .error e

def found {α : Type} (x : Option α) (e : Refused := .missing) : Except Refused α :=
  match x with
  | some a => .ok a
  | none => .error e

variable {e : Refused}

@[simp] theorem require_eq_ok {p : Prop} [Decidable p] {u : Unit} :
    require p e = .ok u ↔ p := by
  unfold require
  split <;> simp_all

@[simp] theorem found_eq_ok {α : Type} {x : Option α} {a : α} :
    found x e = .ok a ↔ x = some a := by
  cases x <;> simp [found]

/-! ## Relations between rows -/

namespace Registry

variable (r : Registry)

def mint (p : Platform) : Uuid × Registry := (p.uuid4 r.drawn, { r with drawn := r.drawn + 1 })

def paymentsOf (submission : Uuid) : List Payment :=
  r.payments.rows.filter (fun x => x.submissionId = submission)

def paidCents (submission : Uuid) : Int := ((r.paymentsOf submission).map Payment.amountCents).sum

def outstandingCents (s : Submission) : Option Int :=
  s.feeTotalCents.map (fun total => total - r.paidCents s.id)

def submissionOf (e : Entry) : Option Submission := e.submissionId.bind r.submissions.get

def playerOf (e : Entry) : Option EntryPlayer := e.entryPlayerId.bind r.players.get

def invitationsOf (entry : Uuid) : List PartnerInvitation :=
  r.invitations.rows.filter (fun i => i.invitingEntryId = entry)

def acceptedInvitationsOf (entry : Uuid) : List PartnerInvitation :=
  r.invitations.rows.filter (fun i => i.acceptedEntryId = some entry)

/-- The last accepted invitation on either side, else the last one the entry sent. -/
def invitation (entry : Uuid) : Option PartnerInvitation :=
  match ((r.invitationsOf entry ++ r.acceptedInvitationsOf entry).filter
      (fun i => i.status = .accepted)).getLast? with
  | some i => some i
  | none => (r.invitationsOf entry).getLast?

def pairedEntryId (entry : Uuid) : Option Uuid :=
  match r.invitation entry with
  | none => none
  | some i =>
    if i.status ≠ .accepted then none
    else if i.invitingEntryId = entry then i.acceptedEntryId
    else some i.invitingEntryId

def pairedEntry (entry : Uuid) : Option Entry := (r.pairedEntryId entry).bind r.entries.get

def LiveEntry (entry : Uuid) : Prop := ∃ e, r.entries.get entry = some e ∧ e.state ∈ liveStates

instance (entry : Uuid) : Decidable (r.LiveEntry entry) :=
  match h : r.entries.get entry with
  | none => .isFalse (fun ⟨_, he, _⟩ => by simp [h] at he)
  | some e => decidable_of_iff (e.state ∈ liveStates) (by simp [LiveEntry, h])

end Registry

end Entries
