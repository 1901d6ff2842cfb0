import ShuttleWorks.Entries.Lifecycle

/-! One form act, recorded once: a submission, its players and an entry for every
selected event, with the invitations of the partners it names; and the acceptance of
such an invitation, which records the partner's half as an act of its own. -/

namespace Entries
open Lib
open Sync (Uuid pyStrip)

variable (p : Platform)

/-- One human and the events they are being entered into. -/
structure PlayerInput where
  fullName : String
  gender : String
  club : Option String := none
  representation : Option String := none
  publishRepresentation : Option Bool := none
  birthYear : Option Int := none
  remarks : Option String := none
  events : List Uuid
  /-- The partner's address for the doubles events. -/
  partners : List (Uuid × String) := []

structure SubmissionResult where
  submission : Uuid
  entries : List Uuid
  invites : List (Uuid × String) := []
  replayed : Bool := false

/-- The act a call records. -/
structure SubmissionForm where
  accountId : Uuid
  players : List PlayerInput
  feeTotalCents : Option Int
  feeBasis : Option FeeBasis
  idempotencyKey : Option String := none
  emailVerified : Bool := true
  blankClears : Bool := true

/-! ## Lookups -/

def findByIdempotencyKey (r : Registry) (key : String) (account : Uuid) : Option Submission :=
  r.submissions.rows.find? (fun s => s.accountId = account ∧ s.idempotencyKey = some key)

/-- The original act, whole, or nothing if this key is new to this account. -/
def replay (r : Registry) (key : Option String) (account : Uuid) : Option SubmissionResult :=
  match key with
  | none => none
  | some key =>
    if key = "" then none
    else (findByIdempotencyKey r key account).map (fun s =>
      { submission := s.id, entries := (entriesOf r s.id).map Entry.id, replayed := true })

def countedStates : List EntryState := [.pending, .confirmed, .waitlisted]

/-- Another entry of the event is for a player of the same name. -/
def LooksDuplicate (r : Registry) (event : Uuid) (fullName : String) : Prop :=
  ∃ x ∈ r.entries.rows, x.entryEventId = event ∧ x.state ∈ countedStates ∧
    (r.playerOf x).any (fun y => decide (p.sqlLower y.fullName = p.lower (pyStrip fullName))) = true

instance (r : Registry) (event : Uuid) (fullName : String) :
    Decidable (LooksDuplicate p r event fullName) :=
  inferInstanceAs (Decidable (∃ x ∈ r.entries.rows, _))

/-- The person a spec names again, where the rows leave no doubt. -/
def samePerson (r : Registry) (account : Uuid) (spec : PlayerInput) : Option EntryPlayer :=
  if spec.birthYear = none then none
  else r.players.rows.find? (fun x => account ∈ x.representatives ∧
    x.birthYear = spec.birthYear ∧ p.sqlLower x.fullName = p.lower (pyStrip spec.fullName) ∧
    x.erasedAt = none)

/-! ## Players -/

/-- `(text or "").strip() or None`. -/
def nonBlank (x : Option String) : Option String :=
  let stripped := pyStrip (x.getD "")
  if stripped = "" then none else some stripped

def normalizeRepresentation (x : Option String) : Except Refused (Option String) :=
  let code := p.upper (pyStrip (x.getD ""))
  if code = "" then .ok none
  else if code ∈ p.representations then .ok (some code)
  else .error (.invalid "unknown representation code")

/-- The player of a spec: the certain match with its description renewed, or a new row.
The flag says whether a row was adopted. -/
def adoptOrMint (r : Registry) (account : Uuid) (spec : PlayerInput) (blankClears : Bool) :
    Except Refused (Registry × EntryPlayer × Bool) := do
  let representation ← normalizeRepresentation p spec.representation
  match samePerson p r account spec with
  | none =>
    let (id, r) := r.mint p
    let player : EntryPlayer :=
      { id := id, representatives := [account], fullName := pyStrip spec.fullName
        gender := pyStrip spec.gender, club := nonBlank spec.club
        representation := representation
        representationPublic := spec.publishRepresentation = some true
        birthYear := spec.birthYear, remarks := nonBlank spec.remarks }
    let players ← found (r.players.insert player) (.integrity "entry_players.id")
    .ok ({ r with players := players }, player, false)
  | some player =>
    let club := nonBlank spec.club
    let remarks := nonBlank spec.remarks
    let describes := blankClears ∨ representation.isSome
    let player := { player with
      club := if blankClears ∨ club.isSome then club else player.club
      representation := if describes then representation else player.representation
      representationPublic :=
        if describes then spec.publishRepresentation.getD player.representationPublic
        else player.representationPublic
      remarks := if blankClears ∨ remarks.isSome then remarks else player.remarks }
    .ok ({ r with players := r.players.put player }, player, true)

/-! ## Partners -/

def withReason (reasons : List String) (code : String) : List String :=
  if code ∈ reasons then reasons else reasons ++ [code]

def withoutReason (reasons : List String) (code : String) : List String :=
  reasons.filter (fun x => x ≠ code)

namespace Registry

/-- The reasons of one entry rewritten. -/
def mapReasons (r : Registry) (f : List String → List String) (entry : Uuid) : Registry :=
  match r.entries.get entry with
  | none => r
  | some e => r.putEntry { e with pendingReasons := f e.pendingReasons }

def insertInvitation (r : Registry) (i : PartnerInvitation) : Except Refused Registry := do
  require (∀ x ∈ r.invitations.rows, ¬ (x.tokenHash.isSome ∧ x.tokenHash = i.tokenHash))
    (.integrity "partner_invitations.token_hash")
  let invitations ← found (r.invitations.insert i) (.integrity "partner_invitations.id")
  .ok { r with invitations := invitations }

/-- Revoke what an entry has sent so far. -/
def revokeSent (r : Registry) (entry : Uuid) : Registry :=
  let invitations := r.invitations.update
    (fun i => if i.invitingEntryId = entry ∧ i.status = .sent then
      { i with status := .revoked, tokenHash := none } else i)
    (fun i => by split <;> rfl)
  { r with invitations := invitations }

end Registry

/-- Name a partner on an entry and mint their invitation; an address that is not one
marks nothing. -/
def nominate (r : Registry) (entry : Uuid) (email : String) (now : Instant) :
    Except Refused (Registry × Option String) :=
  match normalizeEmail email with
  | none => .ok (r, none)
  | some address => do
    require (∀ i ∈ r.invitationsOf entry, i.status ≠ .accepted)
      (.unavailable "This entry already has an accepted partner")
    let r := r.revokeSent entry
    let token := p.tokenUrlsafe r.drawn
    let (id, r) := r.mint p
    let r ← r.insertInvitation
      { id := id, invitingEntryId := entry, recipientEmail := address
        tokenHash := some (p.hashToken token), expiresAt := some (now + p.inviteTtl) }
    .ok (r.mapReasons (fun reasons => withReason reasons awaitingPartner) entry, some token)

def flagConflict (r : Registry) (entries : List Uuid) : Registry :=
  entries.foldl (fun r entry =>
    r.mapReasons (fun reasons => withReason reasons pairConflict) entry) r

/-! ## The write -/

def initialReasons (feeTotalCents : Option Int) : List String :=
  match feeTotalCents with
  | some total => if 0 < total then [awaitingPayment] else []
  | none => []

/-- A price spread over entries; the first one takes the remainder. -/
def split (cents : Option Int) (count : Nat) : List (Option Int) :=
  match cents, count with
  | some cents, n + 1 =>
    let base := cents / (n + 1 : Int)
    some (cents - base * n) :: List.replicate n (some base)
  | _, n => List.replicate n none

/-- What the entries of one person have in common. -/
structure Person where
  player : EntryPlayer
  spec : PlayerInput
  flagged : Bool
  landing : EntryState

/-- Nominate the partner the person names for a doubles event; a clash flags both sides. -/
def nominateNamed (r : Registry) (spec : PlayerInput) (e : Entry) (event : EntryEvent)
    (now : Instant) : Except Refused (Registry × List (Uuid × String)) :=
  match Assoc.get event.id spec.partners with
  | none => .ok (r, [])
  | some named =>
    if named ≠ "" ∧ isDoubles p event then do
      let (r, token) ← nominate p r e.id named now
      match token with
      | none => .ok (r, [])
      | some token =>
        let clashes := (conflicting r e named).map Entry.id
        let r := if clashes = [] then r else flagConflict r (e.id :: clashes)
        .ok (r, [(e.id, token)])
    else .ok (r, [])

/-- What a fresh entry is pending for. -/
def landingReasons (r : Registry) (form : SubmissionForm) (person : Person) (event : EntryEvent) :
    List String :=
  initialReasons form.feeTotalCents ++ genderFlags p person.spec.gender event ++
    (if LooksDuplicate p r event.id person.spec.fullName then [needsReview] else []) ++
    (if person.flagged then [needsReviewPerson] else []) ++
    if AtCap r event then [overCap] else []

def placeEntry (r : Registry) (e : Entry) (event : EntryEvent) (now : Instant) :
    Except Refused Entry :=
  if AtCap r event then transitionEntry r e now "waitlist_at_cap" "system" else .ok e

/-- One entry, with its reasons as of this moment. -/
def writeEntry (r : Registry) (form : SubmissionForm) (submission : Uuid) (person : Person)
    (event : EntryEvent) (share : Option Int) (now : Instant) :
    Except Refused (Registry × Uuid × List (Uuid × String)) := do
  let reasons := landingReasons p r form person event
  let (id, r) := r.mint p
  let e : Entry :=
    { id := id, entryEventId := event.id, submissionId := some submission
      entryPlayerId := some person.player.id, state := person.landing
      pendingReasons := reasons, feeCents := share, submittedAt := now }
  let e ← placeEntry r e event now
  let entries ← found (r.entries.insert e) (.integrity "entries.id")
  let r := { r with entries := entries }
  let (r, invites) ← nominateNamed p r person.spec e event now
  .ok (r, e.id, invites)

def writeEntries (form : SubmissionForm) (submission : Uuid) (person : Person) (now : Instant) :
    Registry → List (Option Int × EntryEvent) →
      Except Refused (Registry × List Uuid × List (Uuid × String))
  | r, [] => .ok (r, [], [])
  | r, (share, event) :: rest => do
    let (r, entry, invites) ← writeEntry p r form submission person event share now
    let (r, entries, invites') ← writeEntries form submission person now r rest
    .ok (r, entry :: entries, invites ++ invites')

/-- The entries of one person. -/
def writePerson (r : Registry) (form : SubmissionForm) (submission : Uuid) (priced : Option Int)
    (spec : PlayerInput) (now : Instant) :
    Except Refused (Registry × List Uuid × List (Uuid × String)) := do
  let (r, player, adopted) ← adoptOrMint p r form.accountId spec form.blankClears
  let flagged := !adopted ∧ HasUnresolvableNamesake p r form.accountId spec.fullName
    spec.birthYear player.id
  require (form.accountId ∈ player.representatives)
    (.notPermitted "This account does not represent the selected player")
  let selected ← spec.events.mapM (fun id => found (r.events.get id) (.integrity "entries.event"))
  let events := distinct selected
  let person : Person := ⟨player, spec, flagged, landingState form.emailVerified⟩
  writeEntries p form submission person now r ((split priced events.length).zip events)

def writePlayers (form : SubmissionForm) (submission : Uuid) (now : Instant) :
    Registry → List (PlayerInput × Option Int) →
      Except Refused (Registry × List Uuid × List (Uuid × String))
  | r, [] => .ok (r, [], [])
  | r, (spec, priced) :: rest => do
    let (r, entries, invites) ← writePerson p r form submission priced spec now
    let (r, entries', invites') ← writePlayers form submission now r rest
    .ok (r, entries ++ entries', invites ++ invites')

/-- Each person's price, in the order in which it was computed. -/
def perPlayerFee (form : SubmissionForm) : List (PlayerInput × Option Int) :=
  let priced := match form.feeBasis with
    | some basis => basis.players.map PlayerFee.cents
    | none => []
  form.players.mapIdx (fun i spec => (spec, (priced[i]?).join))

/-- The unique index on account and key; rows without a key are exempt. -/
def KeyTaken (r : Registry) (form : SubmissionForm) : Prop :=
  ∃ key, form.idempotencyKey = some key ∧ key ≠ "" ∧
    ∃ s ∈ r.submissions.rows, s.accountId = form.accountId ∧ s.idempotencyKey = some key

instance (r : Registry) (form : SubmissionForm) : Decidable (KeyTaken r form) :=
  match h : form.idempotencyKey with
  | none => .isFalse (fun ⟨_, hk, _⟩ => by simp [h] at hk)
  | some key => decidable_of_iff (key ≠ "" ∧
      ∃ s ∈ r.submissions.rows, s.accountId = form.accountId ∧ s.idempotencyKey = some key)
      (by simp [KeyTaken, h])

def writeSubmission (r : Registry) (form : SubmissionForm) (now : Instant) :
    Except Refused (Registry × SubmissionResult) := do
  let page ← found r.page
  let (id, r) := r.mint p
  require (¬ KeyTaken r form) (.integrity "submissions.idempotency_key")
  let submissions ← found (r.submissions.insert
    { id := id, accountId := form.accountId
      idempotencyKey := form.idempotencyKey.filter (fun k => k ≠ "")
      regulationsAcceptedAt := now, regulationsVersionAccepted := some page.regulationsVersion
      feeTotalCents := form.feeTotalCents, feeBasis := form.feeBasis
      feeCurrency := page.feeCurrency }) (.integrity "submissions.id")
  let (r, entries, invites) ← writePlayers p form id now { r with submissions := submissions }
    (perPlayerFee form)
  .ok (r, { submission := id, entries := entries, invites := invites })

/-- Record one act. A known key is answered before any write, and again when the unique
index refuses it; in either case nothing is written. -/
def createSubmission (r : Registry) (form : SubmissionForm) (now : Instant) :
    Except Refused (Registry × SubmissionResult) :=
  match replay r form.idempotencyKey form.accountId with
  | some result => .ok (r, result)
  | none =>
    match writeSubmission p r form now with
    | .error (.integrity constraint) =>
      match replay r form.idempotencyKey form.accountId with
      | some winner => .ok (r, winner)
      | none => .error (.integrity constraint)
    | answer => answer

/-! ## Acceptance -/

/-- What the invited principal fills in. -/
structure Acceptance where
  accountId : Uuid
  fullName : String
  gender : String
  club : Option String := none
  remarks : Option String := none
  birthYear : Option Int := none
  acknowledged : Bool := false
  reviewedQuote : Option String := none

def EventIsOpen (event : EntryEvent) (now : Instant) : Prop :=
  (∀ t, event.opensAt = some t → t ≤ now) ∧ (∀ t, event.closesAt = some t → now < t)

instance (event : EntryEvent) (now : Instant) : Decidable (EventIsOpen event now) :=
  decidable_of_iff (event.opensAt.all (fun t => decide (t ≤ now)) = true ∧
      event.closesAt.all (fun t => decide (now < t)) = true) (by
    cases h : event.opensAt <;> cases h' : event.closesAt <;> simp [EventIsOpen, h, h'])

def cut (n : Nat) (s : String) : String := String.ofList ((pyStrip s).toList.take n)

def noLonger : Refused := .unavailable "Invitation is no longer available"

/-- Spend an invitation that is still open, whoever else holds its token. -/
def claim (r : Registry) (i : PartnerInvitation) (now : Instant) : Except Refused Registry := do
  let row ← found (r.invitations.get i.id) noLonger
  require (row.tokenHash = i.tokenHash ∧ row.status = .sent ∧
    row.expiresAt.any (fun t => decide (now < t)) = true) noLonger
  .ok { r with invitations := r.invitations.put { row with status := .revoked, tokenHash := none } }

def contactEmail (r : Registry) (e : Entry) : String :=
  ((r.submissionOf e).bind (fun s => Assoc.get s.accountId r.accounts)).getD ""

/-- The rows an accepted invitation leaves: the pair linked, and neither half waiting. -/
def link (r : Registry) (i : PartnerInvitation) (entry partner : Uuid) (now : Instant) :
    Registry :=
  let i := { i with
    acceptedEntryId := some partner, acceptedAt := some now, status := .accepted
    tokenHash := none }
  let r := { r with invitations := r.invitations.put i }
  let clear := fun reasons => withoutReason reasons awaitingPartner
  (r.mapReasons clear entry).mapReasons clear partner

/-- The invited principal accepts: their half is recorded and the pair linked. -/
def accept (r : Registry) (entryId : Uuid) (a : Acceptance) (now : Instant) :
    Except Refused (Registry × Uuid) := do
  let entry ← found (r.entries.get entryId)
  let i ← found (r.invitation entry.id) noLonger
  require (i.tokenHash.any (fun t => decide (t ≠ "")) = true ∧ entry.state ∈ liveStates) noLonger
  let r ← claim r i now
  let closed := Refused.unavailable "This event is no longer accepting entries"
  let page ← found r.page closed
  let event ← found (r.events.get entry.entryEventId) closed
  require (page.isOpen = true ∧ EventIsOpen event now ∧ r.checkedOut = false) closed
  require ((checkPolicy page [("partner", [event])]).isNone = true)
    (.unavailable "This entry selection is not permitted")
  let (total, basis) ← computeFeeTotal p page [⟨"partner", [event]⟩]
  require (a.acknowledged = true ∧ a.reviewedQuote =
      some (p.quote [event.id] total basis page.regulationsVersion page.feeCurrency))
    (.unavailable "Review the current fee and regulations before accepting")
  let spec : PlayerInput :=
    { fullName := cut 200 a.fullName, gender := cut 20 a.gender
      club := nonBlank (a.club.map (cut 200)), remarks := nonBlank (a.remarks.map (cut 2000))
      birthYear := a.birthYear, events := [event.id] }
  let (r, result) ← createSubmission p r
    { accountId := a.accountId, players := [spec], feeTotalCents := total
      feeBasis := some basis, blankClears := false } now
  let partnerId ← found result.entries.head?
  let row ← found (r.invitations.get i.id)
  let r := link r row entry.id partnerId now
  let partner ← found (r.entries.get partnerId)
  let others := ((conflicting r partner (contactEmail r entry)).map Entry.id).filter
    (fun x => x ≠ entry.id)
  .ok (if others = [] then r else flagConflict r (entry.id :: partnerId :: others), partnerId)

end Entries
