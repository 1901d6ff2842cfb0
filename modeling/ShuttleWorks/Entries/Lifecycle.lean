import ShuttleWorks.Competition.Projection
import ShuttleWorks.Entries.Policy

/-! The entry lifecycle: its state machine, the reasons an entry is pending for, the
entrant's and the operator's transitions, and the ledger of payments. -/

namespace Entries
open Lib
open Sync (Uuid pyStrip pyIsSpace)
open Competition (Workspace)

variable (p : Platform)

/-! ## The machine -/

def entryMachine : StateMachine EntryState where
  name := "entry"
  version := 1
  edges := [
    { event := "verify", fromStates := [.unverified], target := .pending, actor := "system" },
    { event := "waitlist_at_cap", fromStates := [.pending, .unverified], target := .waitlisted,
      actor := "system", guard := some "at_capacity" },
    { event := "confirm", fromStates := [.pending], target := .confirmed,
      guard := some "is_pending_exactly" },
    { event := "reject", fromStates := [.unverified, .pending, .waitlisted],
      target := .rejected },
    { event := "promote", fromStates := [.waitlisted], target := .pending },
    { event := "withdraw", fromStates := [.unverified, .pending, .waitlisted, .confirmed],
      target := .withdrawn, actor := "entrant", guard := some "before_withdrawal_deadline" },
    { event := "operator_withdraw", target := .withdrawn,
      fromStates := [.unverified, .pending, .waitlisted, .confirmed] }]

def landingState (emailVerified : Bool) : EntryState :=
  if emailVerified then .pending else .unverified

def holding (r : Registry) (event : Uuid) : Nat :=
  (r.entries.rows.filter (fun e => e.entryEventId = event ∧
    e.state ∈ [EntryState.unverified, .pending, .confirmed])).length

def AtCap (r : Registry) (event : EntryEvent) : Prop :=
  ∃ cap, event.cap = some cap ∧ cap ≤ (holding r event.id : Int)

instance (r : Registry) (event : EntryEvent) : Decidable (AtCap r event) :=
  match h : event.cap with
  | none => .isFalse (fun ⟨_, hc, _⟩ => by simp [h] at hc)
  | some cap => decidable_of_iff (cap ≤ (holding r event.id : Int)) (by simp [AtCap, h])

def assertWithdrawable (e : Entry) (event : Option EntryEvent) (now : Instant) :
    Except Refusal Unit :=
  if e.state ∉ liveStates then
    .error ⟨"ENTRY_NOT_LIVE", "That entry has already been withdrawn or decided."⟩
  else
    match event.bind EntryEvent.withdrawsUntil with
    | none => .ok ()
    | some deadline =>
      if deadline ≤ now then
        .error ⟨"WITHDRAWAL_CLOSED", "The withdrawal deadline for this event has passed. " ++
          "Contact the organiser to withdraw."⟩
      else .ok ()

def isPendingExactly (e : Entry) : Except Refusal Unit :=
  match e.state with
  | .pending => .ok ()
  | .waitlisted => .error ⟨"ENTRY_WAITLISTED",
      "That entry is on the waitlist. Promote it first, then confirm."⟩
  | .unverified => .error ⟨"ENTRY_UNVERIFIED",
      "That entrant has not confirmed their email address yet."⟩
  | _ => .error ⟨"ENTRY_NOT_PENDING", "Only a pending entry can be confirmed."⟩

def atCapacity (r : Registry) (event : Option EntryEvent) : Except Refusal Unit :=
  match event with
  | some event =>
    if AtCap r event then .ok ()
    else .error ⟨"ENTRY_NOT_AT_CAP", "This event still has places available."⟩
  | none => .error ⟨"ENTRY_NOT_AT_CAP", "This event still has places available."⟩

/-- The guards of the machine for one entry; a guard that does not raise passes. -/
def guards (r : Registry) (e : Entry) (event : Option EntryEvent) (now : Instant) :
    StateMachine.Guards
  | "before_withdrawal_deadline" => some ((assertWithdrawable e event now).map (fun _ => true))
  | "is_pending_exactly" => some ((isPendingExactly e).map (fun _ => true))
  | "at_capacity" => some ((atCapacity r event).map (fun _ => true))
  | _ => none

def lift {α : Type} (x : Except Refusal α) : Except Refused α := x.mapError Refused.lifecycle

/-- The entry after an event of its machine. -/
def transitionEntry (r : Registry) (e : Entry) (now : Instant) (event actor : String) :
    Except Refused Entry := do
  let edge ← lift (entryMachine.check EntryState.text
    (guards r e (r.events.get e.entryEventId) now) e.machineVersion e.state event actor)
  .ok { e with state := edge.target, machineVersion := entryMachine.version }

/-! ## Partners -/

def isDoubles (event : EntryEvent) : Prop := p.lower event.entryType = "doubles"

instance (event : EntryEvent) : Decidable (isDoubles p event) :=
  inferInstanceAs (Decidable (_ = _))

/-- An address with its white space stripped, if it has the shape of one. -/
def normalizeEmail (email : String) : Option String :=
  let email := pyStrip email
  match email.toList.splitOn '@' with
  | [name, domain] =>
    if email.length ≤ 320 ∧ name ≠ [] ∧ domain ≠ [] ∧ (name ++ domain).all (fun c => !pyIsSpace c)
      ∧ '.' ∈ (domain.drop 1).dropLast then some email
    else none
  | _ => none

/-- Other live entries of the event that invited the address. -/
def conflicting (r : Registry) (e : Entry) (email : String) : List Entry :=
  match normalizeEmail email with
  | none => []
  | some address =>
    (r.entries.rows.filter (fun x : Entry => decide (x.entryEventId = e.entryEventId ∧
      x.state ∈ liveStates ∧ ∃ i ∈ r.invitationsOf x.id, i.recipientEmail = address))).filter
        (fun x => x.id ≠ e.id)

/-! ## Reasons -/

/-- Another player of the account carries the name and cannot be told apart. -/
def HasUnresolvableNamesake (r : Registry) (account : Uuid) (fullName : String)
    (birthYear : Option Int) (excludeId : Uuid) : Prop :=
  ∃ x ∈ r.players.rows, account ∈ x.representatives ∧
    p.sqlLower x.fullName = p.lower (pyStrip fullName) ∧ x.erasedAt = none ∧ x.id ≠ excludeId ∧
    (birthYear.isSome → x.birthYear = none)

instance (r : Registry) (account : Uuid) (fullName : String) (birthYear : Option Int)
    (excludeId : Uuid) : Decidable (HasUnresolvableNamesake p r account fullName birthYear
      excludeId) := inferInstanceAs (Decidable (∃ x ∈ r.players.rows, _))

/-- Another live entry of the event is for a player of the same name. -/
def HasDuplicate (r : Registry) (e : Entry) (player : EntryPlayer) : Prop :=
  ∃ x ∈ r.entries.rows, x.entryEventId = e.entryEventId ∧ x.id ≠ e.id ∧ x.state ∈ liveStates ∧
    (r.playerOf x).any (fun y => decide (p.sqlLower y.fullName = p.lower player.fullName)) = true

instance (r : Registry) (e : Entry) (player : EntryPlayer) : Decidable (HasDuplicate p r e player) :=
  inferInstanceAs (Decidable (∃ x ∈ r.entries.rows, _))

def Owes (r : Registry) (e : Entry) : Prop :=
  ∃ s, r.submissionOf e = some s ∧ 0 < (r.outstandingCents s).getD 0

instance (r : Registry) (e : Entry) : Decidable (Owes r e) :=
  match h : r.submissionOf e with
  | none => .isFalse (fun ⟨_, hs, _⟩ => by simp [h] at hs)
  | some s => decidable_of_iff (0 < (r.outstandingCents s).getD 0) (by simp [Owes, h])

/-- The reasons that concern the player: gender, namesakes and duplicates. -/
def playerReasons (r : Registry) (e : Entry) (player : EntryPlayer) (event : EntryEvent) :
    List String :=
  genderFlags p player.gender event ++
    (match r.submissionOf e with
      | some s =>
        if HasUnresolvableNamesake p r s.accountId player.fullName player.birthYear player.id then
          [needsReviewPerson] else []
      | none => []) ++
    if HasDuplicate p r e player then [needsReview] else []

def Partnered (r : Registry) (entry : Uuid) : Prop :=
  ∃ paired, r.pairedEntryId entry = some paired ∧ r.LiveEntry paired

instance (r : Registry) (entry : Uuid) : Decidable (Partnered r entry) :=
  match h : r.pairedEntryId entry with
  | none => .isFalse (fun ⟨_, hs, _⟩ => by simp [h] at hs)
  | some paired => decidable_of_iff (r.LiveEntry paired) (by simp [Partnered, h])

def partnerReasons (r : Registry) (e : Entry) (event : EntryEvent) : List String :=
  if isDoubles p event then
    (if Partnered r e.id then [] else [awaitingPartner]) ++
      match r.invitation e.id with
      | some i => if i.recipientEmail ≠ "" ∧ conflicting r e i.recipientEmail ≠ [] then
          [pairConflict] else []
      | none => []
  else []

/-- The reasons rebuilt from the rows. -/
def recomputeReasons (r : Registry) (e : Entry) : List String :=
  let event := r.events.get e.entryEventId
  ((if Owes r e then [awaitingPayment] else []) ++
    (if e.state = .waitlisted then [overCap] else []) ++
    (match r.playerOf e, event with
      | some player, some event => playerReasons p r e player event
      | _, _ => []) ++
    (match event with
      | some event => partnerReasons p r e event
      | none => [])).eraseDups

namespace Registry

def putEntry (r : Registry) (e : Entry) : Registry := { r with entries := r.entries.put e }

def recompute (r : Registry) (e : Entry) : Registry :=
  (r.putEntry e).putEntry { e with pendingReasons := recomputeReasons p (r.putEntry e) e }

end Registry

/-! ## The operator's transitions -/

def reject (r : Registry) (entryId : Uuid) (now : Instant) : Except Refused Registry := do
  let e ← found (r.entries.get entryId)
  require (e.state ∈ [EntryState.pending, .waitlisted, .unverified])
    (.lifecycle ⟨"ENTRY_NOT_REJECTABLE",
      "Only an entry still awaiting a decision can be rejected. " ++
      "Withdraw a confirmed entry instead."⟩)
  let e ← transitionEntry r e now "reject" "operator"
  .ok (r.recompute p e)

/-- Off the waitlist, to pending and never straight to confirmed. -/
def promote (r : Registry) (entryId : Uuid) (now : Instant) : Except Refused Registry := do
  let e ← found (r.entries.get entryId)
  require (e.state = .waitlisted)
    (.lifecycle ⟨"ENTRY_NOT_WAITLISTED", "Only a waitlisted entry can be promoted."⟩)
  let e ← transitionEntry r e now "promote" "operator"
  .ok (r.recompute p e)

def confirm (r : Registry) (entryId : Uuid) (now : Instant) : Except Refused Registry := do
  let e ← found (r.entries.get entryId)
  lift (isPendingExactly e)
  let e ← transitionEntry r e now "confirm" "operator"
  .ok (r.recompute p e)

def verifyEntries (now : Instant) : Registry → List Entry → Except Refused Registry
  | r, [] => .ok r
  | r, e :: es => do
    let e ← transitionEntry r e now "verify" "system"
    verifyEntries now (r.recompute p e) es

/-- Every unverified entry the account ever made becomes pending. -/
def promoteVerifiedEntries (r : Registry) (accountId : Uuid) (now : Instant) :
    Except Refused Registry :=
  verifyEntries p now r (r.entries.rows.filter (fun e => e.state = .unverified ∧
    (r.submissionOf e).any (fun s => decide (s.accountId = accountId)) = true))

/-! ## Withdrawal and erasure -/

def erasedName : String := "(erased)"

/-- The person scrubbed from the player's row; a scrubbed row stays as it is. -/
def scrub (x : EntryPlayer) (now : Instant) : EntryPlayer :=
  if x.erasedAt.isSome then x
  else { x with
    fullName := erasedName, gender := "unknown", rosterAttributes := [], club := none
    representation := none, representationPublic := false, remarks := none, birthYear := none
    erasedAt := some now }

def erasePlayer (ws : Workspace) (e : Entry) (now : Instant) : Workspace :=
  match ws.registry.playerOf e with
  | none => ws
  | some player =>
    if player.erasedAt.isSome then ws
    else Competition.project p { ws with
      registry := { ws.registry with players := ws.registry.players.put (scrub player now) } }

/-- A live partner whose partner is this entry waits for one again. -/
def awaitPartnerAgain (r : Registry) (e : Entry) : Registry :=
  match r.pairedEntry e.id with
  | none => r
  | some partner =>
    if r.pairedEntryId partner.id = some e.id ∧ partner.state ∈ liveStates then
      r.putEntry { partner with
        pendingReasons := (partner.pendingReasons ++ [awaitingPartner]).eraseDups }
    else r

def withdraw (ws : Workspace) (entryId : Uuid) (erase byOperator : Bool) (now : Instant) :
    Except Refused Workspace := do
  let e ← found (ws.registry.entries.get entryId)
  (if byOperator then
      require (e.state ∈ liveStates)
        (.lifecycle ⟨"ENTRY_NOT_LIVE", "That entry has already been withdrawn or decided."⟩)
    else lift (assertWithdrawable e (ws.registry.events.get e.entryEventId) now))
  let e ← transitionEntry ws.registry e now
    (if byOperator then "operator_withdraw" else "withdraw")
    (if byOperator then "operator" else "entrant")
  let ws ← Competition.withdrawMembership p { ws with registry := ws.registry.putEntry e } e.id
  let e := { e with withdrawnAt := some now }
  let ws := { ws with registry := awaitPartnerAgain (ws.registry.putEntry e) e }
  let ws := if erase then erasePlayer p ws e now else ws
  .ok { ws with registry := ws.registry.recompute p e }

/-! ## Payments -/

def recomputeAll : Registry → List Entry → Registry
  | r, [] => r
  | r, e :: es => recomputeAll (r.recompute p e) es

def entriesOf (r : Registry) (submission : Uuid) : List Entry :=
  r.entries.rows.filter (fun e => e.submissionId = some submission)

/-- A payment under its request identity; a repeated request records nothing. -/
def recordPayment (r : Registry) (submissionId : Uuid) (amountCents : Int) (currency : String)
    (note : Option String) (actorId requestId : String) : Except Refused Registry := do
  require (amountCents ≠ 0) (.invalid "Record a nonzero amount in cents")
  require (requestId ≠ "" ∧ requestId.length ≤ 100) (.invalid "A request identity is required")
  let s ← found (r.submissions.get submissionId)
  let currency := p.upper (pyStrip currency)
  require (s.status ≠ .draft) (.invalid "Payments require a submitted record")
  require (s.feeCurrency = some currency ∧ currency ≠ "")
    (.invalid "Payment currency must match the frozen submission currency")
  match (r.paymentsOf submissionId).find? (fun x => x.requestId = requestId) with
  | some prior =>
    require (prior.amountCents = amountCents ∧ prior.currency = currency ∧ prior.note = note ∧
        prior.actorId = actorId)
      (.invalid "Request identity was already used for a different payment")
    .ok r
  | none =>
    let (id, r) := r.mint p
    require (currency.length = 3) (.integrity "ck_payments_2")
    let payments ← found (r.payments.insert
      { id := id, submissionId := submissionId, amountCents := amountCents, currency := currency,
        note := note, actorId := actorId, requestId := requestId }) (.integrity "payments.id")
    let r := { r with
      payments := payments
      submissions := r.submissions.put { s with version := s.version + 1 } }
    .ok (recomputeAll p r (entriesOf r submissionId))

end Entries
