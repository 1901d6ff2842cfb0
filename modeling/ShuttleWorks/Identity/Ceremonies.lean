import ShuttleWorks.Identity.Authenticator

/-! The authenticator ceremonies: what each computes once it has reserved the account, and how the
requests interleave up to their commits. -/

namespace Identity
open Lib Sync

/-- What one request brings along: its session, the key ring and the clock as it reads them, and the
values that it draws. -/
structure CeremonyContext where
  sessionId : Uuid
  keys : SecretKeyring
  resolvedAt : Instant
  now : Instant
  completedAt : Instant
  seed : Drawn 20
  nonce : Drawn 12
  pendingNonce : Drawn 12
  /-- The drawn recovery codes, as `normalize_recovery_code` gives them back. -/
  codes : List String
  newSessionId : Uuid

variable (s : MfaSettings) (x : CeremonyContext)

def pendingScope (sessionId : Uuid) : String := s.scope ++ ":session:" ++ sessionId

/-- `_audit`: the factor follows its graph. -/
def audit (f : Factor) (event : String) (now : Instant) : Except MfaError Factor :=
  match operatorMfaFactor.check FactorStatus.value (fun _ => none) operatorMfaFactor.version f.status
    event "operator" with
  | .error refusal => .error (.transition refusal)
  | .ok edge => .ok { f with updatedAt := now, status := edge.target }

def sealActive (secret : Bytes) (nonce : Drawn 12) : Except MfaError Bytes := do
  encryptFactor s.crypto secret (← x.keys.activeKey) nonce s.userId s.scope

def beginEnrollment (a : Authenticators) (password : String) (fresh : Bool) :
    Except MfaError Authenticators :=
  if a.Proves password then
    let a := a.reserve x.now true
    match a.factor with
    | none => .error .scopeMismatch
    | some f =>
      if f.status = .active ∧ fresh = false then .error .reauthRequired
      else do
        let pending ← encryptFactor s.crypto x.seed.val (← x.keys.activeKey) x.pendingNonce s.userId
          (pendingScope s x.sessionId)
        let f ← audit { f with
          pendingCiphertext := some pending
          pendingKeyId := some x.keys.activeId
          pendingExpiresAt := some (x.now + enrollmentLifetime)
          pendingSessionId := some x.sessionId
          pendingEnrolled := ⟨a.history.enrollments + 1, x.seed.val⟩ } "begin" x.now
        .ok { a.setFactor f with
          history := { a.history with enrollments := a.history.enrollments + 1 } }
  else .error .invalidCredentials

/-- A factor without an enrollment in progress. -/
def Factor.clearPending (f : Factor) : Factor :=
  { f with
    pendingCiphertext := none
    pendingKeyId := none
    pendingExpiresAt := none
    pendingSessionId := none
    pendingEnrolled := ⟨0, []⟩ }

/-- The pending seed, sealed anew and made the factor's. -/
def Factor.enroll (f : Factor) (secret : Bytes) (keyId : String) (counter : Nat) : Factor :=
  { f.clearPending with
    secretCiphertext := some secret
    keyId := some keyId
    generation := f.generation + 1
    lastCounter := counter
    enrolled := f.pendingEnrolled }

def confirmEnrollment (a : Authenticators) (code : String) :
    Except MfaError (Authenticators × Nat × Grant) :=
  let a := a.reserve x.now false
  match a.factor with
  | none => .error .enrollmentExpired
  | some f =>
    match f.pendingCiphertext, f.pendingExpiresAt with
    | some pending, some expiresAt =>
      if f.pendingSessionId ≠ some x.sessionId ∨ expiresAt ≤ x.now then .error .enrollmentExpired
      else do
        let key ← x.keys.key f.pendingKeyId
        let seed ← decryptFactor s.crypto pending key s.userId (pendingScope s x.sessionId)
        match ← matchingCounter s.crypto seed code x.now (-1) with
        | none => .error .invalidCode
        | some counter =>
          let secret ← sealActive s x seed x.nonce
          let f := f.enroll secret x.keys.activeId counter
          let granted := Grant.timeStep f.enrolled counter code
          let a := a.grant granted
          let a ← a.replaceRecoveryCodes (x.codes.map s.crypto.hashToken) f.enrolled.number x.now
          let a := a.revokeSessions x.now (some x.sessionId)
          let f ← audit f "activate" x.now
          .ok (a.setFactor f, f.generation, granted)
    | _, _ => .error .enrollmentExpired

/-- `_prove`: what is consumed, with the audit event. -/
def prove (a : Authenticators) (f : Factor) (code : String) (allowRecovery : Bool) :
    Except MfaError (Authenticators × Factor × String × Grant) :=
  match normalizeRecoveryCode code with
  | some recovery =>
    if allowRecovery = false then .error .invalidCode
    else
      match a.codes.get (s.crypto.hashToken recovery) with
      | none => .error .invalidCode
      | some row =>
        let granted := Grant.recoveryCode row.enrollment row.number
        .ok (({ a with codes := a.codes.erase row.tokenHash }).grant granted, f, "recover", granted)
  | none => do
    match f.secretCiphertext with
    | none => .error .factorSecret
    | some envelope =>
      let key ← x.keys.key f.keyId
      let seed ← decryptFactor s.crypto envelope key s.userId s.scope
      match ← matchingCounter s.crypto seed code x.now f.lastCounter with
      | none => .error .invalidCode
      | some counter =>
        let granted := Grant.timeStep f.enrolled counter code
        let f := { f with lastCounter := counter }
        if f.keyId = some x.keys.activeId then .ok (a.grant granted, f, "authenticate", granted)
        else
          let secret ← sealActive s x seed x.nonce
          .ok (a.grant granted,
            { f with secretCiphertext := some secret, keyId := some x.keys.activeId },
            "authenticate", granted)

def activeFactor (a : Authenticators) : Except MfaError Factor :=
  match a.factor with
  | none => .error .notEnrolled
  | some f => if f.status = .active then .ok f else .error .notEnrolled

def verifyFactor (a : Authenticators) (code : String) :
    Except MfaError (Authenticators × Nat × Grant) := do
  let a := a.reserve x.now false
  let f ← activeFactor a
  let (a, f, event, granted) ← prove s x a f code true
  let f ← audit f event x.now
  .ok (a.setFactor f, f.generation, granted)

def reissueRecoveryCodes (a : Authenticators) (code : String) : Except MfaError Authenticators := do
  let a := a.reserve x.now false
  let f ← activeFactor a
  let (a, f, _, _) ← prove s x a f code false
  let a ← a.replaceRecoveryCodes (x.codes.map s.crypto.hashToken) f.enrolled.number x.now
  let f ← audit f "reissue_recovery_codes" x.now
  .ok (a.setFactor f)

def Factor.disable (f : Factor) : Factor :=
  { f.clearPending with
    secretCiphertext := none
    keyId := none
    lastCounter := -1
    generation := f.generation + 1 }

def disableFactor (a : Authenticators) (code : String) : Except MfaError Authenticators := do
  let a := a.reserve x.now false
  let f ← activeFactor a
  let (a, f, _, _) ← prove s x a f code true
  let f := f.disable
  let a ← a.replaceRecoveryCodes [] f.enrolled.number x.now
  let a := a.revokeSessions x.now (some x.sessionId)
  let f ← audit f "disable" x.now
  .ok (a.setFactor f)

/-- A sealed seed under the active key. -/
def rewrap (nonce : Drawn 12) (scope : String) (envelope : Bytes) (keyId : Option String) :
    Except MfaError Bytes := do
  let key ← x.keys.key keyId
  let seed ← decryptFactor s.crypto envelope key s.userId scope
  encryptFactor s.crypto seed (← x.keys.activeKey) nonce s.userId scope

def rewrapSecret (f : Factor) : Except MfaError Factor :=
  match f.secretCiphertext with
  | none => .ok f
  | some envelope =>
    if f.keyId = some x.keys.activeId then .ok f
    else do
      let secret ← rewrap s x x.nonce s.scope envelope f.keyId
      .ok { f with secretCiphertext := some secret, keyId := some x.keys.activeId }

def rewrapPending (f : Factor) : Except MfaError Factor :=
  match f.pendingCiphertext with
  | none => .ok f
  | some envelope =>
    if f.pendingKeyId = some x.keys.activeId then .ok f
    else do
      let pending ← rewrap s x x.pendingNonce (pendingScope s (f.pendingSessionId.getD "None")) envelope
        f.pendingKeyId
      .ok { f with pendingCiphertext := some pending, pendingKeyId := some x.keys.activeId }

/-- The account's turn in the loop of `rewrap_factors`. -/
def rewrapFactors (a : Authenticators) : Except MfaError Authenticators :=
  let a := a.reserve x.now false
  match a.factor with
  | none => .ok a
  | some f => do
    let f ← rewrapSecret s x f
    let f ← rewrapPending s x f
    .ok (a.setFactor f)

/-- `factors_wrapped_outside` -/
def WrappedOutside (a : Authenticators) (activeId : String) : Prop :=
  ∃ f ∈ a.factor, (∃ keyId ∈ f.keyId, keyId ≠ activeId) ∨ ∃ keyId ∈ f.pendingKeyId, keyId ≠ activeId

instance (a : Authenticators) (activeId : String) : Decidable (WrappedOutside a activeId) :=
  inferInstanceAs (Decidable (∃ f ∈ a.factor, (∃ keyId ∈ f.keyId, keyId ≠ activeId) ∨
    ∃ keyId ∈ f.pendingKeyId, keyId ≠ activeId))

def credential (a : Authenticators) : Except MfaError OperatorSession :=
  match a.sessions.get x.sessionId with
  | none => .error .sessionExpired
  | some row => if row.isLive x.now then .ok row else .error .sessionExpired

/-- `_reserve_with_password`, after the reservation. -/
def credentialWithPassword (a : Authenticators) (password : String) :
    Except MfaError OperatorSession :=
  if a.Proves password then credential x a else .error .invalidCredentials

def complete (a : Authenticators) (row : OperatorSession) (generation : Nat) (granted : Grant) :
    Except MfaError Authenticators := do
  let (a, replacement) ← a.rotateSession row generation granted x.now x.newSessionId
  match sessionPrincipal s a replacement x.completedAt with
  | none => .error .sessionExpired
  | some _ => .ok a

/-! ## Requests -/

inductive CeremonyRequest
  | signIn (password : String)
  | enroll (currentPassword : String)
  | confirm (code : String)
  | verify (currentPassword code : String)
  | reissueRecoveryCodes (currentPassword code : String)
  | disable (currentPassword code : String)
  | rewrap
  deriving DecidableEq

/-- A password-stage session. -/
def signIn (a : Authenticators) (password : String) (offline : Bool) (ttl : Instant) :
    Except MfaError Authenticators :=
  if a.Proves password then
    match a.sessions.insert ⟨x.newSessionId, offline, x.now, x.now, x.now + ttl, none, none, none,
      none⟩ with
    | none => .error .integrity
    | some sessions => .ok { a with sessions := sessions }
  else .error .invalidCredentials

/-- What a request does between its reservation and its commit; `row` is the credential read before
the reservation and `fresh` the age of the ceremony that the caller was resolved with. -/
def CeremonyRequest.body (a : Authenticators) (row : Option OperatorSession) (fresh : Bool) :
    CeremonyRequest → Except MfaError Authenticators
  | .signIn password => Identity.signIn x a password (s.scope ≠ "cloud") absoluteLifetime
  | .enroll password => beginEnrollment s x a password fresh
  | .confirm code =>
    match row with
    | none => .error .sessionExpired
    | some row => do
      let (a, generation, granted) ← confirmEnrollment s x a code
      complete s x a row generation granted
  | .verify password code => do
    let row ← credentialWithPassword x a password
    let (a, generation, granted) ← verifyFactor s x a code
    complete s x a row generation granted
  | .reissueRecoveryCodes password code => do
    let _ ← credentialWithPassword x a password
    Identity.reissueRecoveryCodes s x a code
  | .disable password code => do
    let _ ← credentialWithPassword x a password
    disableFactor s x a code
  | .rewrap => rewrapFactors s x a

/-- `get_pending_user` -/
def pendingUser (a : Authenticators) : Except MfaError AuthUser :=
  match a.sessions.get x.sessionId with
  | none => .error .notSignedIn
  | some row =>
    if row.isLive x.resolvedAt then
      match sessionPrincipal s a row x.resolvedAt with
      | none => .error .notSignedIn
      | some user => .ok user
    else .error .notSignedIn

def requireVerified (user : AuthUser) : Except MfaError Unit :=
  if user.mfaRequired ∧ user.mfaAuthenticated = false then .error .mfaRequired
  else if user.mfaRequired ∧ authenticationIsFresh user.authenticatedAt x.now = false then
    .error .reauthRequired
  else .ok ()

/-- A request at its next statement. -/
inductive CeremonyTx
  | begun (x : CeremonyContext) (request : CeremonyRequest)
  | readCredential (x : CeremonyContext) (request : CeremonyRequest) (fresh : Bool)
  | reserving (x : CeremonyContext) (request : CeremonyRequest) (row : Option OperatorSession)
      (fresh : Bool)
  | reserved (x : CeremonyContext) (request : CeremonyRequest) (row : Option OperatorSession)
      (fresh : Bool)
  | staged (request : CeremonyRequest) (result : Authenticators)

def CeremonyTx.reserves : CeremonyTx → Bool
  | .reserved .. | .staged .. => true
  | _ => false

/-- Whether the request may go on, by what it reads before any lock. -/
def CeremonyRequest.opens (a : Authenticators) (request : CeremonyRequest) :
    Except MfaError CeremonyTx :=
  match request with
  | .signIn _ | .rewrap => .ok (.reserving x request none false)
  | .enroll _ | .confirm _ => do
    let user ← pendingUser s x a
    .ok (.readCredential x request (authenticationIsFresh user.authenticatedAt x.now))
  | .verify .. => do
    let _ ← pendingUser s x a
    .ok (.reserving x request none false)
  | .reissueRecoveryCodes .. => do
    requireVerified x (← pendingUser s x a)
    .ok (.reserving x request none false)
  | .disable .. => do
    let user ← pendingUser s x a
    if s.mfaRequired then .error .mfaEnforced
    else
      requireVerified x user
      .ok (.reserving x request none false)

def runs {α : Type} (r : Except MfaError α) (next : α → Progress Authenticators MfaError CeremonyTx) :
    Progress Authenticators MfaError CeremonyTx :=
  match r with
  | .error e => .fails e
  | .ok a => next a

/-- The next statement of a request. -/
def CeremonyTx.exec (a : Authenticators) (others : List CeremonyTx) :
    CeremonyTx → Progress Authenticators MfaError CeremonyTx
  | .begun x request =>
    if request = .rewrap ∧ ¬ WrappedOutside a x.keys.activeId then .commits a
    else runs (request.opens s x a) .goesOn
  | .readCredential x request fresh =>
    runs (credential x a) (fun row => .goesOn (.reserving x request (some row) fresh))
  | .reserving x request row fresh =>
    if ∃ other ∈ others, other.reserves then .waits else .goesOn (.reserved x request row fresh)
  | .reserved x request row fresh =>
    runs (request.body s x a row fresh) (fun result => .goesOn (.staged request result))
  | .staged _ result => .commits result

abbrev Ceremonies := Interleaved Authenticators CeremonyTx

abbrev CeremonyMove := Interleaved.Move (CeremonyContext × CeremonyRequest)

def startCeremony (r : CeremonyContext × CeremonyRequest) : CeremonyTx := .begun r.1 r.2

end Identity
