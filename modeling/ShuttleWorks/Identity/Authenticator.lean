import Mathlib.Algebra.Ring.Int.Defs
import Mathlib.Algebra.Ring.Nat
import ShuttleWorks.Identity.Credentials
import ShuttleWorks.Lib.Machine

/-! One account's authenticator: the sealed seed, the time steps and recovery codes it accepts, and
the sessions that a ceremony with it has authenticated. -/

namespace Identity
open Lib Sync

abbrev Bytes := List UInt8

/-- The primitives that come from outside: AES-256-GCM, HMAC-SHA-1 over a counter and SHA-256. -/
structure Crypto where
  encrypt : (key nonce data : Bytes) → (associated : String) → Bytes
  decrypt : (key nonce data : Bytes) → (associated : String) → Option Bytes
  hmacSha1 : Bytes → Nat → Bytes
  hashToken : String → String

/-- AES-GCM authenticates: what decrypts at all decrypts to what was encrypted. -/
def Crypto.Authentic (c : Crypto) : Prop :=
  ∀ key nonce data associated key' associated' data',
    c.decrypt key' nonce (c.encrypt key nonce data associated) associated' = some data' →
      data' = data

/-- `secrets.token_bytes` of a length. -/
abbrev Drawn (n : Nat) := { bytes : Bytes // bytes.length = n }

inductive MfaError
  | invalidCredentials
  | scopeMismatch
  | reauthRequired
  | enrollmentExpired
  | invalidCode
  | notEnrolled
  | sessionExpired
  | factorSecret
  | keyring
  | invalidTime
  | transition (refusal : Refusal)
  | notSignedIn
  | mfaRequired
  | mfaEnforced
  | integrity
  deriving DecidableEq, Repr

/-- What of the deployment's settings the ceremonies use. -/
structure MfaSettings where
  crypto : Crypto
  userId : Uuid
  scope : String
  mfaRequired : Bool

structure SecretKeyring where
  activeId : String
  keys : List (String × Bytes)
  deriving DecidableEq

def SecretKeyring.key (k : SecretKeyring) (keyId : Option String) : Except MfaError Bytes :=
  match keyId.bind (fun id => k.keys.lookup id) with
  | none => .error .keyring
  | some key => .ok key

def SecretKeyring.activeKey (k : SecretKeyring) : Except MfaError Bytes := k.key (some k.activeId)

/-! ## Seeds, time steps and codes -/

def totpPeriod : Instant := 30 * second

def totpSecretBytes : Nat := 20

def associatedData (userId : Uuid) (scope : String) : Except MfaError String :=
  if scope = "" ∨ 128 < scope.length then .error .factorSecret
  else .ok ("shuttleworks:mfa:v1:" ++ userId ++ ":" ++ scope)

def encryptFactor (c : Crypto) (secret key : Bytes) (nonce : Drawn 12) (userId : Uuid)
    (scope : String) : Except MfaError Bytes := do
  if secret.length ≠ totpSecretBytes ∨ key.length ≠ 32 then .error .factorSecret
  else
    let associated ← associatedData userId scope
    .ok (1 :: (nonce.val ++ c.encrypt key nonce.val secret associated))

def decryptFactor (c : Crypto) (envelope key : Bytes) (userId : Uuid) (scope : String) :
    Except MfaError Bytes := do
  if envelope.length ≠ 49 ∨ envelope.take 1 ≠ [1] ∨ key.length ≠ 32 then .error .factorSecret
  else
    let associated ← associatedData userId scope
    match c.decrypt key ((envelope.drop 1).take 12) (envelope.drop 13) associated with
    | none => .error .factorSecret
    | some secret => .ok secret

/-- `_counter` -/
def counterAt (now : Instant) : Except MfaError Nat :=
  if now < 0 then .error .invalidTime
  else if 2 ^ 64 ≤ (now / totpPeriod).toNat then .error .invalidTime
  else .ok (now / totpPeriod).toNat

def bigEndian (bytes : Bytes) : Nat := bytes.foldl (fun n b => n * 256 + b.toNat) 0

/-- `str(value).zfill(6)` -/
def zfill6 (value : Nat) : List Char :=
  let digits := Nat.toDigits 10 value
  List.replicate (6 - digits.length) '0' ++ digits

/-- `totp_code` with six digits, at a time step. -/
def totpCode (c : Crypto) (secret : Bytes) (counter : Nat) : List Char :=
  let digest := c.hmacSha1 secret counter
  let offset := (digest.getLastD 0).toNat % 16
  zfill6 (bigEndian ((digest.drop offset).take 4) % 2 ^ 31 % 10 ^ 6)

def isSixDigits (code : List Char) : Bool := code.length = 6 && code.all Char.isDigit

def matchingCounter (c : Crypto) (secret : Bytes) (code : String) (now : Instant)
    (afterCounter : Int) : Except MfaError (Option Nat) := do
  if isSixDigits code.toList then
    let counter ← counterAt now
    if (counter : Int) ≤ afterCounter then .ok none
    else if secret.length ≠ totpSecretBytes then .error .invalidTime
    else .ok (if totpCode c secret counter = code.toList then some counter else none)
  else .ok none

def isHex (c : Char) : Bool :=
  c.isDigit || ('a' ≤ c && c ≤ 'f') || ('A' ≤ c && c ≤ 'F')

/-- The digits of a recovery code: 32 of them, or four groups of eight between dashes. -/
def recoveryDigits (value : List Char) : Option (List Char) :=
  if value.length = 32 ∧ value.all isHex then some value
  else if value.length = 35 ∧ value[8]? = some '-' ∧ value[17]? = some '-' ∧ value[26]? = some '-' ∧
      (value.filter (· ≠ '-')).length = 32 ∧ (value.filter (· ≠ '-')).all isHex then
    some (value.filter (· ≠ '-'))
  else none

def normalizeRecoveryCode (value : String) : Option String :=
  if 64 < value.length then none
  else (recoveryDigits (pyStrip value).toList).map (fun digits =>
    String.ofList (digits.map Char.toLower))

/-! ## Rows -/

inductive FactorStatus
  | unconfigured
  | active
  deriving DecidableEq, Repr

def FactorStatus.value : FactorStatus → String
  | .unconfigured => "unconfigured"
  | .active => "active"

def operatorMfaFactor : StateMachine FactorStatus where
  name := "operator_mfa_factor"
  version := 1
  edges := [
    { event := "begin", fromStates := [.unconfigured], target := .unconfigured },
    { event := "begin", fromStates := [.active], target := .active },
    { event := "activate", fromStates := [.unconfigured, .active], target := .active },
    { event := "authenticate", fromStates := [.active], target := .active },
    { event := "recover", fromStates := [.active], target := .active },
    { event := "password_change", fromStates := [.active], target := .active },
    { event := "reissue_recovery_codes", fromStates := [.active], target := .active },
    { event := "disable", fromStates := [.active], target := .unconfigured },
    { event := "administrator_reset", fromStates := [.unconfigured, .active],
      target := .unconfigured, actor := "system" }]

/-- An enrollment that was begun, by its number, with the seed drawn for it; no code reads it. -/
structure Enrollment where
  number : Nat
  seed : Bytes
  deriving DecidableEq, Repr

structure Factor where
  status : FactorStatus := .unconfigured
  generation : Nat := 0
  revision : Nat := 0
  secretCiphertext : Option Bytes := none
  keyId : Option String := none
  pendingCiphertext : Option Bytes := none
  pendingKeyId : Option String := none
  pendingExpiresAt : Option Instant := none
  pendingSessionId : Option Uuid := none
  lastCounter : Int := -1
  createdAt : Instant
  updatedAt : Instant
  /-- Whose seeds are sealed in the two ciphertexts. -/
  enrolled : Enrollment := ⟨0, []⟩
  pendingEnrolled : Enrollment := ⟨0, []⟩
  deriving DecidableEq, Repr

/-- A row under the hash of its code, with its number among all codes and whose code it is. -/
structure RecoveryCode where
  tokenHash : String
  createdAt : Instant
  number : Nat
  enrollment : Nat
  deriving DecidableEq, Repr

/-- What a ceremony has consumed. -/
inductive Grant
  | timeStep (enrolled : Enrollment) (counter : Nat) (code : String)
  | recoveryCode (enrollment number : Nat)
  deriving DecidableEq, Repr

def Grant.enrollment : Grant → Nat
  | .timeStep enrolled _ _ => enrolled.number
  | .recoveryCode enrollment _ => enrollment

/-- A time step of a seed, or a recovery code. -/
inductive Spent
  | timeStep (enrollment counter : Nat)
  | recoveryCode (number : Nat)
  deriving DecidableEq, Repr

def Grant.spent : Grant → Spent
  | .timeStep enrolled counter _ => .timeStep enrolled.number counter
  | .recoveryCode _ number => .recoveryCode number

/-- A cloud or node session; `proved` is what its ceremony consumed. -/
structure OperatorSession where
  id : Uuid
  offline : Bool
  createdAt : Instant
  lastSeenAt : Instant
  expiresAt : Instant
  revokedAt : Option Instant := none
  mfaGeneration : Option Nat := none
  authenticatedAt : Option Instant := none
  proved : Option Grant := none
  deriving DecidableEq, Repr

/-- `session_is_live`; the `WHERE` of `_live_credential` asks the same. -/
def OperatorSession.isLive (row : OperatorSession) (now : Instant) : Prop :=
  row.revokedAt = none ∧ row.createdAt ≤ row.lastSeenAt ∧ row.lastSeenAt ≤ now ∧
    now < min row.expiresAt (row.createdAt + absoluteLifetime) ∧ now < row.lastSeenAt + idleLifetime

instance (row : OperatorSession) (now : Instant) : Decidable (row.isLive now) :=
  inferInstanceAs (Decidable (_ ∧ _ ∧ _ ∧ _ ∧ _))

/-- What happened so far; no code reads it. -/
structure CeremonyHistory where
  enrollments : Nat := 0
  issued : Nat := 0
  /-- The committed ceremonies, the latest first. -/
  grants : List Grant := []
  deriving DecidableEq, Repr

structure Authenticators where
  passwordHash : Option PasswordHash
  factor : Option Factor := none
  codes : Table RecoveryCode.tokenHash := .empty
  sessions : Table OperatorSession.id := .empty
  history : CeremonyHistory := {}
  deriving DecidableEq

namespace Authenticators

def Proves (a : Authenticators) (password : String) : Prop :=
  ∃ h ∈ a.passwordHash, h.verify password

instance (a : Authenticators) (password : String) : Decidable (a.Proves password) :=
  inferInstanceAs (Decidable (∃ h ∈ a.passwordHash, h.verify password))

def setFactor (a : Authenticators) (f : Factor) : Authenticators := { a with factor := some f }

def grant (a : Authenticators) (g : Grant) : Authenticators :=
  { a with history := { a.history with grants := g :: a.history.grants } }

/-- `reserve`, once the account is reserved. -/
def reserve (a : Authenticators) (now : Instant) (create : Bool) : Authenticators :=
  match a.factor with
  | none => if create then a.setFactor { createdAt := now, updatedAt := now, revision := 1 } else a
  | some f => a.setFactor { f with revision := f.revision + 1 }

/-- A new code under the unique index on the hash. -/
def addRecoveryCode (now : Instant) (enrollment : Nat) (a : Authenticators) (digest : String) :
    Except MfaError Authenticators :=
  match a.codes.insert ⟨digest, now, a.history.issued, enrollment⟩ with
  | none => .error .integrity
  | some codes => .ok { a with
      codes := codes
      history := { a.history with issued := a.history.issued + 1 } }

def replaceRecoveryCodes (a : Authenticators) (digests : List String) (enrollment : Nat)
    (now : Instant) : Except MfaError Authenticators :=
  digests.foldlM (addRecoveryCode now enrollment) { a with codes := .empty }

def revokeSessions (a : Authenticators) (now : Instant) (exceptId : Option Uuid) :
    Authenticators :=
  { a with
    sessions := a.sessions.update
      (fun row => if row.revokedAt = none ∧ exceptId ≠ some row.id then
        { row with revokedAt := some now } else row)
      (fun row => by split <;> rfl) }

/-- `rotate_session`: end the row if it is still live, and open its successor. -/
def rotateSession (a : Authenticators) (row : OperatorSession) (generation : Nat) (proved : Grant)
    (now : Instant) (newId : Uuid) : Except MfaError (Authenticators × OperatorSession) :=
  match a.sessions.get row.id with
  | none => .error .sessionExpired
  | some current =>
    if current.isLive now then
      let replacement : OperatorSession := {
        id := newId
        offline := row.offline
        createdAt := row.createdAt
        lastSeenAt := now
        expiresAt := min row.expiresAt (row.createdAt + absoluteLifetime)
        mfaGeneration := some generation
        authenticatedAt := some now
        proved := some proved }
      match (a.sessions.put { current with revokedAt := some now }).insert replacement with
      | none => .error .integrity
      | some sessions => .ok ({ a with sessions := sessions }, replacement)
    else .error .sessionExpired

end Authenticators

/-! ## Principals -/

structure AuthUser where
  sessionId : Uuid
  mfaRequired : Bool
  mfaEnrolled : Bool
  mfaAuthenticated : Bool
  authenticatedAt : Option Instant
  deriving DecidableEq, Repr

def pendingLifetime : Instant := 600 * second

def authenticationFreshness : Instant := 300 * second

def enrollmentLifetime : Instant := 600 * second

/-- The row was authenticated by a ceremony of the generation that is active now. -/
def Authenticated (a : Authenticators) (row : OperatorSession) (now : Instant) : Prop :=
  ∃ f ∈ a.factor, f.status = .active ∧ row.mfaGeneration = some f.generation ∧
    ∃ authenticatedAt ∈ row.authenticatedAt, row.createdAt ≤ authenticatedAt ∧ authenticatedAt ≤ now

instance (a : Authenticators) (row : OperatorSession) (now : Instant) :
    Decidable (Authenticated a row now) :=
  inferInstanceAs (Decidable (∃ f ∈ a.factor, f.status = .active ∧
    row.mfaGeneration = some f.generation ∧ ∃ authenticatedAt ∈ row.authenticatedAt,
      row.createdAt ≤ authenticatedAt ∧ authenticatedAt ≤ now))

def sessionPrincipal (s : MfaSettings) (a : Authenticators) (row : OperatorSession)
    (now : Instant) : Option AuthUser :=
  let enrolled : Bool := ∃ f ∈ a.factor, f.status = .active
  let required := s.mfaRequired || enrolled
  let authenticated : Bool := Authenticated a row now
  if required && !authenticated && row.createdAt + pendingLifetime ≤ now then none
  else some {
    sessionId := row.id
    mfaRequired := required
    mfaEnrolled := enrolled
    mfaAuthenticated := authenticated
    authenticatedAt := if authenticated then row.authenticatedAt else none }

def authenticationIsFresh (authenticatedAt : Option Instant) (now : Instant) : Bool :=
  match authenticatedAt with
  | none => false
  | some authenticated => authenticated ≤ now ∧ now < authenticated + authenticationFreshness

end Identity
