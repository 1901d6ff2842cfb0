import ShuttleWorks.Lib.Except
import ShuttleWorks.Lib.Json

/-! Transport schemas of the synchronization protocol, its errors, and the
settings and primitives that the process is started with. -/

namespace Sync
open Lib

/-- The canonical text of a UUID. -/
abbrev Uuid := String

/-- The ISO text of an instant. -/
abbrev Timestamp := String

/-! ## Errors -/

structure ProtocolError where
  statusCode : Nat
  code : String
  message : String
  detail : JsonObject := []
  deriving DecidableEq

/-- What a call can raise: a typed protocol error, or any other exception by
its type name and text. -/
inductive Raised
  | protocol (e : ProtocolError)
  | exception (type message : String)
  deriving DecidableEq

def refuse {α : Type} (statusCode : Nat) (code message : String) (detail : JsonObject := []) :
    Except Raised α :=
  .error (.protocol ⟨statusCode, code, message, detail⟩)

def Raised.isIntegrityError : Raised → Bool
  | .exception type _ => type = "IntegrityError"
  | .protocol _ => false

/-! ## Settings and primitives -/

def hexdigits : List Char := "0123456789abcdefABCDEF".toList

/-- A SHA-256 hexdigest. -/
abbrev HexDigest := {h : String // h.length = 64 ∧ ∀ c ∈ h.toList, c ∈ hexdigits}

structure SigningKey where
  keyId : String
  sign : String → String

/-- Settings read by the protocol, and the cryptography it is linked with. -/
structure Env where
  environment : String
  deploymentProfile : String
  sha256 : String → HexDigest
  privateSigningKey : Except ProtocolError SigningKey
  publicKeyFingerprint : String → Except ProtocolError String
  /-- Whether a public key verifies a signature over a text. -/
  verifies : (publicKey signature message : String) → Bool
  /-- Python's text of a list or a dict. -/
  reprContainer : Json → String
  /-- The database's text for a row that breaks the named uniqueness constraint. -/
  uniqueViolation : String → String

def integrityError (env : Env) (constraint : String) : Raised :=
  .exception "IntegrityError" (env.uniqueViolation constraint)

def canonicalJson (value : Json) : String := String.ofList (value.dumps Json.escape)

def utf8Sha256 (env : Env) (text : String) : String := (env.sha256 text).val

/-- Python's `str`. -/
def pyStr (env : Env) : Json → String
  | .null => "None"
  | .bool b => if b then "True" else "False"
  | .int n => toString n
  | .float t => t.val
  | .str s => s
  | .arr xs => env.reprContainer (.arr xs)
  | .obj kvs => env.reprContainer (.obj kvs)

/-! ## Compatibility -/

def supportedOperationSchemaVersions : List Nat := [1]

def supportedCheckpointSchemaVersions : List Nat := [1]

def currentOperationSchemaVersion : Nat := 1

def currentCheckpointSchemaVersion : Nat := 1

def minSupportedSchemaVersion : Nat := 1

def supportsOperationSchema (version : Nat) : Bool := version ∈ supportedOperationSchemaVersions

def supportsCheckpointSchema : Json → Bool
  | .int n => n ∈ supportedCheckpointSchemaVersions.map Int.ofNat
  | _ => false

/-! ## Envelopes -/

structure OperationEnvelope where
  operationId : Uuid
  eventId : Uuid
  nodeId : Uuid
  authorityEpoch : Nat
  sequence : Nat
  actorId : Uuid
  commandType : String
  aggregateType : String
  aggregateId : String
  expectedVersion : Option Nat
  payload : JsonObject
  occurredAtLocal : Timestamp
  acceptedAtNode : Timestamp
  traceparent : Option String
  schemaVersion : Nat
  deriving DecidableEq

/-- The bounds on the fields of an envelope. -/
structure OperationEnvelope.WellFormed (o : OperationEnvelope) : Prop where
  authorityEpoch : 1 ≤ o.authorityEpoch
  sequence : 1 ≤ o.sequence
  commandType : 1 ≤ o.commandType.length ∧ o.commandType.length ≤ 100
  aggregateType : 1 ≤ o.aggregateType.length ∧ o.aggregateType.length ≤ 50
  aggregateId : 1 ≤ o.aggregateId.length ∧ o.aggregateId.length ≤ 200
  traceparent : ∀ t ∈ o.traceparent, t.length ≤ 128
  schemaVersion : minSupportedSchemaVersion ≤ o.schemaVersion

instance (o : OperationEnvelope) : Decidable o.WellFormed :=
  decidable_of_iff
    (1 ≤ o.authorityEpoch ∧ 1 ≤ o.sequence ∧
      (1 ≤ o.commandType.length ∧ o.commandType.length ≤ 100) ∧
      (1 ≤ o.aggregateType.length ∧ o.aggregateType.length ≤ 50) ∧
      (1 ≤ o.aggregateId.length ∧ o.aggregateId.length ≤ 200) ∧
      (∀ t ∈ o.traceparent, t.length ≤ 128) ∧ minSupportedSchemaVersion ≤ o.schemaVersion)
    ⟨fun ⟨a, b, c, d, e, f, g⟩ => ⟨a, b, c, d, e, f, g⟩,
      fun ⟨a, b, c, d, e, f, g⟩ => ⟨a, b, c, d, e, f, g⟩⟩

def maxSyncBatchOperations : Nat := 250

/-- A batch is never empty, bounded in length, and each envelope is well formed. -/
structure SyncBatchRequest where
  nodeId : Uuid
  authorityEpoch : Nat
  operations : List OperationEnvelope
  authorityEpoch_pos : 1 ≤ authorityEpoch
  operations_length : 1 ≤ operations.length ∧ operations.length ≤ maxSyncBatchOperations
  wellFormed : ∀ o ∈ operations, o.WellFormed

structure SyncBatchResponse where
  highestContiguousSequence : Nat
  accepted : Nat
  duplicates : Nat
  deriving DecidableEq

/-! ## Checks on a checkpoint package -/

/-! ## Refusals in sequence -/

/-- Refuse unless `p` holds. -/
def require (p : Prop) [Decidable p] (statusCode : Nat) (code message : String)
    (detail : JsonObject := []) : Except Raised Unit :=
  if p then .ok () else refuse statusCode code message detail

def found {α : Type} (x : Option α) (statusCode : Nat) (code message : String) :
    Except Raised α :=
  match x with
  | some a => .ok a
  | none => refuse statusCode code message

variable {n : Nat} {c m : String} {α : Type} {d : JsonObject}

@[simp] theorem refuse_ne_ok {a : α} :
    refuse n c m d ≠ .ok a := by
  simp [refuse]

@[simp] theorem require_eq_ok {p : Prop} [Decidable p] {u : Unit} :
    require p n c m d = .ok u ↔ p := by
  unfold require
  split <;> simp_all

@[simp] theorem found_eq_ok {x : Option α} {a : α} :
    found x n c m = .ok a ↔ x = some a := by
  cases x <;> simp [found]

/-! ## Text -/

/-- White space as `str.strip` removes it. -/
def pyIsSpace (c : Char) : Bool :=
  let n := c.toNat
  (9 ≤ n ∧ n ≤ 13) ∨ (28 ≤ n ∧ n ≤ 32) ∨ n = 0x85 ∨ n = 0xa0 ∨ n = 0x1680 ∨
    (0x2000 ≤ n ∧ n ≤ 0x200a) ∨ n = 0x2028 ∨ n = 0x2029 ∨ n = 0x202f ∨ n = 0x205f ∨ n = 0x3000

def stripWith (p : Char → Bool) (s : String) : String :=
  String.ofList (((s.toList.dropWhile p).reverse.dropWhile p).reverse)

def pyStrip (s : String) : String := stripWith pyIsSpace s

/-- The UUID a text stands for: 32 hexadecimal digits, with hyphens, curly
braces and a URN prefix optional. -/
def parseUuid (text : String) : Option Uuid :=
  let urn := "urn:uuid:".toList
  let body := if urn.isPrefixOf text.toList then text.toList.drop urn.length else text.toList
  let bare := (stripWith (fun c => c = '{' ∨ c = '}') (String.ofList body)).toList
  let digits := (bare.filter (fun c => c ≠ '-')).map Char.toLower
  if digits.length = 32 ∧ digits.all (fun c => c ∈ hexdigits) then
    some (String.ofList (digits.take 8 ++ '-' :: (digits.drop 8).take 4 ++
      '-' :: (digits.drop 12).take 4 ++ '-' :: (digits.drop 16).take 4 ++ '-' :: digits.drop 20))
  else none

/-- Python's `==` between a JSON value and a whole number: `True` equals 1 and
`1.0` equals 1. -/
def pyEqInt (n : Int) : Json → Bool
  | .int m => m = n
  | .bool b => (if b then 1 else 0) = n
  | .float t => t.val = toString n ++ ".0"
  | _ => false

/-! ## Checkpoints -/

def checkpointDigest (env : Env) (checkpoint : JsonObject) : String :=
  utf8Sha256 env (canonicalJson (.obj checkpoint))

def checkpointCollections : List String :=
  ["bracketEvents", "bracketParticipants", "bracketMatches", "bracketResults"]

def invalidCheckpoint {α : Type} (message : String) : Except Raised α :=
  refuse 409 "invalid_checkpoint" message

def checkpointUuid (env : Env) (value : Option Json) (message : String) : Except Raised Uuid :=
  match value with
  | some j => found (parseUuid (pyStr env j)) 409 "invalid_checkpoint" message
  | none => invalidCheckpoint message

/-- One member of the operator policy, given the user ids before it. -/
def validatePolicyMember (env : Env) (seen : List Uuid) (member : Json) :
    Except Raised (List Uuid) := do
  match member with
  | .obj m =>
    let userId ← checkpointUuid env (Assoc.get "userId" m)
      "Checkpoint operator policy userId is invalid"
    require (userId ∉ seen) 409 "invalid_checkpoint"
      "Checkpoint operator policy contains duplicate users"
    match Assoc.get "email" m with
    | some (.str email) =>
      require (email ≠ "") 409 "invalid_checkpoint" "Checkpoint operator policy email is invalid"
    | _ => invalidCheckpoint "Checkpoint operator policy email is invalid"
    match Assoc.get "displayName" m with
    | none | some .null | some (.str _) => .ok ()
    | _ => invalidCheckpoint "Checkpoint operator policy displayName is invalid"
    match Assoc.get "role" m with
    | some (.str role) =>
      require (role ∈ ["viewer", "operator", "owner"]) 409 "invalid_checkpoint"
        "Checkpoint operator policy role is invalid"
    | some (.arr _) => typeError "unhashable type: 'list'"
    | some (.obj _) => typeError "unhashable type: 'dict'"
    | _ => invalidCheckpoint "Checkpoint operator policy role is invalid"
    .ok (userId :: seen)
  | _ => invalidCheckpoint "Checkpoint operator policy member is invalid"
where
  typeError (message : String) : Except Raised Unit := .error (.exception "TypeError" message)

def validatePolicy (env : Env) : Json → Except Raised Unit
  | .obj policy => do
    require ((Assoc.get "schemaVersion" policy).any (pyEqInt 1)) 409
      "unsupported_operator_policy_schema" "Operator policy schema is incompatible"
    match Assoc.get "members" policy with
    | some (.arr members) =>
      let _ ← members.foldlM (validatePolicyMember env) []
      .ok ()
    | _ => invalidCheckpoint "Checkpoint operator policy is invalid"
  | _ => refuse 409 "unsupported_operator_policy_schema" "Operator policy schema is incompatible"

/-- The tournament of a valid checkpoint. -/
def validateCheckpoint (env : Env) (checkpoint : JsonObject) (expectedHash : Option String) :
    Except Raised Uuid := do
  require (supportsCheckpointSchema ((Assoc.get "checkpointSchemaVersion" checkpoint).getD .null))
    409 "unsupported_checkpoint_schema" "Checkpoint schema is incompatible"
  require (∀ h ∈ expectedHash, checkpointDigest env checkpoint = h) 409 "checkpoint_hash_mismatch"
    "Checkpoint digest does not match"
  let tournamentId ← checkpointUuid env (Assoc.get "tournamentId" checkpoint)
    "Checkpoint tournamentId is invalid"
  match Assoc.get "normalized" checkpoint with
  | some (.obj normalized) =>
    checkpointCollections.forM fun collection =>
      match Assoc.get collection normalized with
      | some (.arr _) => .ok ()
      | _ => invalidCheckpoint ("Checkpoint collection " ++ collection ++ " is invalid")
  | _ => invalidCheckpoint "Checkpoint has no normalized bracket slice"
  match Assoc.get "operatorPolicy" checkpoint with
  | none | some .null => .ok ()
  | some policy => validatePolicy env policy
  .ok tournamentId

end Sync
