import ShuttleWorks.Identity.Members

/-! One account's password, reset token and sessions, in the two principal stacks: operators
reserve the account before they change or grant a credential, entrants do not. -/

namespace Identity
open Lib Sync

inductive Principal
  | operator
  | entrant
  deriving DecidableEq, Repr

/-- A password hash under a salt and the hasher's parameters; no two passwords share one. -/
structure PasswordHash where
  password : String
  salt : Nat
  params : Nat
  deriving DecidableEq, Repr

/-- `verify_password` -/
def PasswordHash.verify (h : PasswordHash) (password : String) : Bool := h.password = password

structure AuthSettings where
  passwordMinLength : Nat
  passwordMaxLength : Nat
  /-- The most commonly breached passwords, in lower case. -/
  worstPasswords : List String
  lower : String → String
  hashParams : Nat
  sessionTtl : Instant
  resetTokenTtl : Instant

inductive AuthError
  | passwordTooShort
  | passwordTooLong
  | passwordTooCommon
  | invalidCredentials
  | noPassword
  | signInAgain
  | notFound
  deriving DecidableEq, Repr

def validatePassword (c : AuthSettings) (password : String) : Except AuthError Unit :=
  if password.length < c.passwordMinLength then .error .passwordTooShort
  else if c.passwordMaxLength < password.length then .error .passwordTooLong
  else if c.lower password ∈ c.worstPasswords then .error .passwordTooCommon
  else .ok ()

/-- A session row under the hash of its token. -/
structure AuthSession where
  token : Nat
  createdAt : Instant
  lastSeenAt : Instant
  expiresAt : Instant
  revokedAt : Option Instant := none
  /-- How often the password had been changed when it was proved for this session. -/
  provedAt : Nat
  deriving DecidableEq, Repr

def absoluteLifetime : Instant := 12 * 3600 * second

def idleLifetime : Instant := 3600 * second

/-- `session_is_live` -/
def AuthSession.isLive (row : AuthSession) (now : Instant) : Prop :=
  row.revokedAt = none ∧ row.createdAt ≤ row.lastSeenAt ∧ row.lastSeenAt ≤ now ∧
    now < min row.expiresAt (row.createdAt + absoluteLifetime) ∧ now < row.lastSeenAt + idleLifetime

instance (row : AuthSession) (now : Instant) : Decidable (row.isLive now) :=
  inferInstanceAs (Decidable (_ ∧ _ ∧ _ ∧ _ ∧ _))

/-- What happened to the account so far; no code reads it. -/
structure AccountHistory where
  /-- Committed resets and changes of the password. -/
  changes : Nat := 0
  /-- The session that made the latest of them, if that was a change. -/
  changer : Option Nat := none
  /-- The reset tokens that changed the password, the latest first. -/
  consumed : List Nat := []
  deriving DecidableEq, Repr

structure Credentials where
  passwordHash : Option PasswordHash
  resetTokenHash : Option Nat := none
  resetTokenExpiresAt : Option Instant := none
  sessions : Table AuthSession.token
  /-- The next token or salt; `secrets` never repeats one. -/
  drawn : Nat
  history : AccountHistory := {}
  deriving DecidableEq

namespace Credentials

def setPassword (c : Credentials) (s : AuthSettings) (password : String) : Credentials :=
  { c with passwordHash := some ⟨password, c.drawn, s.hashParams⟩, drawn := c.drawn + 1 }

/-- `create_session` -/
def openSession (c : Credentials) (s : AuthSettings) (provedAt : Nat) (now : Instant) :
    Credentials :=
  { c with
    sessions := c.sessions.put ⟨c.drawn, now, now, now + min s.sessionTtl absoluteLifetime, none,
      provedAt⟩
    drawn := c.drawn + 1 }

/-- Stamp `revoked_at` on the rows with these tokens. -/
def revoke (c : Credentials) (tokens : List Nat) (now : Instant) : Credentials :=
  { c with
    sessions := c.sessions.update
      (fun row => if row.token ∈ tokens then { row with revokedAt := some now } else row)
      (fun row => by split <;> rfl) }

/-- The rows `revoke_all_sessions` reads. -/
def unrevoked (c : Credentials) (keep : Option Nat) : List Nat :=
  ((c.sessions.rows.filter (fun row => row.revokedAt = none)).map AuthSession.token).filter
    (fun token => keep ≠ some token)

def touch (c : Credentials) (token : Nat) (now : Instant) : Credentials :=
  { c with
    sessions := c.sessions.update
      (fun row => if row.token = token then { row with lastSeenAt := now } else row)
      (fun row => by split <;> rfl) }

def Redeems (c : Credentials) (token : Nat) (now : Instant) : Prop :=
  c.resetTokenHash = some token ∧ ∃ expiresAt ∈ c.resetTokenExpiresAt, now < expiresAt

instance (c : Credentials) (token : Nat) (now : Instant) : Decidable (c.Redeems token now) :=
  inferInstanceAs (Decidable (_ ∧ _))

def Proves (c : Credentials) (password : String) : Prop :=
  ∃ h ∈ c.passwordHash, h.verify password

instance (c : Credentials) (password : String) : Decidable (c.Proves password) :=
  inferInstanceAs (Decidable (∃ h ∈ c.passwordHash, h.verify password))

/-- `password_needs_rehash` of the stored hash. -/
def NeedsRehash (c : Credentials) (s : AuthSettings) : Prop :=
  ∃ h ∈ c.passwordHash, h.params ≠ s.hashParams

instance (c : Credentials) (s : AuthSettings) : Decidable (c.NeedsRehash s) :=
  inferInstanceAs (Decidable (∃ h ∈ c.passwordHash, h.params ≠ s.hashParams))

end Credentials

/-! ## Transactions -/

inductive AuthRequest
  | login (password : String) (now : Instant)
  | requestReset (now : Instant)
  | resetPassword (token : Nat) (newPassword : String) (now : Instant)
  | changePassword (currentToken : Option Nat) (currentPassword newPassword : String) (now : Instant)
  | logout (token : Nat) (now : Instant)
  | activity (token : Nat) (now : Instant)
  deriving DecidableEq

/-- A request at its next statement. -/
inductive AuthTx
  | login (password : String) (now : Instant)
  | loginReserve (password : String) (now : Instant)
  | loginInsert (provedAt : Nat) (rehash : Option String) (now : Instant)
  | issue (now : Instant)
  | issueWrite (now : Instant)
  | reset (token : Nat) (newPassword : String) (now : Instant)
  | resetReserve (token : Nat) (newPassword : String) (now : Instant)
  | resetSweep (token : Nat) (newPassword : String) (now : Instant)
  | resetWrite (token : Nat) (newPassword : String) (revoked : List Nat) (now : Instant)
  | change (currentToken : Option Nat) (currentPassword newPassword : String) (now : Instant)
  | changeReserve (currentToken : Option Nat) (currentPassword newPassword : String) (now : Instant)
  | changeSweep (currentToken : Option Nat) (newPassword : String) (now : Instant)
  | changeWrite (currentToken : Option Nat) (newPassword : String) (revoked : List Nat)
      (now : Instant)
  | logout (token : Nat) (now : Instant)
  | logoutWrite (token : Nat) (now : Instant)
  | activity (token : Nat) (now : Instant)
  deriving DecidableEq

def AuthRequest.start : AuthRequest → AuthTx
  | .login password now => .login password now
  | .requestReset now => .issue now
  | .resetPassword token newPassword now => .reset token newPassword now
  | .changePassword currentToken currentPassword newPassword now =>
    .change currentToken currentPassword newPassword now
  | .logout token now => .logout token now
  | .activity token now => .activity token now

/-- It has run `reserve_account`, which only operators do. -/
def AuthTx.reserves (p : Principal) : AuthTx → Bool
  | .loginInsert .. | .issueWrite .. | .resetSweep .. | .resetWrite .. | .changeSweep ..
  | .changeWrite .. => p = .operator
  | _ => false

/-- `reserve_account` waits for whoever holds the account row. -/
def Reserved (p : Principal) (others : List AuthTx) : Prop := ∃ other ∈ others, other.reserves p

instance (p : Principal) (others : List AuthTx) : Decidable (Reserved p others) :=
  inferInstanceAs (Decidable (∃ other ∈ others, other.reserves p))

/-- The next statement of a request. -/
def AuthTx.exec (s : AuthSettings) (p : Principal) (c : Credentials) (others : List AuthTx) :
    AuthTx → Progress Credentials AuthError AuthTx
  | .login password now =>
    if c.Proves password then
      match p with
      | .operator => .goesOn (.loginReserve password now)
      | .entrant => .goesOn (.loginInsert c.history.changes none now)
    else .fails .invalidCredentials
  | .loginReserve password now =>
    if Reserved p others then .waits
    else if c.Proves password then
      .goesOn (.loginInsert c.history.changes (if c.NeedsRehash s then some password else none) now)
    else .fails .invalidCredentials
  | .loginInsert provedAt rehash now =>
    .commits (((rehash.map (c.setPassword s)).getD c).openSession s provedAt now)
  | .issue now =>
    match p with
    | .operator => if Reserved p others then .waits else .goesOn (.issueWrite now)
    | .entrant => .goesOn (.issueWrite now)
  | .issueWrite now =>
    .commits { c with
      resetTokenHash := some c.drawn
      resetTokenExpiresAt := some (now + s.resetTokenTtl)
      drawn := c.drawn + 1 }
  -- a token that does not match is answered without a change
  | .reset token newPassword now =>
    match p with
    | .operator =>
      if c.resetTokenHash = some token then .goesOn (.resetReserve token newPassword now)
      else .commits c
    | .entrant =>
      if c.Redeems token now then
        match validatePassword s newPassword with
        | .error e => .fails e
        | .ok () => .goesOn (.resetSweep token newPassword now)
      else .commits c
  | .resetReserve token newPassword now =>
    if Reserved p others then .waits
    else if c.Redeems token now then
      match validatePassword s newPassword with
      | .error e => .fails e
      | .ok () => .goesOn (.resetSweep token newPassword now)
    else .commits c
  | .resetSweep token newPassword now =>
    .goesOn (.resetWrite token newPassword (c.unrevoked none) now)
  | .resetWrite token newPassword revoked now =>
    .commits { (c.setPassword s newPassword).revoke revoked now with
      resetTokenHash := none
      resetTokenExpiresAt := none
      history := ⟨c.history.changes + 1, none, token :: c.history.consumed⟩ }
  | .change currentToken currentPassword newPassword now =>
    match p with
    | .operator =>
      if c.passwordHash = none then .fails .noPassword
      else if c.Proves currentPassword then
        match validatePassword s newPassword with
        | .error e => .fails e
        | .ok () => .goesOn (.changeReserve currentToken currentPassword newPassword now)
      else .fails .invalidCredentials
    -- entrants have no such route
    | .entrant => .fails .notFound
  | .changeReserve currentToken currentPassword newPassword now =>
    if Reserved p others then .waits
    else if c.Proves currentPassword then
      if ∀ token ∈ currentToken, ∃ row ∈ c.sessions.get token, row.isLive now then
        .goesOn (.changeSweep currentToken newPassword now)
      else .fails .signInAgain
    else .fails .invalidCredentials
  | .changeSweep currentToken newPassword now =>
    .goesOn (.changeWrite currentToken newPassword (c.unrevoked currentToken) now)
  | .changeWrite currentToken newPassword revoked now =>
    .commits { (c.setPassword s newPassword).revoke revoked now with
      history := ⟨c.history.changes + 1, currentToken, c.history.consumed⟩ }
  | .logout token now =>
    if ∃ row ∈ c.sessions.get token, row.revokedAt = none then .goesOn (.logoutWrite token now)
    else .commits c
  | .logoutWrite token now => .commits (c.revoke [token] now)
  | .activity token now =>
    match p with
    | .operator =>
      if ∃ row ∈ c.sessions.get token, row.isLive now then .commits (c.touch token now)
      else .fails .signInAgain
    | .entrant => .fails .notFound

abbrev Accounts := Interleaved Credentials AuthTx

abbrev AuthMove := Interleaved.Move AuthRequest

end Identity
