import ShuttleWorks.Lib.Interleaving
import ShuttleWorks.Lib.Table
import ShuttleWorks.Sync.Schemas

/-! The members of one workspace and the four operations that change them: role changes,
removals, transfers of ownership and accepted invitations, statement by statement. -/

namespace Identity
open Lib Sync

/-- `ROLES`, ordered from least to most privileged. -/
inductive Role
  | viewer
  | operator
  | owner
  deriving DecidableEq, Repr

def Role.ofText : String → Option Role
  | "viewer" => some .viewer
  | "operator" => some .operator
  | "owner" => some .owner
  | _ => none

/-- `ROLE_LEVELS` -/
def Role.level : Role → Nat
  | .viewer => 0
  | .operator => 1
  | .owner => 2

/-- The roles an invitation may grant. -/
inductive InviteRole
  | operator
  | viewer
  deriving DecidableEq, Repr

def InviteRole.role : InviteRole → Role
  | .operator => .operator
  | .viewer => .viewer

structure Member where
  userId : Uuid
  role : Role
  deriving DecidableEq, Repr

/-- Points in time, in microseconds. -/
abbrev Instant := Int

def second : Instant := 1000000

structure InviteLink where
  token : Uuid
  role : InviteRole
  revokedAt : Option Instant := none
  expiresAt : Option Instant
  deriving DecidableEq, Repr

/-- `is_invite_valid` -/
def InviteLink.isValid (invite : InviteLink) (now : Instant) : Bool :=
  match invite.revokedAt, invite.expiresAt with
  | none, some expiresAt => decide (now < expiresAt)
  | _, _ => false

abbrev Members := Table Member.userId

/-- A membership row stored under a user, or deleted. -/
abbrev RoleWrite := Uuid × Option Role

namespace Members

/-- `get_role` -/
def role (m : Members) (user : Uuid) : Option Role := (m.get user).map Member.role

def write (m : Members) : RoleWrite → Members
  | (user, some role) => m.put ⟨user, role⟩
  | (user, none) => m.erase user

def apply (m : Members) (writes : List RoleWrite) : Members := writes.foldl write m

/-- `_owner_count_subquery` -/
def ownerCount (m : Members) : Nat := (m.rows.filter (fun member => member.role = .owner)).length

def HasOwner (m : Members) : Prop := ∃ member ∈ m.rows, member.role = .owner

instance (m : Members) : Decidable (HasOwner m) :=
  inferInstanceAs (Decidable (∃ member ∈ m.rows, member.role = .owner))

/-- The `WHERE` of a role change and of a removal: the user's row, unless it is the last owner's. -/
def Spared (m : Members) (user : Uuid) : Prop :=
  ∃ role ∈ m.role user, role ≠ .owner ∨ 1 < m.ownerCount

instance (m : Members) (user : Uuid) : Decidable (Spared m user) :=
  inferInstanceAs (Decidable (∃ role ∈ m.role user, role ≠ .owner ∨ 1 < m.ownerCount))

variable {m : Members} {user other : Uuid} {ws : List RoleWrite}

theorem hasOwner_iff : m.HasOwner ↔ ∃ user, m.role user = some .owner := by
  constructor
  · rintro ⟨member, mem, owns⟩
    have found : m.get member.userId = some member := Table.get_eq_some_iff.mpr ⟨mem, rfl⟩
    exact ⟨member.userId, by simp [role, found, owns]⟩
  · rintro ⟨user, h⟩
    obtain ⟨member, found, owns⟩ := Option.map_eq_some_iff.mp h
    exact ⟨member, Table.mem_of_get found, owns⟩

theorem role_write (m : Members) (w : RoleWrite) (user : Uuid) :
    (m.write w).role user = if user = w.1 then w.2 else m.role user := by
  obtain ⟨target, _ | r⟩ := w
  · simp only [write, role, Table.get_erase]
    split <;> rfl
  · simp only [write, role, Table.get_put]
    by_cases h : user = target
    · simp [h]
    · simp [h, Ne.symm h]

@[simp] theorem apply_nil (m : Members) : m.apply [] = m := rfl

@[simp] theorem apply_cons (m : Members) (w : RoleWrite) (ws : List RoleWrite) :
    m.apply (w :: ws) = (m.write w).apply ws := rfl

theorem role_apply_congr {m m' : Members} (h : m.role user = m'.role user)
    (ws : List RoleWrite) : (m.apply ws).role user = (m'.apply ws).role user := by
  induction ws generalizing m m' with
  | nil => exact h
  | cons w ws ih =>
    apply ih
    rw [role_write, role_write, h]

theorem role_apply_of_not_mem (h : user ∉ ws.map Prod.fst) :
    (m.apply ws).role user = m.role user := by
  induction ws generalizing m with
  | nil => rfl
  | cons w ws ih =>
    rw [List.map_cons, List.mem_cons, not_or] at h
    rw [apply_cons, ih h.2, role_write, if_neg h.1]

theorem exists_other_owner (h : 1 < m.ownerCount) (user : Uuid) :
    ∃ other, other ≠ user ∧ m.role other = some .owner := by
  have owns : ∀ member ∈ m.rows.filter (fun member => member.role = .owner),
      m.role member.userId = some .owner := by
    intro member mem
    obtain ⟨mem, isOwner⟩ := List.mem_filter.mp mem
    have found : m.get member.userId = some member := Table.get_eq_some_iff.mpr ⟨mem, rfl⟩
    simpa [role, found] using isOwner
  have unique : ((m.rows.filter (fun member => member.role = .owner)).map Member.userId).Nodup :=
    (List.filter_sublist.map Member.userId).nodup m.unique
  unfold ownerCount at h
  rcases found : m.rows.filter (fun member => member.role = .owner) with _ | ⟨a, _ | ⟨b, rest⟩⟩
  · simp [found] at h
  · simp [found] at h
  · simp only [found, List.map_cons, List.nodup_cons, List.mem_cons, not_or] at unique
    have ha := owns a (by simp [found])
    have hb := owns b (by simp [found])
    by_cases h : a.userId = user
    · exact ⟨b.userId, fun e => unique.1.1 (h.trans e.symm), hb⟩
    · exact ⟨a.userId, h, ha⟩

theorem HasOwner.write_spared (h : m.HasOwner) (spared : m.Spared user) (role : Option Role) :
    (m.write (user, role)).HasOwner := by
  obtain ⟨current, found, safe⟩ := spared
  have left : ∃ other, other ≠ user ∧ m.role other = some .owner := by
    rcases safe with notOwner | more
    · obtain ⟨other, owns⟩ := hasOwner_iff.mp h
      refine ⟨other, ?_, owns⟩
      rintro rfl
      rw [Option.mem_def.mp found, Option.some_inj] at owns
      exact notOwner owns
    · exact exists_other_owner more user
  obtain ⟨other, ne, owns⟩ := left
  exact hasOwner_iff.mpr ⟨other, by rw [role_write, if_neg ne, owns]⟩

theorem HasOwner.apply_write (h : (m.apply ws).HasOwner) (apart : user ∉ ws.map Prod.fst)
    (notOwner : m.role user ≠ some .owner) (role : Option Role) :
    ((m.write (user, role)).apply ws).HasOwner := by
  obtain ⟨other, owns⟩ := hasOwner_iff.mp h
  have ne : other ≠ user := by
    rintro rfl
    rw [role_apply_of_not_mem apart] at owns
    exact notOwner owns
  refine hasOwner_iff.mpr ⟨other, ?_⟩
  rw [← owns]
  apply role_apply_congr
  rw [role_write, if_neg ne]

end Members

/-! ## Transactions -/

inductive Dialect
  | postgres
  | sqlite
  deriving DecidableEq, Repr

structure Workspace where
  members : Members
  invites : Table InviteLink.token := .empty
  deriving DecidableEq

inductive MemberRequest
  | setRole (user : Uuid) (newRole : String)
  | removeMember (user : Uuid)
  | transferOwnership (giver receiver : Uuid)
  | acceptInvite (user token : Uuid) (now : Instant)
  deriving DecidableEq

/-- A transaction at its next statement, with what it has read and written so far. -/
inductive MemberTx
  | setRole (user : Uuid) (newRole : String)
  | setRoleRead (user : Uuid) (newRole : Role)
  | setRoleUpdate (user : Uuid) (newRole : Role)
  | removeMember (user : Uuid)
  | removeRead (user : Uuid)
  | removeDelete (user : Uuid)
  | transferOwnership (giver receiver : Uuid)
  | transferGiver (giver receiver : Uuid)
  | transferReceiver (giver receiver : Uuid) (giverRole : Role)
  | transferPromote (giver receiver : Uuid)
  | transferDemote (giver receiver : Uuid) (promoted : Bool)
  /-- The caller of one of the three operations above commits next. -/
  | changed (writes : List RoleWrite)
  | acceptInvite (user token : Uuid) (now : Instant)
  | acceptRole (user : Uuid) (offered : InviteRole)
  | addMember (user : Uuid) (offered : InviteRole)
  | raiseRole (user : Uuid) (offered : InviteRole)
  | overwrite (user : Uuid) (offered : InviteRole)
  | insert (user : Uuid) (offered : InviteRole)
  | accepted (user : Uuid) (offered : InviteRole)
  deriving DecidableEq

def MemberRequest.start : MemberRequest → MemberTx
  | .setRole user newRole => .setRole user newRole
  | .removeMember user => .removeMember user
  | .transferOwnership giver receiver => .transferOwnership giver receiver
  | .acceptInvite user token now => .acceptInvite user token now

inductive MemberError
  | unknownRole (text : String)
  | memberNotFound (user : Uuid)
  | notOwner (user : Uuid) (role : Role)
  | lastOwner
  | inviteNotFound
  | staleData
  | integrity
  deriving DecidableEq, Repr

namespace MemberTx

/-- It has run `_lock_workspace`. -/
def locksWorkspace : MemberTx → Bool
  | .setRoleRead .. | .setRoleUpdate .. | .removeRead .. | .removeDelete .. | .transferGiver ..
  | .transferReceiver .. | .transferPromote .. | .transferDemote .. | .changed .. => true
  | _ => false

def hasWritten : MemberTx → Bool
  | .transferDemote .. | .changed .. | .accepted .. => true
  | _ => false

def writes : MemberTx → List RoleWrite
  | .transferDemote _ receiver promoted => if promoted then [(receiver, some .owner)] else []
  | .changed writes => writes
  | .accepted user offered => [(user, some offered.role)]
  | _ => []

end MemberTx

/-- `SELECT … FOR UPDATE` of the workspace waits for its lock; SQLite ignores the clause. -/
def Dialect.Queued (d : Dialect) (others : List MemberTx) : Prop :=
  d = .postgres ∧ ∃ other ∈ others, other.locksWorkspace

/-- A write waits for the row lock on Postgres and for the one writer on SQLite. -/
def Dialect.Blocked (d : Dialect) (others : List MemberTx) (user : Uuid) : Prop :=
  match d with
  | .postgres => ∃ other ∈ others, user ∈ other.writes.map Prod.fst
  | .sqlite => ∃ other ∈ others, other.hasWritten

instance (d : Dialect) (others : List MemberTx) : Decidable (d.Queued others) :=
  inferInstanceAs (Decidable (_ ∧ _))

instance (d : Dialect) (others : List MemberTx) (user : Uuid) : Decidable (d.Blocked others user) :=
  match d with
  | .postgres => inferInstanceAs (Decidable (∃ other ∈ others, user ∈ other.writes.map Prod.fst))
  | .sqlite => inferInstanceAs (Decidable (∃ other ∈ others, other.hasWritten))

/-- The next statement of a transaction. -/
def MemberTx.exec (d : Dialect) (w : Workspace) (others : List MemberTx) :
    MemberTx → Progress Workspace MemberError MemberTx
  | .setRole user newRole =>
    match Role.ofText newRole with
    | none => .fails (.unknownRole newRole)
    | some role => if d.Queued others then .waits else .goesOn (.setRoleRead user role)
  | .setRoleRead user newRole =>
    match w.members.role user with
    | none => .fails (.memberNotFound user)
    | some current => if current = newRole then .commits w else .goesOn (.setRoleUpdate user newRole)
  | .setRoleUpdate user newRole =>
    if d.Blocked others user then .waits
    else if w.members.Spared user then .goesOn (.changed [(user, some newRole)])
    else .fails .lastOwner
  | .removeMember user => if d.Queued others then .waits else .goesOn (.removeRead user)
  | .removeRead user =>
    match w.members.role user with
    | none => .fails (.memberNotFound user)
    | some _ => .goesOn (.removeDelete user)
  | .removeDelete user =>
    if d.Blocked others user then .waits
    else if w.members.Spared user then .goesOn (.changed [(user, none)])
    else .fails .lastOwner
  | .transferOwnership giver receiver =>
    if d.Queued others then .waits else .goesOn (.transferGiver giver receiver)
  | .transferGiver giver receiver =>
    match w.members.role giver with
    | none => .fails (.memberNotFound giver)
    | some role => .goesOn (.transferReceiver giver receiver role)
  | .transferReceiver giver receiver giverRole =>
    match w.members.role receiver with
    | none => .fails (.memberNotFound receiver)
    | some _ =>
      if giver = receiver then .commits w
      else if giverRole ≠ .owner then .fails (.notOwner giver giverRole)
      else .goesOn (.transferPromote giver receiver)
  -- neither UPDATE of a transfer looks at its row count
  | .transferPromote giver receiver =>
    if d.Blocked others receiver then .waits
    else .goesOn (.transferDemote giver receiver (w.members.role receiver).isSome)
  | .transferDemote giver receiver promoted =>
    if d.Blocked others giver then .waits
    else .goesOn (.changed ((if promoted then [(receiver, some .owner)] else []) ++
      if (w.members.role giver).isSome then [(giver, some .operator)] else []))
  | .changed writes => .commits { w with members := w.members.apply writes }
  | .acceptInvite user token now =>
    match w.invites.get token with
    | none => .fails .inviteNotFound
    | some invite =>
      if invite.isValid now then .goesOn (.acceptRole user invite.role) else .fails .inviteNotFound
  | .acceptRole user offered =>
    match w.members.role user with
    | none => .goesOn (.addMember user offered)
    | some existing =>
      if existing.level < offered.role.level then .goesOn (.raiseRole user offered) else .commits w
  -- the repository reads the row again, and an unchanged attribute is not written
  | .addMember user offered =>
    match w.members.role user with
    | none => .goesOn (.insert user offered)
    | some existing =>
      if existing = offered.role then .commits w else .goesOn (.overwrite user offered)
  | .raiseRole user offered =>
    match w.members.role user with
    | none => .commits w
    | some existing =>
      if existing = offered.role then .commits w else .goesOn (.overwrite user offered)
  | .overwrite user offered =>
    if d.Blocked others user then .waits
    else if (w.members.role user).isSome then .goesOn (.accepted user offered)
    else .fails .staleData
  | .insert user offered =>
    if d.Blocked others user then .waits
    else if (w.members.role user).isSome then .fails .integrity
    else .goesOn (.accepted user offered)
  | .accepted user offered =>
    .commits { w with members := w.members.apply [(user, some offered.role)] }

abbrev Membership := Interleaved Workspace MemberTx

abbrev MemberMove := Interleaved.Move MemberRequest

end Identity
