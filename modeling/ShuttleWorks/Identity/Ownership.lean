import ShuttleWorks.Identity.Members

/-! A workspace keeps an owner. Which transactions may overlap, what each of them knows of the
rows by the time it writes, and where an accepted invitation or a transfer knows too little. -/

namespace Identity
open Lib Interleaved Sync

variable {d : Dialect} {w w' : Workspace} {others : List MemberTx} {tx tx' other : MemberTx}
  {user : Uuid}

/-! ## Locks -/

/-- What two running transactions never both hold: on Postgres the workspace lock and a row, on
SQLite the right to write. -/
def Apart (d : Dialect) (tx other : MemberTx) : Prop :=
  match d with
  | .postgres => ¬ (tx.locksWorkspace ∧ other.locksWorkspace) ∧
      ∀ user ∈ tx.writes.map Prod.fst, user ∉ other.writes.map Prod.fst
  | .sqlite => ¬ (tx.hasWritten ∧ other.hasWritten)

theorem Apart.symm (h : Apart d tx other) : Apart d other tx := by
  cases d with
  | postgres => exact ⟨fun both => h.1 both.symm, fun user mem mem' => h.2 user mem' mem⟩
  | sqlite => exact fun both => h both.symm

theorem apart_start (request : MemberRequest) : Apart d other request.start := by
  cases d <;> cases request <;> simp [Apart, MemberRequest.start, MemberTx.locksWorkspace,
    MemberTx.writes, MemberTx.hasWritten]

theorem exec_goesOn_locks (h : tx.exec d w others = .goesOn tx') :
    (tx'.locksWorkspace = tx.locksWorkspace ∨ ¬ d.Queued others) ∧
      (tx'.writes = tx.writes ∧ tx'.hasWritten = tx.hasWritten ∨
        ∃ user, ¬ d.Blocked others user ∧
          ∀ u ∈ tx'.writes.map Prod.fst, u ∈ tx.writes.map Prod.fst ∨ u = user) := by
  cases tx with
  | setRole user newRole =>
    simp only [MemberTx.exec] at h
    split at h
    · cases h
    · split at h <;> cases h
      exact ⟨.inr ‹_›, .inl ⟨rfl, rfl⟩⟩
  | removeMember user | transferOwnership giver receiver =>
    simp only [MemberTx.exec] at h
    split at h <;> cases h
    exact ⟨.inr ‹_›, .inl ⟨rfl, rfl⟩⟩
  | setRoleUpdate user newRole | removeDelete user =>
    simp only [MemberTx.exec] at h
    split at h
    · cases h
    · split at h <;> cases h
      exact ⟨.inl rfl, .inr ⟨user, ‹_›, by simp [MemberTx.writes]⟩⟩
  | overwrite user offered | insert user offered =>
    simp only [MemberTx.exec] at h
    split at h
    · cases h
    · split at h <;> cases h
      exact ⟨.inl rfl, .inr ⟨user, ‹_›, by simp [MemberTx.writes]⟩⟩
  | transferPromote giver receiver =>
    simp only [MemberTx.exec] at h
    split at h <;> cases h
    refine ⟨.inl rfl, .inr ⟨receiver, ‹_›, ?_⟩⟩
    cases (w.members.role receiver).isSome <;> simp [MemberTx.writes]
  | transferDemote giver receiver promoted =>
    simp only [MemberTx.exec] at h
    split at h <;> cases h
    refine ⟨.inl rfl, .inr ⟨giver, ‹_›, ?_⟩⟩
    cases (w.members.role giver).isSome <;> cases promoted <;> simp [MemberTx.writes]
  | setRoleRead user newRole | removeRead user | transferGiver giver receiver
  | transferReceiver giver receiver giverRole | acceptInvite user token now | acceptRole user offered
  | addMember user offered | raiseRole user offered =>
    simp only [MemberTx.exec] at h
    repeat' split at h
    all_goals cases h
    all_goals exact ⟨.inl rfl, .inl ⟨rfl, rfl⟩⟩
  | changed writes | accepted user offered => cases h

theorem Apart.goesOn (h : tx.exec d w others = .goesOn tx') (mem : other ∈ others)
    (apart : Apart d tx other) : Apart d tx' other := by
  obtain ⟨locks, rows⟩ := exec_goesOn_locks h
  cases d with
  | postgres =>
    obtain ⟨one, disjoint⟩ := apart
    refine ⟨fun both => ?_, fun user written held => ?_⟩
    · rcases locks with same | free
      · exact one ⟨same ▸ both.1, both.2⟩
      · exact free ⟨rfl, other, mem, both.2⟩
    · rcases rows with ⟨same, -⟩ | ⟨target, free, grows⟩
      · exact disjoint user (same ▸ written) held
      · rcases grows user written with before | rfl
        · exact disjoint user before held
        · exact free ⟨other, mem, held⟩
  | sqlite =>
    intro both
    rcases rows with ⟨-, same⟩ | ⟨target, free, -⟩
    · exact apart ⟨same ▸ both.1, both.2⟩
    · exact free ⟨other, mem, both.2⟩

/-! ## What a transaction knows -/

def Transferable (m : Members) (giver receiver : Uuid) : Prop :=
  m.role giver = some .owner ∧ (m.role receiver).isSome

instance (m : Members) (giver receiver : Uuid) : Decidable (Transferable m giver receiver) :=
  inferInstanceAs (Decidable (_ ∧ _))

/-- A transaction fits the rows as they are: what it read still holds where a lock protects it, and
what it is about to commit leaves an owner. -/
def MemberTx.Fits (d : Dialect) (w : Workspace) : MemberTx → Prop
  | .transferReceiver giver _ giverRole =>
    d = .postgres → giverRole = .owner → w.members.role giver = some .owner
  | .transferPromote giver receiver =>
    giver ≠ receiver ∧ (d = .postgres → Transferable w.members giver receiver)
  | .transferDemote giver receiver promoted =>
    giver ≠ receiver ∧ promoted = true ∧ Transferable w.members giver receiver
  | .changed writes => (w.members.apply writes).HasOwner
  | .accepted user _ => w.members.role user ≠ some .owner
  | _ => True

/-- When an accepted invitation overwrites a row, the role there is still below the one offered;
and on SQLite, when a transfer promotes, the giver is still an owner and the receiver a member. -/
def Undisturbed (d : Dialect) (w : Workspace) (others : List MemberTx) : MemberTx → Prop
  | .overwrite user offered => ¬ d.Blocked others user →
    ∀ current ∈ w.members.role user, current.level < offered.role.level
  | .transferPromote giver receiver => d = .sqlite → ¬ d.Blocked others receiver →
    Transferable w.members giver receiver
  | _ => True

instance (d : Dialect) (w : Workspace) (others : List MemberTx) (tx : MemberTx) :
    Decidable (Undisturbed d w others tx) := by
  unfold Undisturbed
  split <;> infer_instance

theorem role_ne_owner_of_lt {r : Role} {offered : InviteRole} (h : r.level < offered.role.level) :
    r ≠ .owner := by
  rintro rfl
  cases offered <;> simp [InviteRole.role, Role.level] at h

theorem MemberTx.Fits.goesOn (placed : Placed (fun w => w.members.HasOwner) (Fits d) (Apart d) w
    others tx) (met : Undisturbed d w others tx) (h : tx.exec d w others = .goesOn tx') :
    tx'.Fits d w := by
  obtain ⟨owned, fits, -⟩ := placed
  cases tx with
  | setRoleUpdate user newRole | removeDelete user =>
    simp only [MemberTx.exec] at h
    split at h
    · cases h
    · split at h <;> cases h
      next spared => simpa [MemberTx.Fits] using owned.write_spared spared _
  | transferGiver giver receiver =>
    simp only [MemberTx.exec] at h
    split at h <;> cases h
    next found =>
      rintro - rfl
      exact found
  | transferReceiver giver receiver giverRole =>
    simp only [MemberTx.exec] at h
    split at h
    · cases h
    · next found =>
      split at h
      · cases h
      · next ne =>
        split at h <;> cases h
        next owner =>
          exact ⟨ne, fun postgres => ⟨fits postgres (not_not.mp owner), by simp [found]⟩⟩
  | transferPromote giver receiver =>
    simp only [MemberTx.exec] at h
    split at h <;> cases h
    next free =>
      have known : Transferable w.members giver receiver := by
        cases d with
        | postgres => exact fits.2 rfl
        | sqlite => exact met rfl free
      exact ⟨fits.1, known.2, known⟩
  | transferDemote giver receiver promoted =>
    obtain ⟨ne, rfl, owner, -⟩ := fits
    simp only [MemberTx.exec] at h
    split at h <;> cases h
    refine Members.hasOwner_iff.mpr ⟨receiver, ?_⟩
    simp [owner, Members.role_write, Ne.symm ne]
  | overwrite user offered =>
    simp only [MemberTx.exec] at h
    split at h
    · cases h
    · next free =>
      split at h <;> cases h
      exact fun owner => role_ne_owner_of_lt (met free _ owner) rfl
  | insert user offered =>
    simp only [MemberTx.exec] at h
    split at h
    · cases h
    · split at h <;> cases h
      next absent =>
        intro owner
        simp [owner] at absent
  | setRole user newRole | removeMember user | transferOwnership giver receiver
  | setRoleRead user newRole | removeRead user | acceptInvite user token now
  | acceptRole user offered | addMember user offered | raiseRole user offered =>
    simp only [MemberTx.exec] at h
    repeat' split at h
    all_goals cases h
    all_goals trivial
  | changed writes | accepted user offered => cases h

theorem exec_commits (h : tx.exec d w others = .commits w') :
    w' = w ∨ (∃ writes, tx = .changed writes ∧ w'.members = w.members.apply writes) ∨
      ∃ user offered, tx = .accepted user offered ∧
        w'.members = w.members.write (user, some offered.role) := by
  cases tx with
  | changed writes =>
    cases h
    exact .inr (.inl ⟨writes, rfl, rfl⟩)
  | accepted user offered =>
    cases h
    exact .inr (.inr ⟨user, offered, rfl, rfl⟩)
  | setRoleRead user newRole | transferReceiver giver receiver giverRole | acceptRole user offered
  | addMember user offered | raiseRole user offered =>
    simp only [MemberTx.exec] at h
    repeat' split at h
    all_goals cases h
    all_goals exact .inl rfl
  | _ =>
    simp only [MemberTx.exec] at h
    repeat' split at h
    all_goals cases h

/-! ## What a commit leaves to the others -/

theorem MemberTx.Fits.of_not_hasWritten (fits : other.Fits .sqlite w)
    (h : other.hasWritten = false) (w' : Workspace) : other.Fits .sqlite w' := by
  cases other with
  | transferReceiver => exact fun e => nomatch e
  | transferPromote => exact ⟨fits.1, fun e => nomatch e⟩
  | transferDemote | changed | accepted => cases h
  | _ => trivial

theorem MemberTx.Fits.of_not_locksWorkspace (fits : other.Fits d w)
    (h : other.locksWorkspace = false) {writes : List RoleWrite}
    (apart : ∀ user ∈ writes.map Prod.fst, user ∉ other.writes.map Prod.fst)
    (stored : w'.members = w.members.apply writes) : other.Fits d w' := by
  cases other with
  | accepted user offered =>
    have free : user ∉ writes.map Prod.fst := fun mem => apart user mem (by simp [MemberTx.writes])
    show w'.members.role user ≠ some .owner
    rw [stored, Members.role_apply_of_not_mem free]
    exact fits
  | transferReceiver | transferPromote | transferDemote | changed => cases h
  | _ => trivial

theorem Transferable.write {m : Members} {giver receiver : Uuid} {role : Role}
    (h : Transferable m giver receiver) (notOwner : m.role user ≠ some .owner) :
    Transferable (m.write (user, some role)) giver receiver := by
  have ne : giver ≠ user := by
    rintro rfl
    exact notOwner h.1
  refine ⟨?_, ?_⟩
  · rw [Members.role_write, if_neg ne]
    exact h.1
  · rw [Members.role_write]
    split
    · rfl
    · exact h.2

theorem MemberTx.Fits.write (fits : other.Fits d w) {role : Role}
    (free : user ∉ other.writes.map Prod.fst) (notOwner : w.members.role user ≠ some .owner)
    (stored : w'.members = w.members.write (user, some role)) : other.Fits d w' := by
  cases other with
  | transferReceiver giver receiver giverRole =>
    intro postgres owner
    have known := fits postgres owner
    have ne : giver ≠ user := by
      rintro rfl
      exact notOwner known
    rw [stored, Members.role_write, if_neg ne]
    exact known
  | transferPromote giver receiver =>
    refine ⟨fits.1, fun postgres => ?_⟩
    rw [stored]
    exact (fits.2 postgres).write notOwner
  | transferDemote giver receiver promoted =>
    refine ⟨fits.1, fits.2.1, ?_⟩
    rw [stored]
    exact fits.2.2.write notOwner
  | changed writes =>
    show (w'.members.apply writes).HasOwner
    rw [stored]
    exact Members.HasOwner.apply_write fits free notOwner _
  | accepted other offered =>
    have ne : other ≠ user := by
      rintro rfl
      simp [MemberTx.writes] at free
    show w'.members.role other ≠ some .owner
    rw [stored, Members.role_write, if_neg ne]
    exact fits
  | _ => trivial

theorem MemberTx.Fits.commits (fits : tx.Fits d w) (owned : w.members.HasOwner)
    (h : tx.exec d w others = .commits w') :
    w'.members.HasOwner ∧ ∀ other, other.Fits d w → Apart d tx other → other.Fits d w' := by
  rcases exec_commits h with rfl | ⟨writes, rfl, stored⟩ | ⟨user, offered, rfl, stored⟩
  · exact ⟨owned, fun other fits _ => fits⟩
  · refine ⟨by rw [stored]; exact fits, fun other known apart => ?_⟩
    cases d with
    | sqlite =>
      have idle : other.hasWritten = false := by
        simpa [Apart, MemberTx.hasWritten] using apart
      exact known.of_not_hasWritten idle w'
    | postgres =>
      have unlocked : other.locksWorkspace = false := by
        simpa [MemberTx.locksWorkspace] using apart.1
      exact known.of_not_locksWorkspace unlocked apart.2 stored
  · refine ⟨?_, fun other known apart => ?_⟩
    · rw [stored]
      have kept : (w.members.apply []).HasOwner := owned
      simpa using kept.apply_write (by simp) fits (some offered.role)
    · cases d with
      | sqlite =>
        have idle : other.hasWritten = false := by
          simpa [Apart, MemberTx.hasWritten] using apart
        exact known.of_not_hasWritten idle w'
      | postgres =>
        have free := apart.2 user (by simp [MemberTx.writes])
        exact known.write free fits stored

theorem ownershipRule (d : Dialect) : Rule MemberRequest.start (MemberTx.exec d) (Undisturbed d)
    (fun w => w.members.HasOwner) (MemberTx.Fits d) (Apart d) where
  symm _ _ apart := apart.symm
  starts _ request _ := by cases request <;> trivial
  startsApart request _ := apart_start request
  goesOn _ _ _ _ placed met h :=
    ⟨MemberTx.Fits.goesOn placed met h, fun _ mem => (placed.rest _ mem).2.goesOn h mem⟩
  commits _ _ _ _ placed _ h := placed.fits.commits placed.holds h

/-! ## Every run -/

/-- What has to hold of the rows when a statement writes one of them. -/
def MemberTx.Guard (m : Members) : MemberTx → Prop
  | .setRoleUpdate user _ | .removeDelete user => m.Spared user
  | .transferPromote giver receiver | .transferDemote giver receiver _ =>
    Transferable m giver receiver
  | .overwrite user offered => ∀ current ∈ m.role user, current.level < offered.role.level
  | .insert user _ => m.role user = none
  | _ => True

/-- A transaction of `accept_invite`. -/
def MemberTx.accepts : MemberTx → Bool
  | .acceptInvite .. | .acceptRole .. | .addMember .. | .raiseRole .. | .overwrite .. | .insert ..
  | .accepted .. => true
  | _ => false

def Opened (s : Membership) : Prop := s.store.members.HasOwner ∧ s.running = []

def MemberSteps (d : Dialect) (U : Workspace → List MemberTx → MemberTx → Prop) :
    Membership → MemberMove → Membership → Prop :=
  Interleaved.Steps MemberRequest.start (MemberTx.exec d) U

/-- A statement writes a row only while its guard holds, and the commit of an acceptance leaves
every owner an owner. -/
structure Guarded (d : Dialect) (s : Membership) (n : Nat) (tx : MemberTx) : Prop where
  writes : ∀ tx', tx.exec d s.store (s.others n) = .goesOn tx' → tx'.writes ≠ tx.writes →
    tx.Guard s.store.members
  owners : ∀ w, tx.accepts = true → tx.exec d s.store (s.others n) = .commits w →
    ∀ user, s.store.members.role user = some .owner → w.members.role user = some .owner

theorem guard_of_goesOn (placed : Placed (fun w => w.members.HasOwner) (MemberTx.Fits d) (Apart d) w
    others tx) (met : Undisturbed d w others tx) (h : tx.exec d w others = .goesOn tx')
    (wrote : tx'.writes ≠ tx.writes) : tx.Guard w.members := by
  cases tx with
  | setRoleUpdate user newRole | removeDelete user =>
    simp only [MemberTx.exec] at h
    split at h
    · cases h
    · split at h <;> cases h
      assumption
  | transferPromote giver receiver =>
    have next := MemberTx.Fits.goesOn placed met h
    simp only [MemberTx.exec] at h
    split at h <;> cases h
    exact next.2.2
  | transferDemote giver receiver promoted => exact placed.fits.2.2
  | overwrite user offered =>
    simp only [MemberTx.exec] at h
    split at h
    · cases h
    · next free => exact met free
  | insert user offered =>
    simp only [MemberTx.exec] at h
    split at h
    · cases h
    · split at h <;> cases h
      next absent => simpa [MemberTx.Guard] using absent
  | _ => trivial

theorem owners_of_commits (fits : tx.Fits d w) (accepts : tx.accepts = true)
    (h : tx.exec d w others = .commits w') (owner : w.members.role user = some .owner) :
    w'.members.role user = some .owner := by
  rcases exec_commits h with rfl | ⟨writes, rfl, -⟩ | ⟨target, offered, rfl, stored⟩
  · exact owner
  · cases accepts
  · have ne : user ≠ target := by
      rintro rfl
      exact fits owner
    rw [stored, Members.role_write, if_neg ne]
    exact owner

/-- **The workspace keeps an owner** in every run in which no acceptance overwrites a role that was
raised behind it and no transfer on SQLite promotes behind a change of its two members; then every
write meets its guard and no acceptance overwrites an owner. -/
theorem workspace_keeps_owner (d : Dialect) {s : Membership}
    (h : Reachable Opened (MemberSteps d (Undisturbed d)) s) :
    s.store.members.HasOwner ∧ ∀ n tx, s.running[n]? = some tx →
      Undisturbed d s.store (s.others n) tx → Guarded d s n tx := by
  have fits := Fits.reachable (ownershipRule d) (fun s ⟨owned, idle⟩ =>
    ⟨owned, by simp [idle], by simp [idle]⟩) h
  refine ⟨fits.store, fun n tx found met => ?_⟩
  have placed := fits.placed (ownershipRule d).symm found
  exact ⟨fun tx' ran wrote => guard_of_goesOn placed met ran wrote,
    fun w accepts ran user owner => owners_of_commits placed.fits accepts ran owner⟩

/-! ## A workspace with one owner, a viewer and an open invitation to operate it -/

def annasWorkspace : Membership where
  store :=
    { members := .ofRows [⟨"anna", .owner⟩, ⟨"ben", .viewer⟩]
      invites := .ofRows [⟨"token", .operator, none, some 10⟩] }
  running := []

def benTakesOver : List MemberMove :=
  [.start (.acceptInvite "ben" "token" 1), .run 0, .run 0, .run 0, .run 0, .run 0,
    .start (.transferOwnership "anna" "ben"), .run 0, .run 0, .run 0, .run 0, .run 0, .run 0]

theorem workspace_keeps_owner_handed :
    (after MemberRequest.start (MemberTx.exec .sqlite) annasWorkspace benTakesOver).store.members.role
        "ben" = some .owner ∧
      (after MemberRequest.start (MemberTx.exec .sqlite) annasWorkspace
        benTakesOver).store.members.HasOwner := by
  refine ⟨by decide, (workspace_keeps_owner .sqlite ?_).1⟩
  exact Along.reachable (.init ⟨by decide, rfl⟩) (by decide)

/-- On Postgres Ben's acceptance has read "viewer" when Anna hands him the workspace, and makes its
new owner an operator. On SQLite Ben is removed between a transfer's reads and its updates. -/
theorem workspace_left_without_owner :
    (∃ s, Reachable Opened (MemberSteps .postgres (fun _ _ _ => True)) s ∧
        ¬ s.store.members.HasOwner) ∧
      ∃ s, Reachable Opened (MemberSteps .sqlite (fun _ _ _ => True)) s ∧
        ¬ s.store.members.HasOwner := by
  refine ⟨⟨after MemberRequest.start (MemberTx.exec .postgres) annasWorkspace
      [.start (.acceptInvite "ben" "token" 1), .start (.transferOwnership "anna" "ben"),
        .run 0, .run 0, .run 1, .run 1, .run 1, .run 1, .run 1, .run 1, .run 0, .run 0, .run 0],
      ?_, by decide⟩,
    ⟨after MemberRequest.start (MemberTx.exec .sqlite) annasWorkspace
      [.start (.transferOwnership "anna" "ben"), .start (.removeMember "ben"),
        .run 0, .run 0, .run 0, .run 1, .run 1, .run 1, .run 1, .run 0, .run 0, .run 0],
      ?_, by decide⟩⟩
  · exact Along.reachable (.init ⟨by decide, rfl⟩) (by decide)
  · exact Along.reachable (.init ⟨by decide, rfl⟩) (by decide)

end Identity
