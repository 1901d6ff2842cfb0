import ShuttleWorks.Identity.Credentials

/-! A reset token changes the password once, and no session outlives the password it was granted
for. Operators keep this under the account reservation; entrants as long as nothing overtakes a
login or a reset. -/

namespace Identity
open Lib Interleaved Sync

variable {s : AuthSettings} {p : Principal} {c c' : Credentials} {others : List AuthTx}
  {tx tx' other : AuthTx} {revoked : List Nat} {keep : Option Nat}

/-- Every reset token changed the password at most once, and every live session proved the
password as it is now, but for the one that changed it last. -/
structure Credentials.Safe (c : Credentials) : Prop where
  once : c.history.consumed.Nodup
  sessions : ∀ row ∈ c.sessions.rows, row.revokedAt = none →
    row.provedAt = c.history.changes ∨ c.history.changer = some row.token

instance (c : Credentials) : Decidable c.Safe :=
  decidable_of_iff (c.history.consumed.Nodup ∧ ∀ row ∈ c.sessions.rows, row.revokedAt = none →
      row.provedAt = c.history.changes ∨ c.history.changer = some row.token)
    ⟨fun h => ⟨h.1, h.2⟩, fun h => ⟨h.once, h.sessions⟩⟩

/-- Safe, and the stored reset token has not been used. -/
structure Credentials.Sound (c : Credentials) : Prop extends c.Safe where
  stored : ∀ token ∈ c.resetTokenHash, token < c.drawn ∧ token ∉ c.history.consumed
  drawn : ∀ token ∈ c.history.consumed, token < c.drawn

def Credentials.Swept (c : Credentials) (revoked : List Nat) (keep : Option Nat) : Prop :=
  ∀ row ∈ c.sessions.rows, row.revokedAt = none → row.token ∈ revoked ∨ keep = some row.token

instance (c : Credentials) (revoked : List Nat) (keep : Option Nat) :
    Decidable (c.Swept revoked keep) :=
  inferInstanceAs (Decidable (∀ row ∈ c.sessions.rows, row.revokedAt = none →
    row.token ∈ revoked ∨ keep = some row.token))

theorem Credentials.swept_unrevoked (c : Credentials) (keep : Option Nat) :
    c.Swept (c.unrevoked keep) keep := by
  intro row mem live
  by_cases kept : keep = some row.token
  · exact .inr kept
  · left
    simp only [unrevoked, List.mem_filter, List.mem_map]
    exact ⟨⟨row, ⟨mem, by simpa using live⟩, rfl⟩, by simpa using kept⟩

theorem Credentials.of_mem_revoke {tokens : List Nat} {now : Instant} {row : AuthSession}
    (mem : row ∈ (c.revoke tokens now).sessions.rows) (live : row.revokedAt = none) :
    row ∈ c.sessions.rows ∧ row.token ∉ tokens := by
  obtain ⟨old, found, rfl⟩ := List.mem_map.mp mem
  by_cases swept : old.token ∈ tokens
  · rw [if_pos swept] at live
    cases live
  · rw [if_neg swept]
    exact ⟨found, swept⟩

/-! ## What a commit does to the account -/

theorem Credentials.Sound.setPassword (h : c.Sound) (s : AuthSettings) (password : String) :
    (c.setPassword s password).Sound where
  once := h.once
  sessions := h.sessions
  stored token mem := by
    have := h.stored token mem
    exact ⟨Nat.lt_succ_of_lt this.1, this.2⟩
  drawn token mem := Nat.lt_succ_of_lt (h.drawn token mem)

theorem Credentials.Sound.openSession (h : c.Sound) (s : AuthSettings) (now : Instant) :
    (c.openSession s c.history.changes now).Sound where
  once := h.once
  sessions row mem live := by
    rcases Table.mem_put.mp mem with rfl | ⟨mem, -⟩
    · exact .inl rfl
    · exact h.sessions row mem live
  stored token mem := by
    have := h.stored token mem
    exact ⟨Nat.lt_succ_of_lt this.1, this.2⟩
  drawn token mem := Nat.lt_succ_of_lt (h.drawn token mem)

theorem Credentials.Sound.issue (h : c.Sound) (expiresAt : Instant) :
    Sound { c with
      resetTokenHash := some c.drawn
      resetTokenExpiresAt := some expiresAt
      drawn := c.drawn + 1 } where
  once := h.once
  sessions := h.sessions
  stored token mem := by
    obtain rfl : c.drawn = token := by simpa using mem
    exact ⟨Nat.lt_succ_self _, fun used => Nat.lt_irrefl _ (h.drawn _ used)⟩
  drawn token mem := Nat.lt_succ_of_lt (h.drawn token mem)

theorem Credentials.Sound.reset (h : c.Sound) {token : Nat} (old : token < c.drawn)
    (unused : token ∉ c.history.consumed) (swept : c.Swept revoked none) (password : String)
    (now : Instant) :
    Sound { (c.setPassword s password).revoke revoked now with
      resetTokenHash := none
      resetTokenExpiresAt := none
      history := ⟨c.history.changes + 1, none, token :: c.history.consumed⟩ } where
  once := List.nodup_cons.mpr ⟨unused, h.once⟩
  sessions row mem live := by
    obtain ⟨mem, left⟩ := of_mem_revoke mem live
    rcases swept row mem live with gone | kept
    · exact absurd gone left
    · cases kept
  stored token mem := by cases mem
  drawn t mem := by
    rcases List.mem_cons.mp mem with rfl | mem
    · exact Nat.lt_succ_of_lt old
    · exact Nat.lt_succ_of_lt (h.drawn t mem)

theorem Credentials.Sound.change (h : c.Sound) (swept : c.Swept revoked keep) (password : String)
    (now : Instant) :
    Sound { (c.setPassword s password).revoke revoked now with
      history := ⟨c.history.changes + 1, keep, c.history.consumed⟩ } where
  once := h.once
  sessions row mem live := by
    obtain ⟨mem, left⟩ := of_mem_revoke mem live
    rcases swept row mem live with gone | kept
    · exact absurd gone left
    · exact .inr kept
  stored token mem := (h.setPassword s password).stored token mem
  drawn t mem := Nat.lt_succ_of_lt (h.drawn t mem)

/-- Nothing but sessions that end, or show activity. -/
structure Quiet (c c' : Credentials) : Prop where
  history : c'.history = c.history
  token : c'.resetTokenHash = c.resetTokenHash
  drawn : c'.drawn = c.drawn
  sessions : ∀ row' ∈ c'.sessions.rows, row'.revokedAt = none → ∃ row ∈ c.sessions.rows,
    row.revokedAt = none ∧ row.token = row'.token ∧ row.provedAt = row'.provedAt

theorem Quiet.refl (c : Credentials) : Quiet c c :=
  ⟨rfl, rfl, rfl, fun row mem live => ⟨row, mem, live, rfl, rfl⟩⟩

theorem quiet_revoke (c : Credentials) (tokens : List Nat) (now : Instant) :
    Quiet c (c.revoke tokens now) :=
  ⟨rfl, rfl, rfl, fun row mem live => ⟨row, (Credentials.of_mem_revoke mem live).1, live, rfl, rfl⟩⟩

theorem quiet_touch (c : Credentials) (token : Nat) (now : Instant) :
    Quiet c (c.touch token now) := by
  refine ⟨rfl, rfl, rfl, fun row mem live => ?_⟩
  obtain ⟨old, found, rfl⟩ := List.mem_map.mp mem
  refine ⟨old, found, ?_⟩
  split at live
  · next seen => simpa [seen] using live
  · next seen => simpa [seen] using live

theorem Quiet.swept (q : Quiet c c') (h : c.Swept revoked keep) :
    c'.Swept revoked keep := by
  intro row' mem live
  obtain ⟨row, mem, live, same, -⟩ := q.sessions row' mem live
  exact same ▸ h row mem live

theorem Quiet.sound (q : Quiet c c') (h : c.Sound) : c'.Sound where
  once := by
    rw [q.history]
    exact h.once
  sessions row' mem live := by
    obtain ⟨row, mem, live, same, proved⟩ := q.sessions row' mem live
    rw [q.history, ← same, ← proved]
    exact h.sessions row mem live
  stored := by
    rw [q.token, q.drawn, q.history]
    exact h.stored
  drawn := by
    rw [q.drawn, q.history]
    exact h.drawn

/-! ## What a request knows -/

/-- What a request has read and still holds of the account when its turn comes: for an operator
under the reservation everything, for an entrant only that its token was once drawn. -/
def AuthTx.Fits (p : Principal) (c : Credentials) : AuthTx → Prop
  | .loginInsert provedAt _ _ => p = .operator → provedAt = c.history.changes
  | .resetSweep token _ _ => token < c.drawn ∧ (p = .operator → c.resetTokenHash = some token)
  | .resetWrite token _ revoked _ => token < c.drawn ∧
      (p = .operator → c.resetTokenHash = some token ∧ c.Swept revoked none)
  | .changeReserve .. | .changeSweep .. => p = .operator
  | .changeWrite keep _ revoked _ => p = .operator ∧ c.Swept revoked keep
  | _ => True

def Alone (p : Principal) (tx other : AuthTx) : Prop := ¬ (tx.reserves p ∧ other.reserves p)

/-- No reset has been committed since an entrant's login proved the password or since its reset read
the token, and every live session is one that the reset's sweep has read. -/
def NotOvertaken (p : Principal) (c : Credentials) (_ : List AuthTx) (tx : AuthTx) : Prop :=
  p = .entrant →
    match tx with
    | .loginInsert provedAt _ _ => provedAt = c.history.changes
    | .resetWrite token _ revoked _ => token ∉ c.history.consumed ∧ c.Swept revoked none
    | _ => True

instance (p : Principal) (c : Credentials) (others : List AuthTx) (tx : AuthTx) :
    Decidable (NotOvertaken p c others tx) := by
  unfold NotOvertaken
  split <;> infer_instance

theorem AuthTx.Fits.goesOn (placed : Placed Credentials.Sound (Fits p) (Alone p) c others tx)
    (h : tx.exec s p c others = .goesOn tx') : tx'.Fits p c := by
  obtain ⟨sound, fits, -⟩ := placed
  cases tx with
  | login password now =>
    simp only [AuthTx.exec] at h
    split at h
    · cases p <;> cases h
      · trivial
      · exact fun _ => rfl
    · cases h
  | loginReserve password now =>
    simp only [AuthTx.exec] at h
    repeat' split at h
    all_goals cases h
    all_goals exact fun _ => rfl
  | reset token newPassword now =>
    cases p with
    | operator =>
      simp only [AuthTx.exec] at h
      split at h <;> cases h
      trivial
    | entrant =>
      simp only [AuthTx.exec] at h
      split at h
      · next redeems =>
        split at h <;> cases h
        exact ⟨(sound.stored token redeems.1).1, fun e => nomatch e⟩
      · cases h
  | resetReserve token newPassword now =>
    simp only [AuthTx.exec] at h
    split at h
    · cases h
    · split at h
      · next redeems =>
        split at h <;> cases h
        exact ⟨(sound.stored token redeems.1).1, fun _ => redeems.1⟩
      · cases h
  | resetSweep token newPassword now =>
    cases h
    exact ⟨fits.1, fun operator => ⟨fits.2 operator, c.swept_unrevoked none⟩⟩
  | change currentToken currentPassword newPassword now =>
    cases p with
    | operator =>
      simp only [AuthTx.exec] at h
      repeat' split at h
      all_goals cases h
      rfl
    | entrant => cases h
  | changeReserve currentToken currentPassword newPassword now =>
    simp only [AuthTx.exec] at h
    repeat' split at h
    all_goals cases h
    exact fits
  | changeSweep currentToken newPassword now =>
    cases h
    exact ⟨fits, c.swept_unrevoked currentToken⟩
  | issue now =>
    simp only [AuthTx.exec] at h
    repeat' split at h
    all_goals cases h
    all_goals trivial
  | logout token now =>
    simp only [AuthTx.exec] at h
    split at h <;> cases h
    trivial
  | activity token now =>
    simp only [AuthTx.exec] at h
    repeat' split at h
    all_goals cases h
  | loginInsert | issueWrite | resetWrite | changeWrite | logoutWrite => cases h

theorem exec_goesOn_reserves (h : tx.exec s p c others = .goesOn tx')
    (now : tx'.reserves p = true) : tx.reserves p = true ∨ ¬ Reserved p others := by
  cases p with
  | entrant => cases tx' <;> simp [AuthTx.reserves] at now
  | operator =>
    cases tx with
    | resetSweep | changeSweep => exact .inl rfl
    | loginReserve | resetReserve | changeReserve | issue =>
      right
      simp only [AuthTx.exec] at h
      split at h
      · cases h
      · assumption
    | login | reset | change | logout | activity =>
      simp only [AuthTx.exec] at h
      repeat' split at h
      all_goals cases h
      all_goals cases now
    | loginInsert | issueWrite | resetWrite | changeWrite | logoutWrite => cases h

theorem Alone.goesOn (h : tx.exec s p c others = .goesOn tx') (mem : other ∈ others)
    (alone : Alone p tx other) : Alone p tx' other := by
  rintro ⟨now, held⟩
  rcases exec_goesOn_reserves h now with before | free
  · exact alone ⟨before, held⟩
  · exact free ⟨other, mem, held⟩

theorem exec_commits_quiet (h : tx.exec s .operator c others = .commits c')
    (unreserved : tx.reserves .operator = false) : Quiet c c' := by
  cases tx with
  | logoutWrite token now =>
    cases h
    exact quiet_revoke c [token] now
  | activity token now =>
    simp only [AuthTx.exec] at h
    split at h <;> cases h
    exact quiet_touch c token now
  | reset | resetReserve | logout =>
    simp only [AuthTx.exec] at h
    repeat' split at h
    all_goals cases h
    all_goals exact .refl c
  | login | loginReserve | issue | change | changeReserve =>
    simp only [AuthTx.exec] at h
    repeat' split at h
    all_goals cases h
  | loginInsert | issueWrite | resetSweep | resetWrite | changeSweep | changeWrite =>
    cases unreserved

theorem AuthTx.Fits.commits (placed : Placed Credentials.Sound (Fits p) (Alone p) c others tx)
    (met : NotOvertaken p c others tx) (h : tx.exec s p c others = .commits c') : c'.Sound := by
  obtain ⟨sound, fits, -⟩ := placed
  cases tx with
  | loginInsert provedAt rehash now =>
    have current : provedAt = c.history.changes := by
      cases p with
      | operator => exact fits rfl
      | entrant => exact met rfl
    cases h
    subst current
    cases rehash with
    | none => exact sound.openSession s now
    | some password => exact (sound.setPassword s password).openSession s now
  | issueWrite now =>
    cases h
    exact sound.issue _
  | resetWrite token newPassword revoked now =>
    have current : token ∉ c.history.consumed ∧ c.Swept revoked none := by
      cases p with
      | operator => exact ⟨(sound.stored token (fits.2 rfl).1).2, (fits.2 rfl).2⟩
      | entrant => exact met rfl
    cases h
    exact sound.reset fits.1 current.1 current.2 newPassword now
  | changeWrite keep newPassword revoked now =>
    cases h
    exact sound.change fits.2 newPassword now
  | logoutWrite token now =>
    cases h
    exact (quiet_revoke c [token] now).sound sound
  | activity token now =>
    simp only [AuthTx.exec] at h
    repeat' split at h
    all_goals cases h
    exact (quiet_touch c token now).sound sound
  | reset | resetReserve | logout =>
    simp only [AuthTx.exec] at h
    repeat' split at h
    all_goals cases h
    all_goals exact sound
  | login | loginReserve | issue | change | changeReserve =>
    simp only [AuthTx.exec] at h
    repeat' split at h
    all_goals cases h
  | resetSweep | changeSweep => cases h

theorem exec_commits_drawn (h : tx.exec s p c others = .commits c') : c.drawn ≤ c'.drawn := by
  cases tx with
  | loginInsert provedAt rehash now =>
    cases h
    cases rehash <;> simp [Credentials.openSession, Credentials.setPassword]
    omega
  | issueWrite | resetWrite | changeWrite =>
    cases h
    simp [Credentials.revoke, Credentials.setPassword]
  | logoutWrite =>
    cases h
    simp [Credentials.revoke]
  | activity token now =>
    simp only [AuthTx.exec] at h
    repeat' split at h
    all_goals cases h
    simp [Credentials.touch]
  | login | loginReserve | issue | reset | resetReserve | change | changeReserve | logout =>
    simp only [AuthTx.exec] at h
    repeat' split at h
    all_goals cases h
    all_goals exact Nat.le_refl _
  | resetSweep | changeSweep => cases h

theorem AuthTx.Fits.of_not_reserves (fits : other.Fits p c) (h : other.reserves p = false)
    (grows : c.drawn ≤ c'.drawn) : other.Fits p c' := by
  cases p with
  | operator =>
    cases other with
    | loginInsert | resetSweep | resetWrite | changeWrite => cases h
    | changeReserve | changeSweep => rfl
    | _ => trivial
  | entrant =>
    cases other with
    | loginInsert => exact fun e => nomatch e
    | resetSweep | resetWrite => exact ⟨Nat.lt_of_lt_of_le fits.1 grows, fun e => nomatch e⟩
    | changeReserve | changeSweep => cases fits
    | changeWrite => cases fits.1
    | _ => trivial

theorem AuthTx.Fits.quiet (fits : other.Fits p c) (q : Quiet c c') : other.Fits p c' := by
  cases other with
  | loginInsert =>
    intro operator
    rw [q.history]
    exact fits operator
  | resetSweep =>
    refine ⟨q.drawn ▸ fits.1, fun operator => ?_⟩
    rw [q.token]
    exact fits.2 operator
  | resetWrite =>
    refine ⟨q.drawn ▸ fits.1, fun operator => ⟨?_, q.swept (fits.2 operator).2⟩⟩
    rw [q.token]
    exact (fits.2 operator).1
  | changeReserve | changeSweep => exact fits
  | changeWrite => exact ⟨fits.1, q.swept fits.2⟩
  | _ => trivial

theorem AuthTx.Fits.commits_other (h : tx.exec s p c others = .commits c') (fits : other.Fits p c)
    (alone : Alone p tx other) : other.Fits p c' := by
  by_cases reserved : other.reserves p = true
  · have unreserved : tx.reserves p = false := by
      simpa [Alone, reserved] using alone
    cases p with
    | operator => exact fits.quiet (exec_commits_quiet h unreserved)
    | entrant => cases other <;> simp [AuthTx.reserves] at reserved
  · exact fits.of_not_reserves (by simpa using reserved) (exec_commits_drawn h)

theorem credentialsRule (s : AuthSettings) (p : Principal) :
    Rule AuthRequest.start (AuthTx.exec s p) (NotOvertaken p) Credentials.Sound (AuthTx.Fits p)
      (Alone p) where
  symm _ _ alone := fun both => alone both.symm
  starts _ request _ := by cases request <;> trivial
  startsApart request _ := by
    rintro ⟨-, reserved⟩
    cases request <;> cases reserved
  goesOn _ _ _ _ placed _ h :=
    ⟨AuthTx.Fits.goesOn placed h, fun _ mem => (placed.rest _ mem).2.goesOn h mem⟩
  commits _ _ _ _ placed met h :=
    ⟨AuthTx.Fits.commits placed met h, fun _ fits alone => fits.commits_other h alone⟩

/-! ## Every run -/

/-- An account before any reset or change, with the sessions its password was proved for. -/
def Untouched (a : Accounts) : Prop :=
  a.store.history = {} ∧ (∀ row ∈ a.store.sessions.rows, row.provedAt = 0) ∧
    (∀ token ∈ a.store.resetTokenHash, token < a.store.drawn) ∧ a.running = []

instance (a : Accounts) : Decidable (Untouched a) := inferInstanceAs (Decidable (_ ∧ _ ∧ _ ∧ _))

def AuthSteps (s : AuthSettings) (p : Principal)
    (U : Credentials → List AuthTx → AuthTx → Prop) : Accounts → AuthMove → Accounts → Prop :=
  Interleaved.Steps AuthRequest.start (AuthTx.exec s p) U

theorem fits_untouched {a : Accounts} (h : Untouched a) :
    Fits Credentials.Sound (AuthTx.Fits p) (Alone p) a := by
  obtain ⟨history, proved, drawn, idle⟩ := h
  refine ⟨⟨⟨?_, fun row mem _ => .inl ?_⟩, fun token mem => ⟨drawn token mem, ?_⟩, ?_⟩, ?_, ?_⟩
  · rw [history]
    exact List.nodup_nil
  · rw [history]
    exact proved row mem
  · simp [history]
  · simp [history]
  · simp [idle]
  · simp [idle]

/-- **Credentials are revoked.** An operator's reset token changes the password once and no session
outlives the password it was granted for, in every run; an entrant's, in every run in which no
login and no reset is overtaken. -/
theorem credentials_revoked (s : AuthSettings) :
    (∀ a, Reachable Untouched (AuthSteps s .operator (fun _ _ _ => True)) a → a.store.Safe) ∧
      ∀ a, Reachable Untouched (AuthSteps s .entrant (NotOvertaken .entrant)) a → a.store.Safe := by
  refine ⟨fun a h => ?_, fun a h => ?_⟩
  · have h : Reachable Untouched (AuthSteps s .operator (NotOvertaken .operator)) a := by
      refine h.mono fun a m a' hs => ⟨?_, hs.2⟩
      cases m with
      | run n => exact fun tx _ entrant => nomatch entrant
      | start request => trivial
      | rollback n => trivial
    exact (Fits.reachable (credentialsRule s .operator) (fun _ => fits_untouched) h).store.toSafe
  · exact (Fits.reachable (credentialsRule s .entrant) (fun _ => fits_untouched) h).store.toSafe

/-! ## An account with the password "shuttlecock" and no sessions -/

def plainSettings : AuthSettings where
  passwordMinLength := 8
  passwordMaxLength := 128
  worstPasswords := ["password"]
  lower := id
  hashParams := 1
  sessionTtl := 43200
  resetTokenTtl := 3600

def annasAccount : Accounts where
  store :=
    { passwordHash := some ⟨"shuttlecock", 0, 1⟩
      sessions := .empty
      drawn := 1 }
  running := []

/-- A login, then a reset by the mailed token. -/
def loginThenReset (token : Nat) : List AuthMove :=
  [.start (.login "shuttlecock" 10), .run 0, .run 0, .run 0, .start (.requestReset 20), .run 0, .run 0,
    .start (.resetPassword token "featherball" 30), .run 0, .run 0, .run 0, .run 0]

theorem credentials_revoked_reset :
    (after AuthRequest.start (AuthTx.exec plainSettings .operator) annasAccount
        (loginThenReset 2)).store.history = ⟨1, none, [2]⟩ ∧
      (after AuthRequest.start (AuthTx.exec plainSettings .operator) annasAccount
        (loginThenReset 2)).store.Safe ∧
      (after AuthRequest.start (AuthTx.exec plainSettings .entrant) annasAccount
        (loginThenReset 2)).store.Safe := by
  refine ⟨by decide, (credentials_revoked plainSettings).1 _ ?_,
    (credentials_revoked plainSettings).2 _ ?_⟩
  · exact Along.reachable (.init (by decide)) (by decide)
  · exact Along.reachable (.init (by decide)) (by decide)

/-- An entrant's login has proved the old password when a reset sweeps the sessions; and one token
resets the password twice when both requests read it first. -/
theorem entrants_reset_overtaken :
    (∃ a, Reachable Untouched (AuthSteps plainSettings .entrant (fun _ _ _ => True)) a ∧
        ¬ a.store.Safe ∧ a.store.history.consumed = [1]) ∧
      ∃ a, Reachable Untouched (AuthSteps plainSettings .entrant (fun _ _ _ => True)) a ∧
        ¬ a.store.Safe ∧ a.store.history.consumed = [1, 1] := by
  refine ⟨⟨after AuthRequest.start (AuthTx.exec plainSettings .entrant) annasAccount
      [.start (.requestReset 20), .run 0, .run 0, .start (.login "shuttlecock" 30), .run 0,
        .start (.resetPassword 1 "featherball" 31), .run 1, .run 1, .run 1, .run 0], ?_, by decide⟩,
    ⟨after AuthRequest.start (AuthTx.exec plainSettings .entrant) annasAccount
      [.start (.requestReset 20), .run 0, .run 0, .start (.resetPassword 1 "featherball" 30), .run 0,
        .start (.resetPassword 1 "birdie-bird" 30), .run 1, .run 1, .run 1, .run 0, .run 0],
      ?_, by decide⟩⟩
  · exact Along.reachable (.init (by decide)) (by decide)
  · exact Along.reachable (.init (by decide)) (by decide)

end Identity
