import ShuttleWorks.Identity.Assurance

/-! Ceremonies of one account in any order: nothing is spent twice, and no session counts as
authenticated but by a proof of the factor that is active. -/

namespace Identity
open Lib Interleaved Sync

variable {s : MfaSettings} {x : CeremonyContext} {a a' : Authenticators} {f f' : Factor}
  {generation : Nat} {granted : Grant} {password code : String} {tx : CeremonyTx} {α : Type}

/-! ## Sessions -/

theorem GrantsSound.withSessions (h : GrantsSound s a) (sessions : Table OperatorSession.id) :
    GrantsSound s { a with sessions := sessions } :=
  ⟨h.once, h.steps, h.issued, h.unspent, h.owned, h.numbers,
    fun f owner => ⟨(h.factor f owner).known, (h.factor f owner).sealed, (h.factor f owner).spent,
      (h.factor f owner).pendingKnown, (h.factor f owner).pendingNew,
      (h.factor f owner).pendingUnspent, (h.factor f owner).pendingSealed⟩, h.proofs⟩

/-- Rows of `a'` are rows of `a`, as far as their ceremonies go. -/
def Inherits (a a' : Authenticators) : Prop :=
  ∀ row' ∈ a'.sessions.rows, ∃ row ∈ a.sessions.rows, row.id = row'.id ∧
    row.mfaGeneration = row'.mfaGeneration ∧ row.proved = row'.proved

theorem inherits_of_eq (h : a'.sessions = a.sessions) : Inherits a a' := by
  intro row mem
  rw [h] at mem
  exact ⟨row, mem, rfl, rfl, rfl⟩

theorem inherits_revokeSessions (a : Authenticators) (now : Instant) (exceptId : Option Uuid) :
    Inherits a (a.revokeSessions now exceptId) := by
  intro row mem
  obtain ⟨old, found, rfl⟩ := List.mem_map.mp mem
  refine ⟨old, found, ?_⟩
  split <;> exact ⟨rfl, rfl, rfl⟩

theorem has_revokeSessions {now : Instant} {exceptId : Option Uuid} {id : Uuid}
    (h : a.sessions.Has id) : (a.revokeSessions now exceptId).sessions.Has id := by
  obtain ⟨row, mem, same⟩ := Table.has_iff.mp h
  refine Table.has_iff.mpr ⟨_, List.mem_map_of_mem mem, ?_⟩
  split <;> exact same

theorem reserve_sessions (a : Authenticators) (now : Instant) (create : Bool) :
    (a.reserve now create).sessions = a.sessions := by
  unfold Authenticators.reserve
  repeat' split
  all_goals rfl

theorem reserve_history (a : Authenticators) (now : Instant) (create : Bool) :
    (a.reserve now create).history = a.history := by
  unfold Authenticators.reserve
  repeat' split
  all_goals rfl

/-- The factor after a step still backs what it backed, or it is ahead of every session. -/
def Advances (f f' : Factor) : Prop :=
  f.generation < f'.generation ∨
    f'.generation = f.generation ∧ f'.status = f.status ∧ f'.enrolled = f.enrolled

theorem reserve_advances {now : Instant} {create : Bool} (h : a.factor = some f) :
    ∃ f', (a.reserve now create).factor = some f' ∧ Advances f f' := by
  unfold Authenticators.reserve
  rw [h]
  exact ⟨_, rfl, .inr ⟨rfl, rfl, rfl⟩⟩

theorem SessionsSound.mono (h : SessionsSound a) (rows : Inherits a a')
    (factor : ∀ f, a.factor = some f → ∃ f', a'.factor = some f' ∧ Advances f f')
    (grants : ∀ g ∈ a.history.grants, g ∈ a'.history.grants) : SessionsSound a' := by
  intro row' mem g level
  obtain ⟨row, mem, -, generation, proved⟩ := rows row' mem
  obtain ⟨f, owner, low, backs⟩ := h row mem g (generation ▸ level)
  obtain ⟨f', owner', further | ⟨same, status, enrolled⟩⟩ := factor f owner
  · refine ⟨f', owner', by omega, fun e => ?_⟩
    omega
  · refine ⟨f', owner', by omega, fun e => ?_⟩
    obtain ⟨active, granted, mem, was, enrollment⟩ := backs (by omega)
    exact ⟨status.trans active, granted, grants granted mem, proved ▸ was, enrolled ▸ enrollment⟩

theorem SessionsSound.reserve (h : SessionsSound a) (now : Instant) (create : Bool) :
    SessionsSound (a.reserve now create) := by
  refine h.mono (inherits_of_eq (reserve_sessions a now create)) (fun f => reserve_advances) ?_
  rw [reserve_history]
  exact fun g mem => mem

/-- What `rotate_session` does: an old row ends, and its successor has the ceremony's generation. -/
structure Rotated (a a' : Authenticators) (generation : Nat) (granted : Grant) : Prop where
  rest : ∃ sessions, a' = { a with sessions := sessions }
  rows : ∀ row' ∈ a'.sessions.rows, (∃ row ∈ a.sessions.rows, row.id = row'.id ∧
      row.mfaGeneration = row'.mfaGeneration ∧ row.proved = row'.proved) ∨
    row'.mfaGeneration = some generation ∧ row'.proved = some granted ∧ ¬ a.sessions.Has row'.id

theorem rotateSession_rotated {row replacement : OperatorSession} {now : Instant} {newId : Uuid}
    (h : a.rotateSession row generation granted now newId = .ok (a', replacement)) :
    Rotated a a' generation granted := by
  unfold Authenticators.rotateSession at h
  split at h
  · cases h
  · next current found =>
    split at h
    · dsimp only at h
      split at h
      · cases h
      · next sessions inserted =>
        cases h
        obtain ⟨fresh, rows⟩ := Table.insert_eq_some.mp inserted
        refine ⟨⟨sessions, rfl⟩, fun row' mem => ?_⟩
        rw [rows, List.mem_append, List.mem_singleton] at mem
        rcases mem with mem | rfl
        · left
          rcases Table.mem_put.mp mem with rfl | ⟨mem, -⟩
          · exact ⟨current, Table.mem_of_get found, rfl, rfl, rfl⟩
          · exact ⟨row', mem, rfl, rfl, rfl⟩
        · refine .inr ⟨rfl, rfl, fun has => fresh ?_⟩
          obtain ⟨old, mem, same⟩ := Table.has_iff.mp has
          refine Table.has_iff.mpr ?_
          by_cases ended : old.id = current.id
          · exact ⟨_, Table.mem_put.mpr (.inl rfl), ended.symm.trans same⟩
          · exact ⟨old, Table.mem_put.mpr (.inr ⟨mem, ended⟩), same⟩
    · cases h

theorem complete_rotated {row : OperatorSession}
    (h : complete s x a row generation granted = .ok a') : Rotated a a' generation granted := by
  unfold complete at h
  obtain ⟨⟨a₁, replacement⟩, rotated, h⟩ := bind_eq_ok.mp h
  dsimp only at h
  split at h <;> cases h
  exact rotateSession_rotated rotated

/-- What a ceremony leaves for the rotation: a factor of this generation that the grant proves. -/
def Proven (a : Authenticators) (generation : Nat) (granted : Grant) : Prop :=
  ∃ f, a.factor = some f ∧ f.generation = generation ∧ f.status = .active ∧
    granted ∈ a.history.grants ∧ granted.enrollment = f.enrolled.number

theorem Rotated.sound (r : Rotated a a' generation granted) (proven : Proven a generation granted)
    (grants : GrantsSound s a) (sessions : SessionsSound a) :
    GrantsSound s a' ∧ SessionsSound a' := by
  obtain ⟨⟨table, rfl⟩, rows⟩ := r
  refine ⟨grants.withSessions table, fun row' mem g level => ?_⟩
  rcases rows row' mem with ⟨row, mem, -, same, proved⟩ | ⟨new, proved, -⟩
  · obtain ⟨f, owner, low, backs⟩ := sessions row mem g (same ▸ level)
    refine ⟨f, owner, low, fun e => ?_⟩
    obtain ⟨active, granted, known, was, enrollment⟩ := backs e
    exact ⟨active, granted, known, proved ▸ was, enrollment⟩
  · obtain ⟨f, owner, rfl, active, known, enrollment⟩ := proven
    rw [new] at level
    obtain rfl := Option.some.inj level
    exact ⟨f, owner, Nat.le_refl _, fun _ => ⟨active, granted, known, proved, enrollment⟩⟩

def Cuts (a a' : Authenticators) : Prop :=
  ∀ row ∈ a'.sessions.rows, ∀ now, Authenticated a' row now → ¬ a.sessions.Has row.id

/-! ## The six operations -/

theorem Replaced.empty {e : Nat} (r : Replaced a a' e) :
    Replaced { a with codes := .empty } a' e :=
  ⟨r.factor, r.sessions, r.grants, r.enrollments, r.issued, r.rows, r.numbers⟩

theorem activeFactor_eq_ok (h : activeFactor a = .ok f) :
    a.setFactor f = a ∧ f.status = .active := by
  unfold activeFactor at h
  split at h
  · cases h
  · next found =>
    split at h <;> cases h
    exact ⟨setFactor_self found, ‹_›⟩

theorem Inherits.trans {a₁ a₂ a₃ : Authenticators} (h : Inherits a₁ a₂) (h' : Inherits a₂ a₃) :
    Inherits a₁ a₃ := by
  intro row mem
  obtain ⟨row', mem', id', same', proved'⟩ := h' row mem
  obtain ⟨row'', mem'', id'', same'', proved''⟩ := h row' mem'
  exact ⟨row'', mem'', id''.trans id', same''.trans same', proved''.trans proved'⟩

theorem beginEnrollment_sound (authentic : s.crypto.Authentic) (grants : GrantsSound s a)
    (sessions : SessionsSound a) {fresh : Bool} (h : beginEnrollment s x a password fresh = .ok a')
    : GrantsSound s a' ∧ SessionsSound a' := by
  have grants := grants.reserve x.now true
  have sessions := sessions.reserve x.now true
  unfold beginEnrollment at h
  split at h
  · dsimp only at h
    generalize a.reserve x.now true = a at grants sessions h
    split at h
    · cases h
    · next f found =>
      split at h
      · cases h
      · simp only [bind_eq_ok] at h
        obtain ⟨key, -, pending, sealing, f', audited, h⟩ := h
        obtain rfl := audit_stays audited (by simp)
        cases h
        rw [← setFactor_self found] at grants
        refine ⟨grants.begin (seals_of_encryptFactor authentic sealing) _ _ _ _, ?_⟩
        refine sessions.mono (inherits_of_eq rfl) (fun f₀ owner => ?_) (fun g mem => mem)
        obtain rfl : f = f₀ := Option.some.inj (found.symm.trans owner)
        exact ⟨_, rfl, .inr ⟨rfl, rfl, rfl⟩⟩
  · cases h

theorem confirmEnrollment_sound (authentic : s.crypto.Authentic) (grants : GrantsSound s a)
    (sessions : SessionsSound a)
    (h : confirmEnrollment s x a code = .ok (a', generation, granted)) :
    GrantsSound s a' ∧ SessionsSound a' ∧ Proven a' generation granted ∧
      (∀ id, a.sessions.Has id → a'.sessions.Has id) ∧
      ∀ row ∈ a'.sessions.rows, row.mfaGeneration ≠ some generation := by
  have grants := grants.reserve x.now false
  have sessions := sessions.reserve x.now false
  have kept := reserve_sessions a x.now false
  unfold confirmEnrollment at h
  dsimp only at h
  generalize a.reserve x.now false = a₁ at grants sessions kept h
  split at h
  · cases h
  · next f found =>
    split at h
    · next pending expiresAt stored _ =>
      split at h
      · cases h
      · simp only [bind_eq_ok] at h
        obtain ⟨key, -, seed, opened, matched, matching, h⟩ := h
        split at h
        · cases h
        · next counter =>
          simp only [bind_eq_ok] at h
          obtain ⟨secret, sealing, a₂, replaced, f', audited, h⟩ := h
          obtain rfl := audit_activate audited
          cases h
          have sound := grants.factor f found
          obtain ⟨-, proof⟩ := matchingCounter_eq_some matching
          obtain rfl := sound.pendingSealed pending stored key _ seed opened
          rw [← setFactor_self found] at grants
          have enrolled := grants.enroll (by simp [stored]) (seals_sealActive authentic sealing) proof
            x.keys.activeId x.now
          have r := replaceRecoveryCodes_replaced replaced
          have settled := (enrolled.replaced rfl r.empty).withSessions
            (a₂.revokeSessions x.now (some x.sessionId)).sessions
          have inherits : Inherits a₁ (a₂.revokeSessions x.now (some x.sessionId)) :=
            (inherits_of_eq r.sessions).trans (inherits_revokeSessions _ _ _)
          refine ⟨settled, ?_, ⟨_, rfl, rfl, rfl, ?_, rfl⟩, fun id has => ?_, ?_⟩
          · refine sessions.mono inherits (fun f₀ owner => ?_) (fun g mem => ?_)
            · obtain rfl : f = f₀ := Option.some.inj (found.symm.trans owner)
              exact ⟨_, rfl, .inl (Nat.lt_succ_self _)⟩
            · show g ∈ a₂.history.grants
              rw [r.grants]
              exact List.mem_cons_of_mem _ mem
          · show _ ∈ a₂.history.grants
            rw [r.grants]
            exact List.mem_cons_self
          · refine has_revokeSessions ?_
            rw [r.sessions]
            exact kept ▸ has
          · intro row mem level
            obtain ⟨old, mem, -, same, -⟩ := inherits row mem
            obtain ⟨f₀, owner, low, -⟩ := sessions old mem _ (same.trans level)
            obtain rfl : f = f₀ := Option.some.inj (found.symm.trans owner)
            exact Nat.lt_irrefl _ (Nat.lt_of_lt_of_le (Nat.lt_succ_self _) low)
    · cases h

theorem verifyFactor_sound (authentic : s.crypto.Authentic) (grants : GrantsSound s a)
    (sessions : SessionsSound a) (h : verifyFactor s x a code = .ok (a', generation, granted)) :
    GrantsSound s a' ∧ SessionsSound a' ∧ Proven a' generation granted := by
  have grants := grants.reserve x.now false
  have sessions := sessions.reserve x.now false
  simp only [verifyFactor, bind_eq_ok] at h
  generalize a.reserve x.now false = a₁ at grants sessions h
  obtain ⟨f, found, ⟨a₂, f₂, event, granted'⟩, proved, f₃, audited, h⟩ := h
  obtain ⟨current, active⟩ := activeFactor_eq_ok found
  rw [← current] at grants proved sessions
  obtain ⟨settled, rows, spent, owner, status, same, enrolled, named⟩ :=
    prove_sound grants active authentic proved
  obtain rfl := audit_stays audited (by
    simp only [List.mem_cons, List.not_mem_nil, or_false] at named ⊢
    tauto)
  cases h
  refine ⟨settled.touch x.now f₂.revision, ?_, ⟨_, rfl, rfl, status.trans active, ?_, ?_⟩⟩
  · refine sessions.mono (inherits_of_eq rows) (fun f₀ owner => ?_) (fun g mem => ?_)
    · obtain rfl : f = f₀ := Option.some.inj owner
      exact ⟨_, rfl, .inr ⟨same, status, enrolled⟩⟩
    · show g ∈ a₂.history.grants
      rw [spent]
      exact List.mem_cons_of_mem _ mem
  · show _ ∈ a₂.history.grants
    rw [spent]
    exact List.mem_cons_self
  · rw [owner, ← enrolled]

theorem reissueRecoveryCodes_sound (authentic : s.crypto.Authentic) (grants : GrantsSound s a)
    (sessions : SessionsSound a) (h : reissueRecoveryCodes s x a code = .ok a') :
    GrantsSound s a' ∧ SessionsSound a' := by
  have grants := grants.reserve x.now false
  have sessions := sessions.reserve x.now false
  simp only [reissueRecoveryCodes, bind_eq_ok] at h
  generalize a.reserve x.now false = a₁ at grants sessions h
  obtain ⟨f, found, ⟨a₂, f₂, event, granted⟩, proved, a₃, replaced, f₃, audited, h⟩ := h
  obtain ⟨current, active⟩ := activeFactor_eq_ok found
  rw [← current] at grants proved sessions
  obtain ⟨settled, rows, spent, owner, status, same, enrolled, -⟩ :=
    prove_sound grants active authentic proved
  obtain rfl := audit_stays audited (by simp)
  cases h
  have r := replaceRecoveryCodes_replaced replaced
  refine ⟨(settled.replaced (status.trans active) r).touch x.now f₂.revision, ?_⟩
  refine sessions.mono (inherits_of_eq (r.sessions.trans rows)) (fun f₀ owner => ?_)
    (fun g mem => ?_)
  · obtain rfl : f = f₀ := Option.some.inj owner
    exact ⟨_, rfl, .inr ⟨same, status, enrolled⟩⟩
  · show g ∈ a₃.history.grants
    rw [r.grants, spent]
    exact List.mem_cons_of_mem _ mem

theorem disableFactor_sound (authentic : s.crypto.Authentic) (grants : GrantsSound s a)
    (sessions : SessionsSound a) (h : disableFactor s x a code = .ok a') :
    GrantsSound s a' ∧ SessionsSound a' ∧ ∀ row now, ¬ Authenticated a' row now := by
  have grants := grants.reserve x.now false
  have sessions := sessions.reserve x.now false
  simp only [disableFactor, bind_eq_ok] at h
  generalize a.reserve x.now false = a₁ at grants sessions h
  obtain ⟨f, found, ⟨a₂, f₂, event, granted⟩, proved, a₃, replaced, f₃, audited, h⟩ := h
  obtain ⟨current, active⟩ := activeFactor_eq_ok found
  rw [← current] at grants proved sessions
  obtain ⟨settled, rows, spent, -, status, same, -, -⟩ :=
    prove_sound grants active authentic proved
  obtain rfl := audit_disable audited
  obtain rfl := replaceRecoveryCodes_nil replaced
  cases h
  refine ⟨(settled.disable x.now).withSessions
    (a₂.revokeSessions x.now (some x.sessionId)).sessions, ?_, ?_⟩
  · refine sessions.mono ((inherits_of_eq rows).trans (inherits_revokeSessions a₂ x.now _))
      (fun f₀ owner => ?_) (fun g mem => ?_)
    · obtain rfl : f = f₀ := Option.some.inj owner
      refine ⟨_, rfl, .inl ?_⟩
      show f.generation < f₂.generation + 1
      omega
    · show g ∈ a₂.history.grants
      rw [spent]
      exact List.mem_cons_of_mem _ mem
  · rintro row now ⟨f', owner, live, -⟩
    obtain rfl := Option.some.inj owner
    cases live

theorem rewrapSecret_sound (authentic : s.crypto.Authentic) (grants : GrantsSound s (a.setFactor f))
    (h : rewrapSecret s x f = .ok f') :
    GrantsSound s (a.setFactor f') ∧ f'.generation = f.generation ∧ f'.status = f.status ∧
      f'.enrolled = f.enrolled := by
  unfold rewrapSecret at h
  split at h
  · cases h
    exact ⟨grants, rfl, rfl, rfl⟩
  · next envelope stored =>
    split at h
    · cases h
      exact ⟨grants, rfl, rfl, rfl⟩
    · simp only [rewrap, bind_eq_ok] at h
      obtain ⟨secret, ⟨key, -, seed, opened, activeKey, -, sealing⟩, h⟩ := h
      cases h
      have seals := seals_of_encryptFactor authentic sealing
      refine ⟨grants.reseal (fun active => ?_) _, rfl, rfl, rfl⟩
      rw [← (grants.factor f rfl).sealed active envelope stored key s.scope seed opened]
      exact seals

theorem rewrapPending_sound (authentic : s.crypto.Authentic)
    (grants : GrantsSound s (a.setFactor f)) (h : rewrapPending s x f = .ok f') :
    GrantsSound s (a.setFactor f') ∧ f'.generation = f.generation ∧ f'.status = f.status ∧
      f'.enrolled = f.enrolled := by
  unfold rewrapPending at h
  split at h
  · cases h
    exact ⟨grants, rfl, rfl, rfl⟩
  · next envelope stored =>
    split at h
    · cases h
      exact ⟨grants, rfl, rfl, rfl⟩
    · simp only [rewrap, bind_eq_ok] at h
      obtain ⟨pending, ⟨key, -, seed, opened, activeKey, -, sealing⟩, h⟩ := h
      cases h
      have seals := seals_of_encryptFactor authentic sealing
      obtain rfl := (grants.factor f rfl).pendingSealed envelope stored key _ seed opened
      exact ⟨grants.resealPending stored seals _, rfl, rfl, rfl⟩

theorem rewrapFactors_sound (authentic : s.crypto.Authentic) (grants : GrantsSound s a)
    (sessions : SessionsSound a) (h : rewrapFactors s x a = .ok a') :
    GrantsSound s a' ∧ SessionsSound a' := by
  have grants := grants.reserve x.now false
  have sessions := sessions.reserve x.now false
  unfold rewrapFactors at h
  dsimp only at h
  generalize a.reserve x.now false = a₁ at grants sessions h
  split at h
  · cases h
    exact ⟨grants, sessions⟩
  · next f found =>
    simp only [bind_eq_ok] at h
    obtain ⟨f₁, first, f₂, second, h⟩ := h
    cases h
    rw [← setFactor_self found] at grants
    obtain ⟨grants, same, status, enrolled⟩ := rewrapSecret_sound authentic grants first
    obtain ⟨grants, same', status', enrolled'⟩ := rewrapPending_sound authentic grants second
    refine ⟨grants, sessions.mono (inherits_of_eq rfl) (fun f₀ owner => ?_) (fun g mem => mem)⟩
    obtain rfl : f = f₀ := Option.some.inj (found.symm.trans owner)
    exact ⟨_, rfl, .inr ⟨same'.trans same, status'.trans status, enrolled'.trans enrolled⟩⟩

theorem signIn_sound (grants : GrantsSound s a) (sessions : SessionsSound a) {offline : Bool}
    {ttl : Instant} (h : signIn x a password offline ttl = .ok a') :
    GrantsSound s a' ∧ SessionsSound a' := by
  unfold signIn at h
  split at h
  · split at h
    · cases h
    · next table inserted =>
      cases h
      refine ⟨grants.withSessions table, fun row mem g level => ?_⟩
      rw [(Table.insert_eq_some.mp inserted).2, List.mem_append, List.mem_singleton] at mem
      rcases mem with mem | rfl
      · exact sessions row mem g level
      · cases level
  · cases h

def CeremonyRequest.EndsFactor : CeremonyRequest → Prop
  | .confirm _ | .disable .. => True
  | _ => False

theorem body_sound (authentic : s.crypto.Authentic) (grants : GrantsSound s a)
    (sessions : SessionsSound a) {row : Option OperatorSession} {fresh : Bool}
    {request : CeremonyRequest} (h : request.body s x a row fresh = .ok a') :
    GrantsSound s a' ∧ SessionsSound a' ∧ (request.EndsFactor → Cuts a a') := by
  cases request with
  | signIn password =>
    obtain ⟨grants, sessions⟩ := signIn_sound grants sessions h
    exact ⟨grants, sessions, fun ends => ends.elim⟩
  | enroll password =>
    obtain ⟨grants, sessions⟩ := beginEnrollment_sound authentic grants sessions h
    exact ⟨grants, sessions, fun ends => ends.elim⟩
  | confirm code =>
    cases row with
    | none => cases h
    | some row =>
      simp only [CeremonyRequest.body, bind_eq_ok] at h
      obtain ⟨⟨a₁, generation, granted⟩, confirmed, completed⟩ := h
      obtain ⟨grants, sessions, proven, kept, behind⟩ :=
        confirmEnrollment_sound authentic grants sessions confirmed
      have rotated := complete_rotated completed
      obtain ⟨grants', sessions'⟩ := rotated.sound proven grants sessions
      refine ⟨grants', sessions', fun _ row mem now live has => ?_⟩
      obtain ⟨f, owner, -, level, -⟩ := live
      obtain ⟨f₁, owner₁, rfl, -, -⟩ := proven
      obtain ⟨table, rfl⟩ := rotated.rest
      obtain rfl : f₁ = f := Option.some.inj (owner₁.symm.trans owner)
      rcases rotated.rows row mem with ⟨old, mem, -, same, -⟩ | ⟨-, -, new⟩
      · exact behind old mem (same.trans level)
      · exact new (kept _ has)
  | verify password code =>
    simp only [CeremonyRequest.body, bind_eq_ok] at h
    obtain ⟨row, -, ⟨a₁, generation, granted⟩, verified, completed⟩ := h
    obtain ⟨grants, sessions, proven⟩ := verifyFactor_sound authentic grants sessions verified
    obtain ⟨grants, sessions⟩ := (complete_rotated completed).sound proven grants sessions
    exact ⟨grants, sessions, fun ends => ends.elim⟩
  | reissueRecoveryCodes password code =>
    simp only [CeremonyRequest.body, bind_eq_ok] at h
    obtain ⟨row, -, reissued⟩ := h
    obtain ⟨grants, sessions⟩ := reissueRecoveryCodes_sound authentic grants sessions reissued
    exact ⟨grants, sessions, fun ends => ends.elim⟩
  | disable password code =>
    simp only [CeremonyRequest.body, bind_eq_ok] at h
    obtain ⟨row, -, disabled⟩ := h
    obtain ⟨grants, sessions, none⟩ := disableFactor_sound authentic grants sessions disabled
    exact ⟨grants, sessions, fun _ row _ now live => absurd live (none row now)⟩
  | rewrap =>
    obtain ⟨grants, sessions⟩ := rewrapFactors_sound authentic grants sessions h
    exact ⟨grants, sessions, fun ends => ends.elim⟩

/-! ## Every run -/

/-- What a request has computed under the reservation still stands when it commits. -/
def CeremonyTx.Fits (s : MfaSettings) (a : Authenticators) : CeremonyTx → Prop
  | .staged request result =>
    GrantsSound s result ∧ SessionsSound result ∧ (request.EndsFactor → Cuts a result)
  | _ => True

def ReservedAlone (tx other : CeremonyTx) : Prop := ¬ (tx.reserves ∧ other.reserves)

theorem runs_eq_goesOn {r : Except MfaError α}
    {next : α → Progress Authenticators MfaError CeremonyTx} (h : runs r next = .goesOn tx) :
    ∃ b, r = .ok b ∧ next b = .goesOn tx := by
  cases r with
  | error e => cases h
  | ok b => exact ⟨b, rfl, h⟩

theorem runs_ne_commits (r : Except MfaError α) (next : α → CeremonyTx) (store : Authenticators) :
    runs r (fun b => .goesOn (next b)) ≠ .commits store := by
  intro h
  cases r <;> cases h

theorem opens_idle {request : CeremonyRequest} (h : request.opens s x a = .ok tx) :
    tx.reserves = false := by
  cases request with
  | signIn | rewrap =>
    cases h
    rfl
  | enroll | confirm =>
    obtain ⟨user, -, h⟩ := bind_eq_ok.mp h
    cases h
    rfl
  | verify =>
    obtain ⟨user, -, h⟩ := bind_eq_ok.mp h
    cases h
    rfl
  | reissueRecoveryCodes =>
    obtain ⟨user, -, h⟩ := bind_eq_ok.mp h
    obtain ⟨-, -, h⟩ := bind_eq_ok.mp h
    cases h
    rfl
  | disable =>
    obtain ⟨user, -, h⟩ := bind_eq_ok.mp h
    split at h
    · cases h
    · obtain ⟨-, -, h⟩ := bind_eq_ok.mp h
      cases h
      rfl

theorem CeremonyTx.Fits.of_idle (h : tx.reserves = false) : tx.Fits s a := by
  cases tx with
  | staged => cases h
  | _ => trivial

/-- A request goes on without the reservation, or takes it when nobody has it, or has it and stages
what its body computed. -/
theorem exec_goesOn_cases {others : List CeremonyTx} {tx' : CeremonyTx}
    (h : tx.exec s a others = .goesOn tx') :
    tx'.reserves = false ∨ (tx'.Fits s a ∧ ∀ other ∈ others, other.reserves = false) ∨
      ∃ x request row fresh result, tx = .reserved x request row fresh ∧
        request.body s x a row fresh = .ok result ∧ tx' = .staged request result := by
  cases tx with
  | begun x request =>
    simp only [CeremonyTx.exec] at h
    split at h
    · cases h
    · obtain ⟨admitted, ran, h⟩ := runs_eq_goesOn h
      cases h
      exact .inl (opens_idle ran)
  | readCredential x request fresh =>
    obtain ⟨row, -, h⟩ := runs_eq_goesOn h
    cases h
    exact .inl rfl
  | reserving x request row fresh =>
    simp only [CeremonyTx.exec] at h
    split at h
    · cases h
    · next free =>
      cases h
      refine .inr (.inl ⟨trivial, fun other mem => ?_⟩)
      by_contra held
      exact free ⟨other, mem, by simpa using held⟩
  | reserved x request row fresh =>
    obtain ⟨result, ran, h⟩ := runs_eq_goesOn h
    cases h
    exact .inr (.inr ⟨x, request, row, fresh, result, rfl, ran, rfl⟩)
  | staged request result => cases h

theorem exec_commits_cases {others : List CeremonyTx} (h : tx.exec s a others = .commits a') :
    a' = a ∨ ∃ request, tx = .staged request a' := by
  cases tx with
  | begun x request =>
    simp only [CeremonyTx.exec] at h
    split at h
    · cases h
      exact .inl rfl
    · exact absurd h (runs_ne_commits _ _ _)
  | readCredential x request fresh => exact absurd h (runs_ne_commits _ _ _)
  | reserving x request row fresh =>
    simp only [CeremonyTx.exec] at h
    split at h <;> cases h
  | reserved x request row fresh => exact absurd h (runs_ne_commits _ _ _)
  | staged request result =>
    cases h
    exact .inr ⟨request, rfl⟩

theorem ceremonyRule (s : MfaSettings) (authentic : s.crypto.Authentic) :
    Rule startCeremony (CeremonyTx.exec s) (fun _ _ _ => True)
      (fun a => GrantsSound s a ∧ SessionsSound a) (CeremonyTx.Fits s) ReservedAlone where
  symm _ _ alone := fun both => alone both.symm
  starts _ _ _ := trivial
  startsApart _ _ := fun both => nomatch both.2
  goesOn a others tx tx' placed _ h := by
    rcases exec_goesOn_cases h with idle | ⟨fits, free⟩ | ⟨x, request, row, fresh, result, rfl, ran, rfl⟩
    · refine ⟨.of_idle idle, fun other _ both => ?_⟩
      rw [idle] at both
      cases both.1
    · refine ⟨fits, fun other mem both => ?_⟩
      rw [free other mem] at both
      cases both.2
    · refine ⟨body_sound authentic placed.holds.1 placed.holds.2 ran, fun other mem both => ?_⟩
      exact (placed.rest other mem).2 ⟨rfl, both.2⟩
  commits a others tx a' placed _ h := by
    rcases exec_commits_cases h with rfl | ⟨request, rfl⟩
    · exact ⟨placed.holds, fun other fits _ => fits⟩
    · refine ⟨⟨placed.fits.1, placed.fits.2.1⟩, fun other _ alone => ?_⟩
      exact .of_idle (by simpa [ReservedAlone, CeremonyTx.reserves] using alone)

def Unenrolled (c : Ceremonies) : Prop :=
  c.store.factor = none ∧ c.store.codes.rows = [] ∧ c.store.history = {} ∧
    (∀ row ∈ c.store.sessions.rows, row.mfaGeneration = none) ∧ c.running = []

instance (c : Ceremonies) : Decidable (Unenrolled c) :=
  inferInstanceAs (Decidable (_ ∧ _ ∧ _ ∧ _ ∧ _))

def CeremonySteps (s : MfaSettings) : Ceremonies → CeremonyMove → Ceremonies → Prop :=
  Interleaved.Steps startCeremony (CeremonyTx.exec s) (fun _ _ _ => True)

theorem fits_unenrolled {c : Ceremonies} (h : Unenrolled c) :
    Fits (fun a => GrantsSound s a ∧ SessionsSound a) (CeremonyTx.Fits s) ReservedAlone c := by
  obtain ⟨factor, codes, history, sessions, idle⟩ := h
  refine ⟨⟨?_, fun row mem g level => ?_⟩, by simp [idle], by simp [idle]⟩
  · refine ⟨?_, ?_, ?_, ?_, ?_, ?_, ?_, ?_⟩ <;> simp [Authenticators.spent, history, codes, factor]
  · rw [sessions row mem] at level
    cases level

theorem step_store (s : MfaSettings) (c : Ceremonies) (m : CeremonyMove) :
    (Interleaved.step startCeremony (CeremonyTx.exec s) c m).store = c.store ∨
      ∃ n request result, m = .run n ∧ c.running[n]? = some (.staged request result) ∧
        (Interleaved.step startCeremony (CeremonyTx.exec s) c m).store = result := by
  cases m with
  | start request => exact .inl rfl
  | rollback n => exact .inl rfl
  | run n =>
    cases found : c.running[n]? with
    | none => simp [Interleaved.step, found]
    | some tx =>
      simp only [Interleaved.step, found]
      cases ran : tx.exec s c.store (c.others n) with
      | waits => exact .inl rfl
      | goesOn tx' => exact .inl rfl
      | fails e => exact .inl rfl
      | commits a =>
        rcases exec_commits_cases ran with rfl | ⟨request, rfl⟩
        · exact .inl rfl
        · exact .inr ⟨n, request, a, rfl, found, rfl⟩

/-- **Ceremonies spend once.** In every run every time step of a seed and every recovery code grants
one committed ceremony, each time step by its code; a session counts as authenticated only by a proof
of the factor that is active; what is not committed changes nothing, and a committed confirmation or
removal leaves no session authenticated that was there before. -/
theorem ceremonies_spend_once (s : MfaSettings) (authentic : s.crypto.Authentic) {c : Ceremonies}
    (h : Reachable Unenrolled (CeremonySteps s) c) :
    c.store.spent.Nodup ∧
      (∀ enrolled counter code, .timeStep enrolled counter code ∈ c.store.history.grants →
        totpCode s.crypto enrolled.seed counter = code.toList) ∧
      (∀ row ∈ c.store.sessions.rows, ∀ now, Authenticated c.store row now →
        ∃ f ∈ c.store.factor, Backs c.store f row) ∧
      ∀ m, (Interleaved.step startCeremony (CeremonyTx.exec s) c m).store = c.store ∨
        ∃ n request result, m = .run n ∧ c.running[n]? = some (.staged request result) ∧
          (Interleaved.step startCeremony (CeremonyTx.exec s) c m).store = result ∧
          (request.EndsFactor → Cuts c.store result) := by
  have fits := Fits.reachable (ceremonyRule s authentic) (fun _ => fits_unenrolled) h
  obtain ⟨grants, sessions⟩ := fits.store
  refine ⟨grants.once, grants.proofs, fun row mem now live => ?_, fun m => ?_⟩
  · obtain ⟨f, owner, -, level, -⟩ := live
    obtain ⟨f', owner', -, backs⟩ := sessions row mem _ level
    obtain rfl : f = f' := Option.some.inj (owner.symm.trans owner')
    exact ⟨f, owner, backs rfl⟩
  · rcases step_store s c m with same | ⟨n, request, result, rfl, found, stored⟩
    · exact .inl same
    · have staged := fits.running _ (List.mem_of_getElem? found)
      exact .inr ⟨n, request, result, rfl, found, stored, staged.2.2⟩

/-! ## An account that enrolls, with the test vectors of the one-time code standard -/

def vectorCrypto : Crypto where
  encrypt _ _ data _ := data ++ List.replicate 16 0
  decrypt _ _ data _ := some (data.take (data.length - 16))
  hmacSha1 _ counter :=
    match counter with
    | 1 => [117, 164, 138, 25, 212, 203, 225, 0, 100, 78, 138, 193, 57, 126, 234, 116, 122, 45, 51, 171]
    | 2 => [11, 172, 183, 250, 8, 47, 239, 48, 120, 34, 17, 147, 139, 193, 197, 231, 4, 22, 255, 68]
    | _ => []
  hashToken := id

theorem vectorCrypto_authentic : vectorCrypto.Authentic := by
  intro key nonce data associated key' associated' data' h
  have same : (data ++ List.replicate 16 0).take ((data ++ List.replicate 16 0).length - 16) = data' :=
    Option.some.inj h
  simpa using same.symm

def vectorSettings : MfaSettings := ⟨vectorCrypto, "anna", "cloud", false⟩

/-- A request of a session at a time. -/
def vectorContext (sessionId newSessionId : Uuid) (now : Instant) : CeremonyContext where
  sessionId := sessionId
  keys := ⟨"k1", [("k1", List.replicate 32 7)]⟩
  resolvedAt := now
  now := now
  completedAt := now
  seed := ⟨"12345678901234567890".toList.map (fun c => c.toNat.toUInt8), by decide⟩
  nonce := ⟨List.replicate 12 0, by decide⟩
  pendingNonce := ⟨List.replicate 12 1, by decide⟩
  codes := []
  newSessionId := newSessionId

def enrollAndVerify : List CeremonyMove :=
  [.start (vectorContext "" "s1" (40 * second), .signIn "shuttlecock"), .run 0, .run 0, .run 0, .run 0,
    .start (vectorContext "s1" "" (41 * second), .enroll "shuttlecock"),
    .run 0, .run 0, .run 0, .run 0, .run 0,
    .start (vectorContext "s1" "s2" (45 * second), .confirm "287082"),
    .run 0, .run 0, .run 0, .run 0, .run 0,
    .start (vectorContext "s2" "s3" (75 * second), .verify "shuttlecock" "359152"),
    .run 0, .run 0, .run 0, .run 0]

def annasAuthenticators : Ceremonies where
  store := { passwordHash := some ⟨"shuttlecock", 0, 1⟩ }
  running := []

theorem ceremonies_spend_once_vectors :
    (after startCeremony (CeremonyTx.exec vectorSettings) annasAuthenticators
        enrollAndVerify).store.spent = [.timeStep 1 2, .timeStep 1 1] ∧
      (∃ row ∈ (after startCeremony (CeremonyTx.exec vectorSettings) annasAuthenticators
        enrollAndVerify).store.sessions.rows, row.id = "s3" ∧
          Authenticated (after startCeremony (CeremonyTx.exec vectorSettings) annasAuthenticators
            enrollAndVerify).store row (76 * second)) ∧
      (after startCeremony (CeremonyTx.exec vectorSettings) annasAuthenticators
        enrollAndVerify).store.spent.Nodup := by
  refine ⟨by decide, by decide, (ceremonies_spend_once vectorSettings vectorCrypto_authentic ?_).1⟩
  exact Along.reachable (.init (by decide)) (by decide)

end Identity
