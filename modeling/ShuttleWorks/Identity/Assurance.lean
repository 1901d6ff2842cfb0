import ShuttleWorks.Identity.Ceremonies

/-! What the rows say of the ceremonies so far: which time steps and codes are spent, whose seed is
sealed in a factor and which factor a session has proved; and how each helper keeps it. -/

namespace Identity
open Lib Sync

variable {s : MfaSettings} {x : CeremonyContext} {a a' : Authenticators} {f f' : Factor}
  {secret : Bytes} {nonce : Drawn 12} {code : String} {counter : Nat}

def Authenticators.spent (a : Authenticators) : List Spent := a.history.grants.map Grant.spent

def Seals (s : MfaSettings) (envelope seed : Bytes) : Prop :=
  ∀ key scope seed', decryptFactor s.crypto envelope key s.userId scope = .ok seed' → seed' = seed

structure Factor.Sound (s : MfaSettings) (a : Authenticators) (f : Factor) : Prop where
  known : f.status = .active → f.enrolled.number ≤ a.history.enrollments
  sealed : f.status = .active → ∀ envelope ∈ f.secretCiphertext, Seals s envelope f.enrolled.seed
  spent : f.status = .active → ∀ k : Nat, .timeStep f.enrolled.number k ∈ a.spent →
    (k : Int) ≤ f.lastCounter
  pendingKnown : f.pendingCiphertext.isSome → f.pendingEnrolled.number ≤ a.history.enrollments
  pendingNew : f.pendingCiphertext.isSome → f.status = .active →
    f.pendingEnrolled.number ≠ f.enrolled.number
  pendingUnspent : f.pendingCiphertext.isSome → ∀ k, .timeStep f.pendingEnrolled.number k ∉ a.spent
  pendingSealed : ∀ envelope ∈ f.pendingCiphertext, Seals s envelope f.pendingEnrolled.seed

/-- Nothing is spent twice, the codes left are the active factor's and unspent, and every spent time
step was proved with the code of that step. -/
structure GrantsSound (s : MfaSettings) (a : Authenticators) : Prop where
  once : a.spent.Nodup
  steps : ∀ e k, .timeStep e k ∈ a.spent → e ≤ a.history.enrollments
  issued : ∀ n, .recoveryCode n ∈ a.spent → n < a.history.issued
  unspent : ∀ row ∈ a.codes.rows, row.number < a.history.issued ∧ .recoveryCode row.number ∉ a.spent
  owned : ∀ row ∈ a.codes.rows, ∃ f ∈ a.factor, f.status = .active ∧
    f.enrolled.number = row.enrollment
  numbers : (a.codes.rows.map RecoveryCode.number).Nodup
  factor : ∀ f ∈ a.factor, f.Sound s a
  proofs : ∀ enrolled counter code, .timeStep enrolled counter code ∈ a.history.grants →
    totpCode s.crypto enrolled.seed counter = code.toList

/-- A committed ceremony with this factor authenticated the session. -/
def Backs (a : Authenticators) (f : Factor) (row : OperatorSession) : Prop :=
  f.status = .active ∧ ∃ granted ∈ a.history.grants, row.proved = some granted ∧
    granted.enrollment = f.enrolled.number

/-- No session is ahead of the factor's generation, and one that is level with it has proved it. -/
def SessionsSound (a : Authenticators) : Prop :=
  ∀ row ∈ a.sessions.rows, ∀ g ∈ row.mfaGeneration, ∃ f ∈ a.factor, g ≤ f.generation ∧
    (g = f.generation → Backs a f row)

/-! ## Sealing and the code of a time step -/

theorem seals_of_encryptFactor (authentic : s.crypto.Authentic) {key envelope : Bytes}
    {scope : String} (h : encryptFactor s.crypto secret key nonce s.userId scope = .ok envelope) :
    Seals s envelope secret := by
  intro key' scope' seed' opened
  unfold encryptFactor at h
  split at h
  · cases h
  · obtain ⟨associated, -, h⟩ := bind_eq_ok.mp h
    cases h
    unfold decryptFactor at opened
    split at opened
    · cases opened
    · obtain ⟨associated', -, opened⟩ := bind_eq_ok.mp opened
      have split : (List.drop 1 (1 :: (nonce.val ++ s.crypto.encrypt key nonce.val secret
          associated))).take 12 = nonce.val := by
        rw [List.drop_one, List.tail_cons, List.take_left' nonce.property]
      have rest : List.drop 13 (1 :: (nonce.val ++ s.crypto.encrypt key nonce.val secret
          associated)) = s.crypto.encrypt key nonce.val secret associated := by
        rw [List.drop_succ_cons, List.drop_left' nonce.property]
      rw [split, rest] at opened
      split at opened
      · cases opened
      · next found =>
        cases opened
        exact authentic _ _ _ _ _ _ _ found

theorem seals_sealActive (authentic : s.crypto.Authentic) {envelope : Bytes}
    (h : sealActive s x secret nonce = .ok envelope) :
    Seals s envelope secret := by
  obtain ⟨key, -, h⟩ := bind_eq_ok.mp h
  exact seals_of_encryptFactor authentic h

theorem matchingCounter_eq_some {c : Crypto} {now : Instant} {after : Int}
    (h : matchingCounter c secret code now after = .ok (some counter)) :
    after < counter ∧ totpCode c secret counter = code.toList := by
  unfold matchingCounter at h
  split at h
  · obtain ⟨k, -, h⟩ := bind_eq_ok.mp h
    split at h
    · cases h
    · next new =>
      split at h
      · cases h
      · split at h
        · next same =>
          cases h
          exact ⟨by omega, same⟩
        · cases h
  · cases h

/-! ## The factor's graph -/

theorem audit_eq_ok {event : String} {now : Instant} (h : audit f event now = .ok f') :
    ∃ edge ∈ operatorMfaFactor.edges, f.status ∈ edge.fromStates ∧ edge.event = event ∧
      f' = { f with updatedAt := now, status := edge.target } := by
  unfold audit at h
  split at h
  · cases h
  · next edge checked =>
    cases h
    obtain ⟨-, mem, source, same, -, -⟩ := StateMachine.check_eq_ok checked
    exact ⟨edge, mem, source, same, rfl⟩

theorem audit_stays {event : String} {now : Instant} (h : audit f event now = .ok f')
    (stays : event ∈ ["begin", "authenticate", "recover", "reissue_recovery_codes"]) :
    f' = { f with updatedAt := now } := by
  obtain ⟨edge, mem, source, rfl, rfl⟩ := audit_eq_ok h
  have target : ∀ edge ∈ operatorMfaFactor.edges, ∀ status ∈ edge.fromStates,
      edge.event ∈ ["begin", "authenticate", "recover", "reissue_recovery_codes"] →
      edge.target = status := by decide
  rw [target edge mem f.status source stays]

theorem audit_activate {now : Instant} (h : audit f "activate" now = .ok f') :
    f' = { f with updatedAt := now, status := .active } := by
  obtain ⟨edge, mem, -, event, rfl⟩ := audit_eq_ok h
  have target : ∀ edge ∈ operatorMfaFactor.edges, edge.event = "activate" →
      edge.target = .active := by decide
  rw [target edge mem event]

theorem audit_disable {now : Instant} (h : audit f "disable" now = .ok f') :
    f' = { f with updatedAt := now, status := .unconfigured } := by
  obtain ⟨edge, mem, -, event, rfl⟩ := audit_eq_ok h
  have target : ∀ edge ∈ operatorMfaFactor.edges, edge.event = "disable" →
      edge.target = .unconfigured := by decide
  rw [target edge mem event]

/-! ## Recovery codes -/

/-- What a replacement of the codes leaves: new codes, numbered from where the count stood. -/
structure Replaced (a a' : Authenticators) (enrollment : Nat) : Prop where
  factor : a'.factor = a.factor
  sessions : a'.sessions = a.sessions
  grants : a'.history.grants = a.history.grants
  enrollments : a'.history.enrollments = a.history.enrollments
  issued : a.history.issued ≤ a'.history.issued
  rows : ∀ row ∈ a'.codes.rows, a.history.issued ≤ row.number ∧ row.number < a'.history.issued ∧
    row.enrollment = enrollment
  numbers : (a'.codes.rows.map RecoveryCode.number).Nodup

theorem addRecoveryCode_replaced {b b' : Authenticators} {enrollment : Nat} {now : Instant}
    {digest : String} (h : Replaced a b enrollment)
    (added : Authenticators.addRecoveryCode now enrollment b digest = .ok b') :
    Replaced a b' enrollment := by
  unfold Authenticators.addRecoveryCode at added
  split at added
  · cases added
  · next codes inserted =>
    cases added
    have rows := (Table.insert_eq_some.mp inserted).2
    refine ⟨h.factor, h.sessions, h.grants, h.enrollments, Nat.le_succ_of_le h.issued, ?_, ?_⟩
    · intro row mem
      rw [rows, List.mem_append, List.mem_singleton] at mem
      rcases mem with mem | rfl
      · obtain ⟨low, high, same⟩ := h.rows row mem
        exact ⟨low, Nat.lt_succ_of_lt high, same⟩
      · exact ⟨h.issued, Nat.lt_succ_self _, rfl⟩
    · rw [rows, List.map_append, List.nodup_append]
      refine ⟨h.numbers, by simp, ?_⟩
      intro n mem n' mem' same
      obtain ⟨row, found, rfl⟩ := List.mem_map.mp mem
      simp only [List.map_cons, List.map_nil, List.mem_singleton] at mem'
      have := (h.rows row found).2.1
      omega

theorem replaceRecoveryCodes_replaced {digests : List String} {enrollment : Nat} {now : Instant}
    (h : a.replaceRecoveryCodes digests enrollment now = .ok a') : Replaced a a' enrollment := by
  refine foldlM_keeps (I := fun b => Replaced a b enrollment) ?_ ?_ h
  · intro b digest b' kept added
    exact addRecoveryCode_replaced kept added
  · exact ⟨rfl, rfl, rfl, rfl, Nat.le_refl _, fun row mem => absurd mem List.not_mem_nil,
      List.nodup_nil⟩

theorem replaceRecoveryCodes_nil {enrollment : Nat} {now : Instant}
    (h : a.replaceRecoveryCodes [] enrollment now = .ok a') : a' = { a with codes := .empty } := by
  cases h
  rfl

theorem GrantsSound.replaced (h : GrantsSound s (a.setFactor f)) (active : f.status = .active)
    (r : Replaced a a' f.enrolled.number) : GrantsSound s (a'.setFactor f) := by
  have same : (a'.setFactor f).spent = (a.setFactor f).spent := by
    simp [Authenticators.spent, Authenticators.setFactor, r.grants]
  have sound := h.factor f rfl
  refine ⟨?_, ?_, ?_, ?_, ?_, r.numbers, ?_, ?_⟩
  · rw [same]
    exact h.once
  · intro e k mem
    rw [same] at mem
    show e ≤ a'.history.enrollments
    rw [r.enrollments]
    exact h.steps e k mem
  · intro n mem
    rw [same] at mem
    exact Nat.lt_of_lt_of_le (h.issued n mem) r.issued
  · intro row mem
    obtain ⟨low, high, -⟩ := r.rows row mem
    refine ⟨high, fun used => ?_⟩
    rw [same] at used
    exact Nat.lt_irrefl _ (Nat.lt_of_lt_of_le (h.issued _ used) low)
  · intro row mem
    exact ⟨f, rfl, active, (r.rows row mem).2.2.symm⟩
  · intro f' owned
    obtain rfl : f = f' := by simpa [Authenticators.setFactor] using owned
    refine ⟨?_, sound.sealed, ?_, ?_, sound.pendingNew, ?_, sound.pendingSealed⟩
    · intro active
      show _ ≤ a'.history.enrollments
      rw [r.enrollments]
      exact sound.known active
    · rw [same]
      exact sound.spent
    · intro pending
      show _ ≤ a'.history.enrollments
      rw [r.enrollments]
      exact sound.pendingKnown pending
    · rw [same]
      exact sound.pendingUnspent
  · intro enrolled counter code mem
    refine h.proofs enrolled counter code ?_
    show _ ∈ a.history.grants
    rw [← r.grants]
    exact mem

/-! ## Grants -/

theorem GrantsSound.touch (h : GrantsSound s (a.setFactor f)) (now : Instant)
    (revision : Nat) : GrantsSound s (a.setFactor { f with updatedAt := now, revision := revision }) := by
  have sound := h.factor f rfl
  refine ⟨h.once, h.steps, h.issued, h.unspent, ?_, h.numbers, ?_, h.proofs⟩
  · intro row mem
    obtain ⟨f', same, active, owner⟩ := h.owned row mem
    obtain rfl : f = f' := by simpa [Authenticators.setFactor] using same
    exact ⟨_, rfl, active, owner⟩
  · intro f' same
    obtain rfl := Option.some.inj same
    exact ⟨sound.known, sound.sealed, sound.spent, sound.pendingKnown, sound.pendingNew,
      sound.pendingUnspent, sound.pendingSealed⟩

theorem Factor.Sound.of_unconfigured (status : f.status = .unconfigured)
    (pending : f.pendingCiphertext = none) : f.Sound s a := by
  refine ⟨?_, ?_, ?_, ?_, ?_, ?_, ?_⟩ <;> simp [status, pending]

theorem setFactor_self (h : a.factor = some f) : a.setFactor f = a := by
  unfold Authenticators.setFactor
  rw [← h]

theorem GrantsSound.reserve (h : GrantsSound s a) (now : Instant) (create : Bool) :
    GrantsSound s (a.reserve now create) := by
  unfold Authenticators.reserve
  split
  · next missing =>
    split
    · refine ⟨h.once, h.steps, h.issued, h.unspent, ?_, h.numbers, ?_, h.proofs⟩
      · intro row mem
        obtain ⟨f, found, -⟩ := h.owned row mem
        rw [missing] at found
        cases found
      · intro f same
        obtain rfl := Option.some.inj same
        exact .of_unconfigured rfl rfl
    · exact h
  · next f found =>
    have h : GrantsSound s (a.setFactor f) := by rwa [setFactor_self found]
    exact h.touch f.updatedAt (f.revision + 1)

theorem GrantsSound.grantCode (h : GrantsSound s a) {row : RecoveryCode} (mem : row ∈ a.codes.rows) :
    GrantsSound s (({ a with codes := a.codes.erase row.tokenHash } : Authenticators).grant
      (.recoveryCode row.enrollment row.number)) := by
  obtain ⟨low, unspent⟩ := h.unspent row mem
  have left : ∀ other ∈ (a.codes.erase row.tokenHash).rows, other ∈ a.codes.rows ∧
      other.number ≠ row.number := by
    intro other kept
    obtain ⟨kept, ne⟩ := List.mem_filter.mp kept
    refine ⟨kept, fun same => ?_⟩
    rw [List.inj_on_of_nodup_map h.numbers kept mem same] at ne
    simp at ne
  refine ⟨List.nodup_cons.mpr ⟨unspent, h.once⟩, ?_, ?_, ?_, ?_, ?_, ?_, ?_⟩
  · intro e k spent
    rcases List.mem_cons.mp spent with same | spent
    · cases same
    · exact h.steps e k spent
  · intro n spent
    rcases List.mem_cons.mp spent with same | spent
    · cases same
      exact low
    · exact h.issued n spent
  · intro other kept
    obtain ⟨kept, ne⟩ := left other kept
    obtain ⟨low, unspent⟩ := h.unspent other kept
    refine ⟨low, fun spent => ?_⟩
    rcases List.mem_cons.mp spent with same | spent
    · exact ne (Spent.recoveryCode.inj same)
    · exact unspent spent
  · intro other kept
    exact h.owned other (left other kept).1
  · exact (List.filter_sublist.map RecoveryCode.number).nodup h.numbers
  · intro f owner
    have sound := h.factor f owner
    refine ⟨sound.known, sound.sealed, ?_, sound.pendingKnown, sound.pendingNew, ?_,
      sound.pendingSealed⟩
    · intro active k spent
      rcases List.mem_cons.mp spent with same | spent
      · cases same
      · exact sound.spent active k spent
    · intro pending k spent
      rcases List.mem_cons.mp spent with same | spent
      · cases same
      · exact sound.pendingUnspent pending k spent
  · intro enrolled counter code granted
    rcases List.mem_cons.mp granted with same | granted
    · cases same
    · exact h.proofs enrolled counter code granted

theorem GrantsSound.grantStep (h : GrantsSound s (a.setFactor f)) (active : f.status = .active)
    (new : f.lastCounter < counter)
    (proof : totpCode s.crypto f.enrolled.seed counter = code.toList) :
    GrantsSound s ((a.grant (.timeStep f.enrolled counter code)).setFactor
      { f with lastCounter := counter }) := by
  have sound := h.factor f rfl
  refine ⟨List.nodup_cons.mpr ⟨fun spent => ?_, h.once⟩, ?_, ?_, ?_, ?_, h.numbers, ?_, ?_⟩
  · have := sound.spent active counter spent
    omega
  · intro e k spent
    rcases List.mem_cons.mp spent with same | spent
    · cases same
      exact sound.known active
    · exact h.steps e k spent
  · intro n spent
    rcases List.mem_cons.mp spent with same | spent
    · cases same
    · exact h.issued n spent
  · intro row mem
    obtain ⟨low, unspent⟩ := h.unspent row mem
    refine ⟨low, fun spent => ?_⟩
    rcases List.mem_cons.mp spent with same | spent
    · cases same
    · exact unspent spent
  · intro row mem
    obtain ⟨f', same, active, owner⟩ := h.owned row mem
    obtain rfl := Option.some.inj same
    exact ⟨_, rfl, active, owner⟩
  · intro f' same
    obtain rfl := Option.some.inj same
    refine ⟨sound.known, sound.sealed, ?_, sound.pendingKnown, sound.pendingNew, ?_,
      sound.pendingSealed⟩
    · intro active k spent
      rcases List.mem_cons.mp spent with same | spent
      · cases same
        exact Int.le_refl _
      · have := sound.spent active k spent
        show (k : Int) ≤ counter
        omega
    · intro pending k spent
      rcases List.mem_cons.mp spent with same | spent
      · exact sound.pendingNew pending active (Spent.timeStep.inj same).1
      · exact sound.pendingUnspent pending k spent
  · intro enrolled k other granted
    rcases List.mem_cons.mp granted with same | granted
    · cases same
      exact proof
    · exact h.proofs enrolled k other granted

theorem GrantsSound.reseal (h : GrantsSound s (a.setFactor f)) {envelope : Bytes}
    (seals : f.status = .active → Seals s envelope f.enrolled.seed) (keyId : Option String) :
    GrantsSound s (a.setFactor { f with secretCiphertext := some envelope, keyId := keyId }) := by
  have sound := h.factor f rfl
  refine ⟨h.once, h.steps, h.issued, h.unspent, ?_, h.numbers, ?_, h.proofs⟩
  · intro row mem
    obtain ⟨f', same, active, owner⟩ := h.owned row mem
    obtain rfl := Option.some.inj same
    exact ⟨_, rfl, active, owner⟩
  · intro f' same
    obtain rfl := Option.some.inj same
    refine ⟨sound.known, fun active envelope' found => ?_, sound.spent, sound.pendingKnown,
      sound.pendingNew, sound.pendingUnspent, sound.pendingSealed⟩
    obtain rfl := Option.some.inj found
    exact seals active

theorem GrantsSound.resealPending (h : GrantsSound s (a.setFactor f)) {old envelope : Bytes}
    (pending : f.pendingCiphertext = some old) (seals : Seals s envelope f.pendingEnrolled.seed)
    (keyId : Option String) : GrantsSound s (a.setFactor
      { f with pendingCiphertext := some envelope, pendingKeyId := keyId }) := by
  have sound := h.factor f rfl
  have pending : f.pendingCiphertext.isSome := by simp [pending]
  refine ⟨h.once, h.steps, h.issued, h.unspent, ?_, h.numbers, ?_, h.proofs⟩
  · intro row mem
    obtain ⟨f', same, active, owner⟩ := h.owned row mem
    obtain rfl := Option.some.inj same
    exact ⟨_, rfl, active, owner⟩
  · intro f' same
    obtain rfl := Option.some.inj same
    refine ⟨sound.known, sound.sealed, sound.spent, fun _ => sound.pendingKnown pending,
      fun _ => sound.pendingNew pending, fun _ => sound.pendingUnspent pending, ?_⟩
    intro envelope' found
    obtain rfl := Option.some.inj found
    exact seals

theorem GrantsSound.begin (h : GrantsSound s (a.setFactor f)) {pending seed : Bytes}
    (seals : Seals s pending seed) (keyId : String) (expiresAt : Instant) (sessionId : Uuid)
    (now : Instant) :
    GrantsSound s { a.setFactor { f with
      pendingCiphertext := some pending
      pendingKeyId := some keyId
      pendingExpiresAt := some expiresAt
      pendingSessionId := some sessionId
      pendingEnrolled := ⟨a.history.enrollments + 1, seed⟩
      updatedAt := now } with
      history := { a.history with enrollments := a.history.enrollments + 1 } } := by
  have sound := h.factor f rfl
  refine ⟨h.once, ?_, h.issued, h.unspent, ?_, h.numbers, ?_, h.proofs⟩
  · intro e k spent
    exact Nat.le_succ_of_le (h.steps e k spent)
  · intro row mem
    obtain ⟨f', same, active, owner⟩ := h.owned row mem
    obtain rfl := Option.some.inj same
    exact ⟨_, rfl, active, owner⟩
  · intro f' same
    obtain rfl := Option.some.inj same
    refine ⟨fun active => Nat.le_succ_of_le (sound.known active), sound.sealed, sound.spent,
      fun _ => Nat.le_refl _, fun _ active same => ?_, fun _ k spent => ?_, ?_⟩
    · have known : f.enrolled.number ≤ a.history.enrollments := sound.known active
      change a.history.enrollments + 1 = f.enrolled.number at same
      omega
    · have known : a.history.enrollments + 1 ≤ a.history.enrollments := h.steps _ k spent
      omega
    · intro envelope found
      obtain rfl := Option.some.inj found
      exact seals

theorem GrantsSound.enroll (h : GrantsSound s (a.setFactor f))
    (pending : f.pendingCiphertext.isSome) (seals : Seals s secret f.pendingEnrolled.seed)
    (proof : totpCode s.crypto f.pendingEnrolled.seed counter = code.toList) (keyId : String)
    (now : Instant) :
    GrantsSound s (({ a.grant (.timeStep f.pendingEnrolled counter code) with
      codes := .empty } : Authenticators).setFactor
        { f.enroll secret keyId counter with updatedAt := now, status := .active }) := by
  have sound := h.factor f rfl
  refine ⟨List.nodup_cons.mpr ⟨sound.pendingUnspent pending counter, h.once⟩, ?_, ?_, ?_, ?_,
    List.nodup_nil, ?_, ?_⟩
  · intro e k spent
    rcases List.mem_cons.mp spent with same | spent
    · cases same
      exact sound.pendingKnown pending
    · exact h.steps e k spent
  · intro n spent
    rcases List.mem_cons.mp spent with same | spent
    · cases same
    · exact h.issued n spent
  · exact fun row mem => absurd mem List.not_mem_nil
  · exact fun row mem => absurd mem List.not_mem_nil
  · intro f' same
    obtain rfl := Option.some.inj same
    refine ⟨fun _ => sound.pendingKnown pending, fun _ envelope found => ?_, fun _ k spent => ?_,
      ?_, ?_, ?_, ?_⟩
    · obtain rfl := Option.some.inj found
      exact seals
    · rcases List.mem_cons.mp spent with same | spent
      · cases same
        exact Int.le_refl _
      · exact absurd spent (sound.pendingUnspent pending k)
    · intro left
      cases left
    · intro left
      cases left
    · intro left
      cases left
    · intro envelope left
      cases left
  · intro enrolled k other granted
    rcases List.mem_cons.mp granted with same | granted
    · cases same
      exact proof
    · exact h.proofs enrolled k other granted

theorem GrantsSound.disable (h : GrantsSound s (a.setFactor f)) (now : Instant) :
    GrantsSound s (({ a with codes := .empty } : Authenticators).setFactor
      { f.disable with updatedAt := now, status := .unconfigured }) := by
  refine ⟨h.once, h.steps, h.issued, ?_, ?_, List.nodup_nil, ?_, h.proofs⟩
  · exact fun row mem => absurd mem List.not_mem_nil
  · exact fun row mem => absurd mem List.not_mem_nil
  · intro f' same
    obtain rfl := Option.some.inj same
    exact .of_unconfigured rfl rfl

theorem prove_sound (h : GrantsSound s (a.setFactor f)) (active : f.status = .active)
    (authentic : s.crypto.Authentic) {event : String} {allow : Bool} {granted : Grant}
    (proved : prove s x (a.setFactor f) f code allow = .ok (a', f', event, granted)) :
    GrantsSound s (a'.setFactor f') ∧ a'.sessions = a.sessions ∧
      a'.history.grants = granted :: a.history.grants ∧ granted.enrollment = f.enrolled.number ∧
      f'.status = f.status ∧ f'.generation = f.generation ∧ f'.enrolled = f.enrolled ∧
      event ∈ ["authenticate", "recover"] := by
  have sound := h.factor f rfl
  unfold prove at proved
  split at proved
  · split at proved
    · cases proved
    · split at proved
      · cases proved
      · next row found =>
        cases proved
        have mem := Table.mem_of_get found
        obtain ⟨f', same, -, owner⟩ := h.owned row mem
        obtain rfl := Option.some.inj same
        exact ⟨h.grantCode mem, rfl, rfl, owner.symm, rfl, rfl, rfl, by simp⟩
  · split at proved
    · cases proved
    · next envelope stored =>
      simp only [bind_eq_ok] at proved
      obtain ⟨key, -, seed, opened, matched, found, proved⟩ := proved
      split at proved
      · cases proved
      · next counter =>
        obtain ⟨new, proof⟩ := matchingCounter_eq_some found
        obtain rfl := sound.sealed active envelope stored key s.scope seed opened
        have granted := h.grantStep active new proof
        split at proved
        · cases proved
          exact ⟨granted, rfl, rfl, rfl, rfl, rfl, rfl, by simp⟩
        · obtain ⟨secret, resealed, proved⟩ := bind_eq_ok.mp proved
          cases proved
          exact ⟨granted.reseal (fun _ => seals_sealActive authentic resealed) _, rfl, rfl, rfl,
            rfl, rfl, rfl, by simp⟩

end Identity
