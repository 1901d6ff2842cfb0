import ShuttleWorks.Sync.Ledger

/-! What holds in every state of the cloud: a tournament has one writer at a
time, and the ledger of every epoch is contiguous and receipted. -/

namespace Sync
open Lib

/-! ## The effect of an accepted batch -/

/-- `s` with the cursor of an epoch moved. -/
def withCursor (s : Store) (t : Uuid) (e highest : Nat) : Store :=
  { s with checkpoints := s.checkpoints.put ⟨t, e, highest⟩ }

/-- An accepted batch appends its new operations and moves its cursor past them. -/
structure Effect (s : Store) (t : Uuid) (batch : SyncBatchRequest) (a : TournamentAuthority)
    (news : List OperationEnvelope) (s' : Store) (r : SyncBatchResponse) : Prop where
  authority : s.authorities.get (t, batch.authorityEpoch) = some a
  active : a.state = .active
  node : a.nodeId = batch.nodeId
  cursor : s.checkpoints.Has (t, batch.authorityEpoch)
  validated : Validated s a t batch (cloudCursor s t batch.authorityEpoch + 1) batch.operations
    news r.duplicates
  appended : Appended (withCursor s t batch.authorityEpoch
    (cloudCursor s t batch.authorityEpoch + news.length)) (news.map (.ofEnvelope t)) s'
  accepted : r.accepted = news.length
  highest : r.highestContiguousSequence = cloudCursor s t batch.authorityEpoch + news.length

variable {s s' : Store} {t : Uuid} {capability : String} {a : TournamentAuthority}
  {news : List OperationEnvelope} {r : SyncBatchResponse} {o : OperationEnvelope} {n current : Nat}

theorem Accepts.effect {env : Env} {batch : SyncBatchRequest}
    (h : Accepts env s t capability batch a news s' r) :
    Effect s t batch a news s' r := by
  obtain ⟨checkpoint, duplicates, x, s', authority, active, admitted, validated, applied,
    committed⟩ := h
  obtain ⟨node, cursor, current⟩ := admitBatch_eq_ok admitted
  obtain ⟨y, flushed, rfl⟩ := commitBatch_eq_ok committed
  obtain ⟨store, added⟩ := applyOperations_collects applied
  have all := flush_appended flushed
  rw [store, added, List.nil_append] at all
  rw [← current] at validated
  refine ⟨authority, active, node, ?_, validateOperations_eq_ok validated, ?_, rfl,
    by rw [current]⟩
  · exact Table.has_iff.mpr ⟨checkpoint, Table.mem_of_get cursor, Table.key_of_get cursor⟩
  · refine ⟨all.operations, all.inbox, ?_⟩
    rw [current, all.rest, withCursor]

theorem Effect.cloudCursor_eq {batch : SyncBatchRequest} (h : Effect s t batch a news s' r)
    (t' : Uuid) (e' : Nat) :
    cloudCursor s' t' e' = cloudCursor s t' e' +
      if (t, batch.authorityEpoch) = (t', e') then news.length else 0 := by
  have checkpoints := h.appended.checkpoints
  simp only [withCursor] at checkpoints
  rw [cloudCursor, checkpoints, Table.get_put]
  by_cases hk : (t, batch.authorityEpoch) = (t', e')
  · simp only [Prod.mk.injEq] at hk
    simp [SyncCheckpoint.key, hk]
  · simp only [SyncCheckpoint.key, hk, ↓reduceIte, Nat.add_zero]
    rfl

theorem Effect.authorities_eq {batch : SyncBatchRequest} (h : Effect s t batch a news s' r) :
    s'.authorities = s.authorities :=
  h.appended.authorities

theorem Effect.mem_rows {batch : SyncBatchRequest} (h : Effect s t batch a news s' r)
    {o : EventOperation} (ho : o ∈ news.map (EventOperation.ofEnvelope t)) :
    o.epochKey = (t, batch.authorityEpoch) ∧ o.nodeId = a.nodeId ∧
      o.commandType ∈ a.allowedCommandClasses.getD [] ∧ supportsOperationSchema o.schemaVersion := by
  obtain ⟨op, hop, rfl⟩ := List.mem_map.mp ho
  obtain ⟨-, hn, he⟩ := h.validated.inScope op hop
  refine ⟨?_, ?_, h.validated.granted op hop, h.validated.supported op hop⟩
  · simp [EventOperation.epochKey, EventOperation.ofEnvelope, he]
  · simp [EventOperation.ofEnvelope, hn, h.node]

theorem ingestBatch_quarantine {env : Env} {batch : SyncBatchRequest} {q : SyncQuarantine}
    (hq : q ∈ (ingestBatch env s t capability batch).1.quarantine) :
    q ∈ s.quarantine ∨ Explained s t batch q := by
  unfold ingestBatch at hq
  generalize h : ingestOnce env s t capability batch = p at hq
  cases h ▸ ingestOnce_outcome env s t capability batch with
  | refused rows e he explained =>
    simp only [he, Bool.false_eq_true, ↓reduceIte, List.mem_append] at hq
    exact hq.imp_right (explained q)
  | conflicted e he =>
    simp only [h, he, ↓reduceIte] at hq
    exact Or.inl hq
  | accepted a news s' r hr =>
    have quarantine : s'.quarantine = s.quarantine := by
      rw [hr.effect.appended.rest]
      rfl
    exact Or.inl (quarantine ▸ hq)

/-! ## The invariant -/

def acceptedOf (s : Store) (t : Uuid) (e : Nat) : List EventOperation :=
  s.operations.rows.filter (fun o => o.epochKey = (t, e))

theorem Effect.acceptedOf_eq {batch : SyncBatchRequest} (h : Effect s t batch a news s' r)
    (t' : Uuid) (e' : Nat) :
    acceptedOf s' t' e' = acceptedOf s t' e' ++
      if (t, batch.authorityEpoch) = (t', e') then news.map (.ofEnvelope t) else [] := by
  have operations : s'.operations.rows = s.operations.rows ++ news.map (.ofEnvelope t) :=
    h.appended.operations
  have new : ∀ o ∈ news.map (EventOperation.ofEnvelope t),
      o.epochKey = (t, batch.authorityEpoch) := fun o ho => (h.mem_rows ho).1
  rw [acceptedOf, operations, List.filter_append, ← acceptedOf]
  congr 1
  split
  · next hk => exact List.filter_eq_self.mpr fun o ho => by simp [new o ho, hk]
  · next hk => exact List.filter_eq_nil_iff.mpr fun o ho => by simp only [new o ho, hk]; simp

structure Sound (s : Store) : Prop where
  oneLive : OneLive s
  increasing : Increasing s
  cursorsKnown : CursorsKnown s
  receipts : s.inbox.rows = s.operations.rows.map EventOperation.inboxRow
  contiguous : ∀ t e,
    (acceptedOf s t e).map EventOperation.sequence = List.range' 1 (cloudCursor s t e)
  granted : ∀ o ∈ s.operations.rows, Grants s o

theorem Store.Fresh.sound (h : s.Fresh) : Sound s where
  oneLive := by simp [OneLive, h.authorities]
  increasing := by simp [Increasing, epochsOf, h.authorities]
  cursorsKnown := by simp [CursorsKnown, h.checkpoints]
  receipts := by simp [h.inbox, h.operations]
  contiguous t e := by
    simp [acceptedOf, h.operations, cloudCursor, Table.get, h.checkpoints]
  granted := by simp [h.operations]

theorem Sound.move (hs : Sound s) (h : EpochMove s s') : Sound s' := by
  have kept := h.kept
  refine ⟨h.oneLive hs.oneLive, h.increasing hs.increasing, h.cursorsKnown hs.cursorsKnown, ?_, ?_,
    ?_⟩
  · rw [kept.inbox, kept.operations, hs.receipts]
  · intro t e
    rw [h.cloudCursor_eq hs.cursorsKnown, acceptedOf, kept.operations]
    exact hs.contiguous t e
  · intro o ho
    rw [kept.operations] at ho
    exact h.grants (hs.granted o ho)

theorem Sound.moves (hs : Sound s) (h : EpochMoves s s') : Sound s' := by
  induction h with
  | refl => exact hs
  | tail _ h ih => exact ih.move h

theorem Sound.effect {batch : SyncBatchRequest} (hs : Sound s) (h : Effect s t batch a news s' r) :
    Sound s' := by
  have operations : s'.operations.rows = s.operations.rows ++ news.map (.ofEnvelope t) :=
    h.appended.operations
  have inbox : s'.inbox.rows =
      s.inbox.rows ++ (news.map (.ofEnvelope t)).map EventOperation.inboxRow := h.appended.inbox
  refine ⟨?_, ?_, ?_, ?_, ?_, ?_⟩
  · rw [OneLive, h.authorities_eq]
    exact hs.oneLive
  · intro t'
    rw [epochsOf, h.authorities_eq]
    exact hs.increasing t'
  · intro c hc
    rw [h.authorities_eq]
    rw [h.appended.checkpoints, withCursor, Table.mem_put] at hc
    rcases hc with rfl | ⟨hc, -⟩
    · obtain ⟨d, hd, hk⟩ := Table.has_iff.mp h.cursor
      have := hs.cursorsKnown d hd
      rwa [hk] at this
    · exact hs.cursorsKnown c hc
  · rw [inbox, operations, hs.receipts, List.map_append]
  · intro t' e'
    rw [h.cloudCursor_eq, h.acceptedOf_eq, List.map_append, hs.contiguous]
    split
    · next hk =>
      simp only [Prod.mk.injEq] at hk
      obtain ⟨rfl, rfl⟩ := hk
      have sequences := h.validated.sequences
      rw [List.map_map, show EventOperation.sequence ∘ EventOperation.ofEnvelope t =
        OperationEnvelope.sequence from rfl, sequences, Nat.add_comm _ 1, List.range'_append_1]
    · simp
  · intro o ho
    rw [operations, List.mem_append] at ho
    rw [Grants, h.authorities_eq]
    rcases ho with ho | ho
    · exact hs.granted o ho
    · obtain ⟨hk, hn, hc, hv⟩ := h.mem_rows ho
      exact ⟨a, Table.mem_of_get h.authority, (Table.key_of_get h.authority).trans hk.symm, hn.symm,
        hc, hv⟩

theorem Sound.quarantined (hs : Sound s) (q : List SyncQuarantine) :
    Sound { s with quarantine := q } :=
  ⟨hs.oneLive, hs.increasing, hs.cursorsKnown, hs.receipts, hs.contiguous, hs.granted⟩

/-- **One request.** Serving any request keeps the invariant. -/
theorem Sound.serve {env : Env} (hs : Sound s) (r : Request) :
    Sound (serve env s r) := by
  by_cases hr : ∃ t capability batch, r = .upload t capability batch
  · obtain ⟨t, capability, batch, rfl⟩ := hr
    simp only [Sync.serve]
    rcases ingestBatch_cases env s t capability batch with ⟨q, e, h⟩ | ⟨a, news, s', r, h, acc⟩
    · rw [h]
      exact hs.quarantined _
    · rw [h]
      exact hs.effect acc.effect
  · push Not at hr
    exact hs.moves (serve_moves env s r hr)

theorem CloudReachable.sound {env : Env} (h : CloudReachable env s) : Sound s :=
  h.invariant (fun _ => Store.Fresh.sound) (fun _ r _ _ hs hr => hr ▸ hs.serve r)

/-! ## Duplicates

The validation loop asks only whether the id has a receipt at or below the cursor of the batch's
epoch, whatever epoch, sequence or payload the receipt is for. -/

theorem Sound.inbox_get (hs : Sound s) {id : Uuid} {r : SyncInbox} :
    s.inbox.get id = some r ↔ ∃ p ∈ s.operations.rows, p.operationId = id ∧ p.inboxRow = r := by
  rw [Table.get_eq_some_iff, hs.receipts, List.mem_map]
  constructor
  · rintro ⟨⟨p, hp, rfl⟩, hk⟩
    exact ⟨p, hp, hk, rfl⟩
  · rintro ⟨p, hp, hk, rfl⟩
    exact ⟨⟨p, hp, rfl⟩, hk⟩

theorem Sound.inbox_get_eq_none (hs : Sound s) {id : Uuid} :
    s.inbox.get id = none ↔ ¬ s.operations.Has id := by
  rw [Table.get_eq_none_iff, Table.has_iff, Table.has_iff, hs.receipts]
  simp [EventOperation.inboxRow]

/-! ## The loop -/

/-- The validation loop comes to `o` expecting the sequence `n`: every envelope
before it was new or a duplicate. -/
inductive Reaches (s : Store) (a : TournamentAuthority) (t : Uuid) (batch : SyncBatchRequest)
    (current : Nat) : Nat → List OperationEnvelope → Nat → OperationEnvelope → Prop
  | here (n : Nat) (o : OperationEnvelope) (os : List OperationEnvelope) :
      Reaches s a t batch current n (o :: os) n o
  | duplicate {n m : Nat} {o p : OperationEnvelope} {os : List OperationEnvelope}
      (verdict : judge s a t batch current n o = .duplicate)
      (next : Reaches s a t batch current n os m p) : Reaches s a t batch current n (o :: os) m p
  | new {n m : Nat} {o p : OperationEnvelope} {os : List OperationEnvelope}
      (verdict : judge s a t batch current n o = .new)
      (next : Reaches s a t batch current (n + 1) os m p) :
      Reaches s a t batch current n (o :: os) m p

theorem Reaches.validateOperations_eq {batch : SyncBatchRequest} {m : Nat}
    {os : List OperationEnvelope} (h : Reaches s a t batch current n os m o) {r : Rejection}
    (hr : judge s a t batch current m o = .rejected r) :
    validateOperations s a t batch current n os = .error (o, r) := by
  induction h with
  | here n o os => simp [validateOperations, hr]
  | duplicate verdict next ih => simp [validateOperations, verdict, ih hr, Except.map]
  | new verdict next ih => simp [validateOperations, verdict, ih hr, Except.map]

theorem judge_eq_duplicate (hs : Sound s) {batch : SyncBatchRequest} :
    judge s a t batch current n o = .duplicate ↔
      inScope t batch o ∧ supportsOperationSchema o.schemaVersion ∧
        o.commandType ∈ a.allowedCommandClasses.getD [] ∧
        ∃ p ∈ s.operations.rows, p.operationId = o.operationId ∧ p.sequence ≤ current := by
  unfold judge
  by_cases h₁ : inScope t batch o
  · by_cases h₂ : supportsOperationSchema o.schemaVersion = true
    · by_cases h₃ : o.commandType ∈ a.allowedCommandClasses.getD []
      · simp only [h₁, h₂, h₃, not_true_eq_false, ↓reduceIte, true_and]
        cases h₄ : s.inbox.get o.operationId with
        | some r =>
          obtain ⟨p, hp, hid, rfl⟩ := hs.inbox_get.mp h₄
          have only : (∃ q ∈ s.operations.rows, q.operationId = o.operationId ∧
              q.sequence ≤ current) ↔ p.sequence ≤ current := by
            constructor
            · rintro ⟨q, hq, hqid, hle⟩
              rwa [← Table.eq_of_key_eq hq hp (hqid.trans hid.symm)]
            · exact fun hle => ⟨p, hp, hid, hle⟩
          rw [only]
          by_cases hle : p.sequence ≤ current <;> simp [EventOperation.inboxRow, hle]
        | none =>
          have unseen := hs.inbox_get_eq_none.mp h₄
          have none' : ¬ ∃ q ∈ s.operations.rows, q.operationId = o.operationId ∧
              q.sequence ≤ current := by
            rintro ⟨q, hq, hqid, -⟩
            exact unseen (Table.has_iff.mpr ⟨q, hq, hqid⟩)
          simp only [none', unseen, ↓reduceIte, iff_false]
          split
          · simp
          · split <;> simp
      · simp [h₁, h₂, h₃]
    · simp [h₁, h₂]
  · simp [h₁]

/-! ## Genuine duplicates -/

/-- The accepted operation is the one in the envelope. -/
structure SameOperation (p : EventOperation) (o : OperationEnvelope) : Prop where
  operationId : p.operationId = o.operationId
  tournamentId : p.tournamentId = o.eventId
  authorityEpoch : p.authorityEpoch = o.authorityEpoch
  sequence : p.sequence = o.sequence
  payload : p.payload = o.payload

def ReusesId (s : Store) (o : OperationEnvelope) : Prop :=
  ∃ p ∈ s.operations.rows, p.operationId = o.operationId ∧ ¬ SameOperation p o

/-- The envelopes the loop of a call comes to, with the sequence it expects. -/
def Seen (s : Store) (a : TournamentAuthority) (t : Uuid) (batch : SyncBatchRequest) (n : Nat)
    (o : OperationEnvelope) : Prop :=
  Reaches s a t batch (cloudCursor s t batch.authorityEpoch)
    (cloudCursor s t batch.authorityEpoch + 1) batch.operations n o

def verdict (s : Store) (a : TournamentAuthority) (t : Uuid) (batch : SyncBatchRequest) (n : Nat)
    (o : OperationEnvelope) : Verdict :=
  judge s a t batch (cloudCursor s t batch.authorityEpoch) n o

/-- Only an accepted operation counts as a duplicate, and a reused id is refused. -/
def DuplicatesGenuine (s : Store) (a : TournamentAuthority) (t : Uuid)
    (batch : SyncBatchRequest) : Prop :=
  ∀ n o, Seen s a t batch n o →
    (verdict s a t batch n o = .duplicate → ∃ p ∈ s.operations.rows, SameOperation p o) ∧
    (ReusesId s o → ∃ r, verdict s a t batch n o = .rejected r)

/-- No envelope the loop comes to, within its scope and grant, reuses an id that
was accepted at or below the cursor. -/
def NoReuseBelowCursor (s : Store) (a : TournamentAuthority) (t : Uuid)
    (batch : SyncBatchRequest) : Prop :=
  ∀ n o, Seen s a t batch n o → inScope t batch o → supportsOperationSchema o.schemaVersion →
    o.commandType ∈ a.allowedCommandClasses.getD [] →
    ∀ p ∈ s.operations.rows, p.operationId = o.operationId → ¬ SameOperation p o →
      cloudCursor s t batch.authorityEpoch < p.sequence

theorem Sound.duplicatesGenuine_iff (hs : Sound s) (a : TournamentAuthority) (t : Uuid)
    (batch : SyncBatchRequest) :
    DuplicatesGenuine s a t batch ↔ NoReuseBelowCursor s a t batch := by
  constructor
  · intro h n o seen scope supported granted p hp hid hne
    by_contra hle
    obtain ⟨r, hr⟩ := (h n o seen).2 ⟨p, hp, hid, hne⟩
    have dup : verdict s a t batch n o = .duplicate :=
      (judge_eq_duplicate hs).mpr ⟨scope, supported, granted, p, hp, hid, by omega⟩
    rw [dup] at hr
    cases hr
  · intro h n o seen
    have genuine : verdict s a t batch n o = .duplicate →
        ∃ p ∈ s.operations.rows, p.operationId = o.operationId ∧ SameOperation p o := by
      intro hd
      obtain ⟨scope, supported, granted, p, hp, hid, hle⟩ := (judge_eq_duplicate hs).mp hd
      refine ⟨p, hp, hid, ?_⟩
      by_contra hne
      have := h n o seen scope supported granted p hp hid hne
      omega
    constructor
    · intro hd
      obtain ⟨p, hp, -, same⟩ := genuine hd
      exact ⟨p, hp, same⟩
    · rintro ⟨p, hp, hid, hne⟩
      cases hv : verdict s a t batch n o with
      | rejected r => exact ⟨r, rfl⟩
      | duplicate =>
        obtain ⟨q, hq, hqid, same⟩ := genuine hv
        rw [Table.eq_of_key_eq hq hp (hqid.trans hid.symm)] at same
        exact absurd same hne
      | new =>
        obtain ⟨-, -, -, unseen, -⟩ := judge_eq_new.mp hv
        exact absurd (Table.has_iff.mpr ⟨p, hp, hid⟩) (hs.inbox_get_eq_none.mp unseen)

theorem Seen.quarantined {env : Env} {batch : SyncBatchRequest} {checkpoint : SyncCheckpoint}
    (authority : s.authorities.get (t, batch.authorityEpoch) = some a) (active : a.state = .active)
    (admitted : admitBatch env s t capability batch a = .ok checkpoint)
    (seen : Seen s a t batch n o) {r : Rejection} (hr : verdict s a t batch n o = .rejected r) :
    ingestBatch env s t capability batch =
      (quarantine s t batch o r.reason r.detail, .error r.error) := by
  obtain ⟨-, -, current⟩ := admitBatch_eq_ok admitted
  have stopped := seen.validateOperations_eq hr
  rw [current] at stopped
  have once : ingestOnce env s t capability batch =
      (quarantine s t batch o r.reason r.detail, .error r.error) := by
    simp [ingestOnce, authority, active, admitted, stopped]
  have notRace : r.error.isIntegrityError = false := rfl
  simp [ingestBatch, once, notRace]

/-- **Duplicates.** For an admitted batch in any state, every duplicate the call
counts is an accepted operation and every reused id is refused, if and only if
no envelope reuses an id accepted at or below the cursor; and what the loop
refuses is quarantined. -/
theorem duplicates_genuine_iff {env : Env} {s : Store} (h : CloudReachable env s) {t : Uuid}
    {capability : String} {batch : SyncBatchRequest} {a : TournamentAuthority}
    {checkpoint : SyncCheckpoint}
    (authority : s.authorities.get (t, batch.authorityEpoch) = some a) (active : a.state = .active)
    (admitted : admitBatch env s t capability batch a = .ok checkpoint) :
    (DuplicatesGenuine s a t batch ↔ NoReuseBelowCursor s a t batch) ∧
    ∀ n o r, Seen s a t batch n o → verdict s a t batch n o = .rejected r →
      ingestBatch env s t capability batch =
        (quarantine s t batch o r.reason r.detail, .error r.error) :=
  ⟨(CloudReachable.sound h).duplicatesGenuine_iff a t batch,
    fun _ _ _ seen hr => seen.quarantined authority active admitted hr⟩

namespace Rehearsal

/-- The id of the accepted `call`, under another sequence and another payload. -/
def forged : OperationEnvelope :=
  operation laptop 1 7 call.operationId [("status", .str "finished")]

def forgedUpload : SyncBatchRequest :=
  batch laptop 1 [forged] Nat.one_pos (by decide) (by decide)

end Rehearsal

open Rehearsal in
theorem duplicates_genuine_iff_rehearsal :
    ∃ a, (uploaded.authorities.get (eventId, 1) = some a) ∧
      (DuplicatesGenuine uploaded a eventId upload ↔
        NoReuseBelowCursor uploaded a eventId upload) := by
  refine ⟨(uploaded.authorities.get (eventId, 1)).get (by decide +kernel), by simp, ?_⟩
  have admitted : admitBatch env uploaded eventId laptopCapability upload
      ((uploaded.authorities.get (eventId, 1)).get (by decide +kernel)) = .ok ⟨eventId, 1, 2⟩ := by
    decide +kernel
  exact (duplicates_genuine_iff (after_reachable _) (Option.some_get _).symm (by decide +kernel)
    admitted).1

open Rehearsal in
/-- The forged envelope is acknowledged as a duplicate: the batch is accepted
and nothing is stored or quarantined. -/
theorem forged_duplicate_acknowledged :
    CloudReachable env uploaded ∧
      (ingestBatch env uploaded eventId laptopCapability forgedUpload).2 = .ok ⟨2, 0, 1⟩ ∧
      (ingestBatch env uploaded eventId laptopCapability forgedUpload).1.operations =
        uploaded.operations ∧
      (ingestBatch env uploaded eventId laptopCapability forgedUpload).1.quarantine = [] ∧
      ReusesId uploaded forged ∧ ¬ ∃ p ∈ uploaded.operations.rows, SameOperation p forged := by
  have accepted : EventOperation.ofEnvelope eventId call ∈ uploaded.operations.rows := by
    decide +kernel
  have others : ∀ p ∈ uploaded.operations.rows, p.sequence ≠ forged.sequence := by decide +kernel
  refine ⟨after_reachable _, by decide +kernel, by decide +kernel, by decide +kernel,
    ⟨_, accepted, rfl, fun same => ?_⟩, ?_⟩
  · exact others _ accepted same.sequence
  · rintro ⟨p, hp, same⟩
    exact others p hp same.sequence

end Sync
