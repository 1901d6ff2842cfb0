import ShuttleWorks.Sync.Epochs

/-! What one call of `ingestBatch` can do, and the ledger it keeps: the accepted
operations of an epoch are numbered 1, 2, … up to its cursor, each with one
receipt. -/

namespace Sync
open Lib

def EventOperation.inboxRow (o : EventOperation) : SyncInbox :=
  { operationId := o.operationId, tournamentId := o.tournamentId,
    authorityEpoch := o.authorityEpoch, sequence := o.sequence }

/-! ## Appending rows -/

/-- `s'` has the operations `rows` more than `s`, each with its receipt; besides
them only projections may differ. -/
structure Appended (s : Store) (rows : List EventOperation) (s' : Store) : Prop where
  operations : s'.operations.rows = s.operations.rows ++ rows
  inbox : s'.inbox.rows = s.inbox.rows ++ rows.map EventOperation.inboxRow
  rest : s' = { s with
    operations := s'.operations, inbox := s'.inbox, projections := s'.projections }

variable {s s' : Store} {rows rows' : List EventOperation} {o : EventOperation} {x y : Session}
  {t : Uuid} {os : List OperationEnvelope} {current : Nat} {a : TournamentAuthority}
  {capability : String} {expected : Nat}

namespace Appended

theorem refl (s : Store) : Appended s [] s := ⟨by simp, by simp, rfl⟩

theorem trans {s'' : Store} (h : Appended s rows s') (h' : Appended s' rows' s'') :
    Appended s (rows ++ rows') s'' where
  operations := by rw [h'.operations, h.operations, List.append_assoc]
  inbox := by rw [h'.inbox, h.inbox, List.map_append, List.append_assoc]
  rest := by
    rw [h'.rest, h.rest]

theorem authorities (h : Appended s rows s') :
    s'.authorities = s.authorities := by rw [h.rest]

theorem checkpoints (h : Appended s rows s') :
    s'.checkpoints = s.checkpoints := by rw [h.rest]

end Appended

theorem insertOperation_eq_ok {env : Env} (h : s.insertOperation env o = .ok s') :
    ∃ u, u.rows = s.operations.rows ++ [o] ∧ s' = { s with operations := u } := by
  unfold Store.insertOperation at h
  split at h
  · cases h
  · cases hi : s.operations.insert o with
    | none => simp [hi] at h
    | some u =>
      rw [hi] at h
      cases h
      exact ⟨u, (Table.insert_eq_some.mp hi).2, rfl⟩

theorem insertInbox_eq_ok {env : Env} {r : SyncInbox} (h : s.insertInbox env r = .ok s') :
    ∃ u, u.rows = s.inbox.rows ++ [r] ∧ s' = { s with inbox := u } := by
  unfold Store.insertInbox at h
  split at h
  · cases h
  · cases hi : s.inbox.insert r with
    | none => simp [hi] at h
    | some u =>
      rw [hi] at h
      cases h
      exact ⟨u, (Table.insert_eq_some.mp hi).2, rfl⟩

theorem insertProjection_eq_ok {env : Env} {p : CloudEventProjection}
    (h : s.insertProjection env p = .ok s') :
    ∃ u, s.projections.insert p = some u ∧ s' = { s with projections := u } := by
  unfold Store.insertProjection at h
  cases hi : s.projections.insert p with
  | none => simp [hi] at h
  | some u =>
    rw [hi] at h
    cases h
    exact ⟨u, rfl, rfl⟩

theorem insertReceipted_appended {env : Env} (h : insertReceipted env s o = .ok s') :
    Appended s [o] s' ∧ s'.projections = s.projections := by
  unfold insertReceipted at h
  simp only [bind_eq_ok] at h
  obtain ⟨s₁, h₁, h₂⟩ := h
  obtain ⟨u, hu, rfl⟩ := insertOperation_eq_ok h₁
  obtain ⟨v, hv, rfl⟩ := insertInbox_eq_ok h₂
  exact ⟨⟨hu, hv, rfl⟩, rfl⟩

theorem foldlM_insertReceipted {env : Env} {rows : List EventOperation} {s s' : Store}
    (h : rows.foldlM (insertReceipted env) s = .ok s') :
    Appended s rows s' ∧ s'.projections = s.projections := by
  induction rows generalizing s with
  | nil =>
    cases h
    exact ⟨.refl _, rfl⟩
  | cons o rows ih =>
    simp only [List.foldlM_cons, bind_eq_ok] at h
    obtain ⟨s₁, h₁, h₂⟩ := h
    obtain ⟨a₁, p₁⟩ := insertReceipted_appended h₁
    obtain ⟨a₂, p₂⟩ := ih h₂
    exact ⟨a₁.trans a₂, p₂.trans p₁⟩

theorem writeLoaded_appended (s : Store) (loaded : Option HeldProjection) :
    Appended s [] (writeLoaded s loaded) := by
  cases loaded with
  | none => exact .refl s
  | some held => exact ⟨by simp [writeLoaded], by simp [writeLoaded], rfl⟩

theorem insertProjections_appended {env : Env} {pending : List CloudEventProjection}
    (h : pending.foldlM (fun s row => s.insertProjection env row) s = .ok s') :
    Appended s [] s' := by
  induction pending generalizing s with
  | nil =>
    cases h
    exact .refl _
  | cons row pending ih =>
    simp only [List.foldlM_cons, bind_eq_ok] at h
    obtain ⟨s₁, h₁, h₂⟩ := h
    obtain ⟨u, -, rfl⟩ := insertProjection_eq_ok h₁
    have first : Appended s [] { s with projections := u } := ⟨by simp, by simp, rfl⟩
    exact first.trans (ih h₂)

theorem flush_appended {env : Env} (h : flush env x = .ok s') : Appended x.store x.added s' := by
  unfold flush at h
  simp only [bind_eq_ok] at h
  obtain ⟨s₁, h₁, h₂⟩ := h
  exact (writeLoaded_appended x.store x.loaded).trans
    ((insertProjections_appended h₁).trans (foldlM_insertReceipted h₂).1)

theorem applyCloudProjection_keeps {env : Env} {o : OperationEnvelope}
    (h : applyCloudProjection env x o = .ok y) : y.store = x.store ∧ y.added = x.added := by
  have load : (getProjection x o.eventId).store = x.store ∧
      (getProjection x o.eventId).added = x.added := by
    unfold getProjection
    split <;> exact ⟨rfl, rfl⟩
  unfold applyCloudProjection at h
  dsimp only at h
  split at h
  · simp only [bind_eq_ok] at h
    obtain ⟨_, _, h⟩ := h
    cases h
    exact load
  · simp only [bind_eq_ok] at h
    obtain ⟨_, _, h⟩ := h
    cases h
    exact load

/-- The apply loop only collects the rows of the operations. -/
theorem applyOperations_collects {env : Env} (h : applyOperations env t x os = .ok y) :
    y.store = x.store ∧ y.added = x.added ++ os.map (.ofEnvelope t) := by
  induction os generalizing x with
  | nil =>
    cases h
    simp
  | cons o os ih =>
    unfold applyOperations at h
    cases ho : applyCloudProjection env x o with
    | error e => simp [ho] at h
    | ok z =>
      rw [ho] at h
      obtain ⟨store, added⟩ := applyCloudProjection_keeps ho
      obtain ⟨store', added'⟩ := ih h
      exact ⟨store'.trans store, by rw [added', added]; simp⟩

theorem commitBatch_eq_ok {env : Env} {e highest : Nat}
    (h : commitBatch env x t e current highest = .ok s') :
    ∃ s₁, flush env x = .ok s₁ ∧
      s' = { s₁ with checkpoints := s₁.checkpoints.put ⟨t, e, highest⟩ } := by
  unfold commitBatch at h
  simp only [bind_eq_ok, require_eq_ok] at h
  obtain ⟨_, _, s₁, flushed, h⟩ := h
  cases h
  exact ⟨s₁, flushed, rfl⟩

theorem admitBatch_eq_ok {env : Env} {batch : SyncBatchRequest} {checkpoint : SyncCheckpoint}
    (h : admitBatch env s t capability batch a = .ok checkpoint) :
    a.nodeId = batch.nodeId ∧ s.checkpoints.get (t, batch.authorityEpoch) = some checkpoint ∧
      cloudCursor s t batch.authorityEpoch = checkpoint.highestContiguousSequence := by
  unfold admitBatch at h
  simp only [bind_eq_ok, require_eq_ok, found_eq_ok] at h
  obtain ⟨_, ⟨node, -⟩, tournament, _, device, _, cursor⟩ := h
  exact ⟨node, cursor, by simp [cloudCursor, cursor]⟩

/-! ## Validation -/

theorem judge_eq_new {batch : SyncBatchRequest} {o : OperationEnvelope} :
    judge s a t batch current expected o = .new ↔
      inScope t batch o ∧ supportsOperationSchema o.schemaVersion ∧
        o.commandType ∈ a.allowedCommandClasses.getD [] ∧ s.inbox.get o.operationId = none ∧
        o.sequence = expected := by
  unfold judge
  by_cases h₁ : inScope t batch o
  · by_cases h₂ : supportsOperationSchema o.schemaVersion = true
    · by_cases h₃ : o.commandType ∈ a.allowedCommandClasses.getD []
      · cases h₄ : s.inbox.get o.operationId with
        | some r =>
          simp only [h₁, h₂, h₃, not_true_eq_false, ↓reduceIte]
          split <;> simp
        | none =>
          simp only [h₁, h₂, h₃, not_true_eq_false, ↓reduceIte]
          split
          · next hlt => split <;> simp <;> omega
          · split
            · next hne => simp [hne]
            · next heq => simp only [not_not.mp heq, and_self]
      · simp [h₁, h₂, h₃]
    · simp [h₁, h₂]
  · simp [h₁]

/-- What the validation loop returns: the new operations carry the sequences
from `expected` on, and none of their ids has a receipt. -/
structure Validated (s : Store) (a : TournamentAuthority) (t : Uuid) (batch : SyncBatchRequest)
    (expected : Nat) (os news : List OperationEnvelope) (duplicates : Nat) : Prop where
  sequences : news.map OperationEnvelope.sequence = List.range' expected news.length
  sublist : news.Sublist os
  length : news.length + duplicates = os.length
  inScope : ∀ o ∈ news, inScope t batch o
  supported : ∀ o ∈ news, supportsOperationSchema o.schemaVersion
  granted : ∀ o ∈ news, o.commandType ∈ a.allowedCommandClasses.getD []
  unseen : ∀ o ∈ news, s.inbox.get o.operationId = none

theorem validateOperations_eq_ok {batch : SyncBatchRequest} {news : List OperationEnvelope}
    {duplicates : Nat}
    (h : validateOperations s a t batch current expected os = .ok (news, duplicates)) :
    Validated s a t batch expected os news duplicates := by
  induction os generalizing expected news duplicates with
  | nil =>
    cases h
    exact ⟨rfl, .slnil, rfl, by simp, by simp, by simp, by simp⟩
  | cons o os ih =>
    unfold validateOperations at h
    cases hj : judge s a t batch current expected o with
    | rejected r => simp [hj] at h
    | duplicate =>
      rw [hj] at h
      cases hv : validateOperations s a t batch current expected os with
      | error e => simp [hv, Except.map] at h
      | ok p =>
        obtain ⟨rest, count⟩ := p
        simp only [hv, Except.map, Except.ok.injEq, Prod.mk.injEq] at h
        obtain ⟨rfl, rfl⟩ := h
        have v := ih hv
        have length := v.length
        exact ⟨v.sequences, v.sublist.cons _, by simp; omega, v.inScope, v.supported, v.granted,
          v.unseen⟩
    | new =>
      rw [hj] at h
      cases hv : validateOperations s a t batch current (expected + 1) os with
      | error e => simp [hv, Except.map] at h
      | ok p =>
        obtain ⟨rest, count⟩ := p
        simp only [hv, Except.map, Except.ok.injEq, Prod.mk.injEq] at h
        obtain ⟨rfl, rfl⟩ := h
        have v := ih hv
        have length := v.length
        obtain ⟨scope, supported, granted, unseen, sequence⟩ := judge_eq_new.mp hj
        refine ⟨?_, v.sublist.cons_cons _, by simp; omega, ?_, ?_, ?_, ?_⟩
        · simp [List.range'_succ, v.sequences, sequence]
        · exact List.forall_mem_cons.mpr ⟨scope, v.inScope⟩
        · exact List.forall_mem_cons.mpr ⟨supported, v.supported⟩
        · exact List.forall_mem_cons.mpr ⟨granted, v.granted⟩
        · exact List.forall_mem_cons.mpr ⟨unseen, v.unseen⟩

/-! ## One call -/

/-- The stages of an accepted batch. -/
inductive Accepts (env : Env) (s : Store) (t : Uuid) (capability : String)
    (batch : SyncBatchRequest) (a : TournamentAuthority) (news : List OperationEnvelope) :
    Store → SyncBatchResponse → Prop
  | intro (checkpoint : SyncCheckpoint) (duplicates : Nat) (x : Session) (s' : Store)
      (authority : s.authorities.get (t, batch.authorityEpoch) = some a)
      (active : a.state = .active)
      (admitted : admitBatch env s t capability batch a = .ok checkpoint)
      (validated : validateOperations s a t batch checkpoint.highestContiguousSequence
        (checkpoint.highestContiguousSequence + 1) batch.operations = .ok (news, duplicates))
      (applied : applyOperations env t { store := s } news = .ok x)
      (committed : commitBatch env x t batch.authorityEpoch checkpoint.highestContiguousSequence
        (checkpoint.highestContiguousSequence + news.length) = .ok s') :
      Accepts env s t capability batch a news s'
        { highestContiguousSequence := checkpoint.highestContiguousSequence + news.length
          accepted := news.length
          duplicates := duplicates }

def applyCodes : List String :=
  ["wrong_authority_epoch", "version_conflict", "projection_apply_failed"]

/-- The row carries one of those codes, or the one its validation was refused with. -/
def Explained (s : Store) (t : Uuid) (batch : SyncBatchRequest) (q : SyncQuarantine) : Prop :=
  q.reasonCode ∈ applyCodes ∨ ∃ a o r,
    validateOperations s a t batch (cloudCursor s t batch.authorityEpoch)
      (cloudCursor s t batch.authorityEpoch + 1) batch.operations = .error (o, r) ∧
    q.reasonCode = Rejection.reason r

/-- How one attempt ends. -/
inductive Outcome (env : Env) (s : Store) (t : Uuid) (capability : String)
    (batch : SyncBatchRequest) : Store × Except Raised SyncBatchResponse → Prop
  | refused (q : List SyncQuarantine) (e : Raised) (h : e.isIntegrityError = false)
      (explained : ∀ x ∈ q, Explained s t batch x) :
      Outcome env s t capability batch ({ s with quarantine := s.quarantine ++ q }, .error e)
  | conflicted (e : Raised) (h : e.isIntegrityError = true) :
      Outcome env s t capability batch (s, .error e)
  | accepted (a : TournamentAuthority) (news : List OperationEnvelope) (s' : Store)
      (r : SyncBatchResponse) (h : Accepts env s t capability batch a news s' r) :
      Outcome env s t capability batch (s', .ok r)

theorem Outcome.unchanged {env : Env} {batch : SyncBatchRequest} (e : Raised) :
    Outcome env s t capability batch (s, .error e) := by
  cases h : e.isIntegrityError with
  | true => exact .conflicted e h
  | false =>
    have refused := @Outcome.refused env s t capability batch [] e h (by simp)
    rwa [List.append_nil] at refused

theorem quarantineBatch_eq (s : Store) (t : Uuid) (batch : SyncBatchRequest) (reason : String)
    (detail : JsonObject) :
    ∃ q, quarantineBatch s t batch reason detail = { s with quarantine := s.quarantine ++ q } ∧
      ∀ x ∈ q, x.reasonCode = reason := by
  unfold quarantineBatch
  induction batch.operations generalizing s with
  | nil => exact ⟨[], by simp, by simp⟩
  | cons o os ih =>
    obtain ⟨q, hq, codes⟩ := ih (quarantine s t batch o reason detail)
    rw [List.foldl_cons, hq]
    refine ⟨(quarantine { s with quarantine := [] } t batch o reason detail).quarantine ++ q,
      by simp [quarantine], ?_⟩
    intro x hx
    rcases List.mem_append.mp hx with hx | hx
    · simp only [quarantine, List.nil_append, List.mem_singleton] at hx
      rw [hx]
    · exact codes x hx

theorem applyFailure_code (e : Raised) : (applyFailure e).1.reason ∈ applyCodes := by
  cases e with
  | protocol e =>
    simp only [applyFailure]
    split <;> simp [applyCodes]
  | exception type message => simp [applyFailure, applyCodes]

theorem applyFailure_isIntegrityError (e : Raised) :
    (applyFailure e).2.isIntegrityError = false := by
  cases e <;> rfl

theorem ingestOnce_outcome (env : Env) (s : Store) (t : Uuid) (capability : String)
    (batch : SyncBatchRequest) :
    Outcome env s t capability batch (ingestOnce env s t capability batch) := by
  have wrongEpoch : Outcome env s t capability batch
      (if s.tournaments.Has t then
          quarantineBatch s t batch "wrong_authority_epoch"
            [("authorityEpoch", .int batch.authorityEpoch)]
        else s,
        refuse 409 "wrong_authority_epoch" "Authority epoch is not active") := by
    split
    · obtain ⟨q, hq, codes⟩ := quarantineBatch_eq s t batch "wrong_authority_epoch"
        [("authorityEpoch", .int batch.authorityEpoch)]
      rw [hq]
      exact .refused q _ rfl fun x hx => Or.inl (by simp [codes x hx, applyCodes])
    · exact .unchanged _
  unfold ingestOnce
  cases ha : s.authorities.get (t, batch.authorityEpoch) with
  | none => exact wrongEpoch
  | some a =>
    by_cases hs : a.state = .active
    · simp only [hs, ne_eq, not_true_eq_false, ↓reduceIte]
      cases hadm : admitBatch env s t capability batch a with
      | error e => exact .unchanged e
      | ok checkpoint =>
        obtain ⟨-, -, hcursor⟩ := admitBatch_eq_ok hadm
        generalize hcur : checkpoint.highestContiguousSequence = current
        rw [hcur] at hcursor
        cases hv : validateOperations s a t batch current (current + 1) batch.operations with
        | error p =>
          obtain ⟨o, r⟩ := p
          simp only [hcur, hv]
          refine .refused _ r.error rfl fun x hx => Or.inr ⟨a, o, r, hcursor ▸ hv, ?_⟩
          rw [List.mem_singleton.mp hx]
        | ok p =>
          obtain ⟨news, duplicates⟩ := p
          cases happ : applyOperations env t { store := s } news with
          | error f =>
            obtain ⟨o, e⟩ := f
            simp only [hcur, hv, happ]
            refine .refused _ _ (applyFailure_isIntegrityError e) fun x hx => Or.inl ?_
            rw [List.mem_singleton.mp hx]
            exact applyFailure_code e
          | ok x =>
            simp only [hcur, hv, happ]
            cases hc : commitBatch env x t batch.authorityEpoch current
                (current + news.length) with
            | error e => exact .unchanged e
            | ok s' =>
              subst hcur
              exact .accepted a news _ _ (.intro checkpoint duplicates x s' ha hs hadm hv happ hc)
    · simp only [hs, ne_eq, not_false_eq_true, ↓reduceIte]
      exact wrongEpoch

/-- **One call.** It accepts, in stages, or raises and adds quarantine rows at
most. The retry changes nothing: a conflict leaves the store as it was, so the
second attempt is the first one again. -/
theorem ingestBatch_cases (env : Env) (s : Store) (t : Uuid) (capability : String)
    (batch : SyncBatchRequest) :
    (∃ q e, ingestBatch env s t capability batch =
      ({ s with quarantine := s.quarantine ++ q }, .error e)) ∨
    (∃ a news s' r, ingestBatch env s t capability batch = (s', .ok r) ∧
      Accepts env s t capability batch a news s' r) := by
  unfold ingestBatch
  generalize h : ingestOnce env s t capability batch = p
  cases h ▸ ingestOnce_outcome env s t capability batch with
  | refused q e he _ => exact Or.inl ⟨q, e, by simp [he]⟩
  | conflicted e he => exact Or.inl ⟨[], _, by simp only [h, he, ↓reduceIte]; simp [refuse]; rfl⟩
  | accepted a news s' r hr => exact Or.inr ⟨a, news, s', r, rfl, hr⟩

end Sync
