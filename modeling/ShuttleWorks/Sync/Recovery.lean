import ShuttleWorks.Sync.Guarantees

/-! Recovery of a lost node. The cloud prepares a replacement only from a manifest that
replays exactly what it has receipted beyond the backup, and from then on the lost epoch
is closed for good: no upload adds to it, whoever sends it. -/

namespace Sync
open Lib

/-! ## The manifest -/

/-- `uq_event_operations_epoch_sequence`: an epoch stores one operation at most for a number. -/
def UniqueSequences (s : Store) : Prop :=
  ∀ o ∈ s.operations.rows, ∀ p ∈ s.operations.rows, o.epochKey = p.epochKey →
    o.sequence = p.sequence → o = p

/-- The checkpoint's manifest names these operations as replayed. -/
def ReplayedIds (checkpoint : JsonObject) (ids : List Uuid) : Prop :=
  ∃ manifest, Assoc.get "recovery" checkpoint = some (.obj manifest) ∧
    Assoc.get "replayedOperationIds" manifest = some (.arr (ids.map .str))

/-- The operations of an epoch between the backup and the cursor, each receipted and each once,
with no number left out. -/
structure Replays (s : Store) (key : EpochKey) (backup : Nat) (ops : List EventOperation) :
    Prop where
  backed : backup ≤ cloudCursor s key.1 key.2
  mem_iff : ∀ o, o ∈ ops ↔ o ∈ acceptedOf s key.1 key.2 ∧ backup < o.sequence ∧
    o.sequence ≤ cloudCursor s key.1 key.2
  sequences : ops.map EventOperation.sequence =
    List.range' (backup + 1) (cloudCursor s key.1 key.2 - backup)
  receipted : ∀ o ∈ ops, s.inbox.Has o.operationId

theorem eq_range'_of_increasing {l : List Nat} {b c : Nat} (increasing : l.Pairwise (· < ·))
    (between : ∀ n ∈ l, b < n ∧ n ≤ c) (full : l.length = c - b) :
    l = List.range' (b + 1) (c - b) := by
  have nodup : l.Nodup := increasing.imp Nat.ne_of_lt
  have inside : l ⊆ List.range' (b + 1) (c - b) := by
    intro n hn
    obtain ⟨low, high⟩ := between n hn
    rw [List.mem_range'_1]
    omega
  have perm : l.Perm (List.range' (b + 1) (c - b)) := by
    apply (List.subperm_of_subset nodup inside).perm_of_length_le
    rw [List.length_range', full]
  exact perm.eq_of_pairwise (fun _ _ _ _ h h' => absurd (h.trans h') (Nat.lt_irrefl _))
    increasing List.pairwise_lt_range'

section
variable {s : Store} {key : EpochKey} {backup : Nat} {o : EventOperation}

theorem mem_operationsOf :
    o ∈ s.operationsOf key ↔ o ∈ acceptedOf s key.1 key.2 := by
  simp [Store.operationsOf, acceptedOf]

theorem mem_receiptedSuffix {cloud : Nat} :
    o ∈ receiptedSuffix s key backup cloud ↔ o ∈ acceptedOf s key.1 key.2 ∧
      s.inbox.Has o.operationId ∧ backup < o.sequence ∧ o.sequence ≤ cloud := by
  rw [receiptedSuffix, List.mem_filter, mem_operationsOf, decide_eq_true_eq]

theorem receiptedSuffix_nodup (cloud : Nat) :
    ((receiptedSuffix s key backup cloud).map EventOperation.operationId).Nodup := by
  have rows : ((s.operations.rows.filter fun o => o.epochKey = key).map
      EventOperation.operationId).Nodup :=
    s.operations.unique.sublist (List.filter_sublist.map _)
  have nodup : ((s.operationsOf key).map EventOperation.operationId).Nodup :=
    ((List.perm_insertionSort _ _).map _).nodup_iff.mpr rows
  exact nodup.sublist (List.filter_sublist.map _)

theorem receiptedSuffix_increasing (unique : UniqueSequences s) (cloud : Nat) :
    ((receiptedSuffix s key backup cloud).map EventOperation.sequence).Pairwise (· < ·) := by
  have rows : s.operations.rows.Nodup := List.Nodup.of_map _ s.operations.unique
  have nodup : (s.operationsOf key).Nodup :=
    (List.perm_insertionSort _ _).nodup_iff.mpr (rows.filter _)
  have sorted : (s.operationsOf key).Pairwise fun o p => o.sequence ≤ p.sequence :=
    List.pairwise_insertionSort _ _
  rw [List.pairwise_map]
  refine List.Pairwise.filter _ ((sorted.and nodup).imp_of_mem ?_)
  rintro o p ho hp ⟨le, ne⟩
  refine Nat.lt_of_le_of_ne le fun same => ne ?_
  rw [mem_operationsOf, acceptedOf, List.mem_filter, decide_eq_true_eq] at ho hp
  exact unique o ho.1 p hp.1 (ho.2.trans hp.2.symm) same

theorem receiptedSuffix_replays (unique : UniqueSequences s)
    (backed : backup ≤ cloudCursor s key.1 key.2)
    (full : (receiptedSuffix s key backup (cloudCursor s key.1 key.2)).length =
      cloudCursor s key.1 key.2 - backup) :
    Replays s key backup (receiptedSuffix s key backup (cloudCursor s key.1 key.2)) := by
  have sequences := eq_range'_of_increasing (b := backup) (c := cloudCursor s key.1 key.2)
    (receiptedSuffix_increasing unique (cloudCursor s key.1 key.2)) (by
      intro n hn
      obtain ⟨o, ho, rfl⟩ := List.mem_map.mp hn
      exact (mem_receiptedSuffix.mp ho).2.2) (by rw [List.length_map, full])
  refine ⟨backed, fun o => ⟨fun ho => ?_, ?_⟩, sequences, fun o ho => ?_⟩
  · obtain ⟨mem, -, bounds⟩ := mem_receiptedSuffix.mp ho
    exact ⟨mem, bounds⟩
  · rintro ⟨mem, low, high⟩
    -- The suffix has an operation of this number, and the index allows no second one.
    have number : o.sequence ∈ (receiptedSuffix s key backup (cloudCursor s key.1 key.2)).map
        EventOperation.sequence := by
      rw [sequences, List.mem_range'_1]
      omega
    obtain ⟨p, hp, same⟩ := List.mem_map.mp number
    have stored := (mem_receiptedSuffix.mp hp).1
    rw [acceptedOf, List.mem_filter, decide_eq_true_eq] at mem stored
    rw [← unique p stored.1 o mem.1 (stored.2.trans mem.2.symm) same]
    exact hp
  · exact (mem_receiptedSuffix.mp ho).2.1

end

/-! ## The lost epoch -/

def Retired (s : Store) (key : EpochKey) : Prop :=
  ∃ a ∈ s.authorities.rows, a.key = key ∧ a.state.live = false

theorem EpochMove.cursor_of_has {s s' : Store} (h : EpochMove s s') {t : Uuid} {e : Nat}
    (granted : s.authorities.Has (t, e)) : cloudCursor s' t e = cloudCursor s t e := by
  unfold cloudCursor
  cases h with
  | opened a kept next free authorities checkpoints =>
    rcases checkpoints with same | new
    · rw [same]
    · rw [Table.get_of_rows_concat new]
      have other : (SyncCheckpoint.mk a.tournamentId a.epoch 0).key ≠ (t, e) := by
        intro same
        obtain ⟨b, hb, key⟩ := Table.has_iff.mp granted
        have above := lt_nextEpoch hb
        simp only [SyncCheckpoint.key, TournamentAuthority.key, Prod.mk.injEq] at same key
        rw [key.1, ← same.1, ← next, key.2, same.2] at above
        exact Nat.lt_irrefl _ above
      rw [if_neg other]
  | moved a a' kept mem becomes authorities checkpoints => rw [checkpoints]
  | idle kept authorities checkpoints => rw [checkpoints]

/-- What the cloud has of the epoch: it is retired, with these operations and this cursor. -/
structure Sealed (key : EpochKey) (ops : List EventOperation) (cursor : Nat) (s : Store) :
    Prop where
  retired : Retired s key
  operations : acceptedOf s key.1 key.2 = ops
  cursor : cloudCursor s key.1 key.2 = cursor

namespace Sealed

variable {s s' : Store} {key : EpochKey} {ops : List EventOperation} {cursor : Nat}

theorem move (h : Sealed key ops cursor s) (move : EpochMove s s') : Sealed key ops cursor s' := by
  obtain ⟨⟨a, ha, rfl, gone⟩, operations, at_⟩ := h
  refine ⟨⟨a, move.mem_of_not_live ha gone, rfl, gone⟩, ?_, ?_⟩
  · rw [acceptedOf, move.kept.operations]
    exact operations
  · exact (move.cursor_of_has (Table.has_iff.mpr ⟨a, ha, rfl⟩)).trans at_

theorem moves (h : Sealed key ops cursor s) (moves : EpochMoves s s') :
    Sealed key ops cursor s' := by
  induction moves with
  | refl => exact h
  | tail _ m ih => exact ih.move m

/-- **Step.** No request reopens the epoch: an upload is accepted for an active epoch only. -/
theorem serve (env : Env) (h : Sealed key ops cursor s) (r : Request) :
    Sealed key ops cursor (serve env s r) := by
  by_cases hr : ∃ t capability batch, r = .upload t capability batch
  · obtain ⟨t, capability, batch, rfl⟩ := hr
    simp only [Sync.serve]
    rcases ingestBatch_cases env s t capability batch with
      ⟨q, e, refused⟩ | ⟨a, news, s', r, ok, acc⟩
    · rw [refused]
      exact ⟨h.retired, h.operations, h.cursor⟩
    · rw [ok]
      have effect := acc.effect
      obtain ⟨b, hb, kb, gone⟩ := h.retired
      have other : (t, batch.authorityEpoch) ≠ (key.1, key.2) := by
        intro same
        have active := Table.mem_of_get effect.authority
        have ka := Table.key_of_get effect.authority
        have equal := Table.eq_of_key_eq active hb (ka.trans (same.trans kb.symm))
        rw [← equal, effect.active] at gone
        cases gone
      refine ⟨⟨b, effect.authorities_eq ▸ hb, kb, gone⟩, ?_, ?_⟩
      · rw [effect.acceptedOf_eq, if_neg other, List.append_nil]
        exact h.operations
      · rw [effect.cloudCursor_eq, if_neg other, Nat.add_zero]
        exact h.cursor
  · push Not at hr
    exact h.moves (serve_moves env s r hr)

/-- **Run.** -/
theorem run {env : Env} {rs : List Request} (h : Sealed key ops cursor s)
    (run : CloudRun env s rs s') : Sealed key ops cursor s' :=
  run.invariant (fun _ r _ h served => served ▸ h.serve _ r) h

end Sealed

/-! ## Recovery -/

section
variable {env : Env} {s s' : Store} {t n : Uuid} {e : Nat} {r : TransitionRequest} {backup : Nat}
  {hash : String} {checkpoint : JsonObject} {token : String} {now : Timestamp}
  {x : TournamentAuthority × TournamentAuthority × String}

theorem recoverLostNode_seals
    (h : recoverLostNode env s t n e r backup hash checkpoint token now = .ok (x, s')) :
    Sealed (t, e) (acceptedOf s t e) (cloudCursor s t e) s' := by
  unfold recoverLostNode at h
  simp only [bind_eq_ok, require_eq_ok, found_eq_ok] at h
  obtain ⟨reason, _, _, _, a, ha, _, rfl, _, _, _, _, _, _, _, _, t', _, _, _, h⟩ := h
  split at h
  · simp only [bind_eq_ok, require_eq_ok] at h
    obtain ⟨_, _, _, _, ⟨⟨b, cap⟩, s₂⟩, h₂, h⟩ := h
    cases h
    obtain ⟨mem, rfl, live⟩ := activeAuthority_eq_some ha
    have closed : Sealed a.key (acceptedOf s a.tournamentId a.epoch)
        (cloudCursor s a.tournamentId a.epoch) (retire s a .recovered now (some reason)) := by
      refine ⟨⟨_, Table.mem_put.mpr (.inl rfl), rfl, rfl⟩, rfl, rfl⟩
    exact (closed.move (preparingEpoch_move h₂)).move (appendTransition_move _ _)
  · simp at h

theorem recoverLostNode_replays (unique : UniqueSequences s)
    (h : recoverLostNode env s t n e r backup hash checkpoint token now = .ok (x, s')) :
    r.declaredLastSequence = cloudCursor s t e ∧ ∃ ops, Replays s (t, e) backup ops ∧
      (ops.map EventOperation.operationId).Nodup ∧
      ReplayedIds checkpoint (ops.map EventOperation.operationId) := by
  unfold recoverLostNode at h
  simp only [bind_eq_ok, require_eq_ok, found_eq_ok] at h
  obtain ⟨reason, _, _, _, a, ha, _, rfl, _, _, _, above, _, below, _, backed, t', _, _, _, h⟩ := h
  split at h
  · next manifest evidence =>
    simp only [bind_eq_ok, require_eq_ok] at h
    obtain ⟨_, matched, _, full, -⟩ := h
    refine ⟨Nat.le_antisymm above below, _, receiptedSuffix_replays unique backed full,
      receiptedSuffix_nodup _, manifest, evidence, ?_⟩
    unfold manifestMatches at matched
    simp only [decide_eq_true_eq] at matched
    exact matched.2.2.2.2.2
  · simp at h

/-- **Recovery is exact and final.** A recovery succeeds only if the manifest replays exactly the
operations of the lost epoch that the cloud has receipted beyond the backup, one for each number
up to the cursor, and the node claims none beyond it. After it succeeds, whatever is asked of the
cloud, no upload adds an operation to the lost epoch or moves its cursor. -/
theorem recovery_final (unique : UniqueSequences s)
    (h : recoverLostNode env s t n e r backup hash checkpoint token now = .ok (x, s')) :
    (r.declaredLastSequence = cloudCursor s t e ∧ ∃ ops, Replays s (t, e) backup ops ∧
      (ops.map EventOperation.operationId).Nodup ∧
      ReplayedIds checkpoint (ops.map EventOperation.operationId)) ∧
    ∀ rs s'', CloudRun env s' rs s'' → ∀ t' capability batch,
      acceptedOf (ingestBatch env s'' t' capability batch).1 t e = acceptedOf s t e ∧
      cloudCursor (ingestBatch env s'' t' capability batch).1 t e = cloudCursor s t e := by
  refine ⟨recoverLostNode_replays unique h, ?_⟩
  intro rs s'' run t' capability batch
  have later := ((recoverLostNode_seals h).run run).serve env (.upload t' capability batch)
  exact ⟨later.operations, later.cursor⟩

end

namespace Rehearsal

def backupHash : String := "e3b0c44298fc1c149afbf4c8996fb92427ae41e4649b934ca495991b7852b855"

def recoveryCheckpoint : JsonObject :=
  checkpoint ++ [("recovery", .obj [("sourceAuthorityEpoch", .int 1), ("backupSequence", .int 0),
    ("backupHash", .str backupHash), ("cloudSequence", .int 2),
    ("replayedOperationIds", .arr [.str call.operationId, .str start.operationId])])]

def laptopLost : TransitionRequest := ⟨director, spare, "Laptop stolen", 2, true⟩

def recover : Except Raised ((TournamentAuthority × TournamentAuthority × String) × Store) :=
  recoverLostNode env uploaded eventId spare 1 laptopLost 0 backupHash recoveryCheckpoint
    spareCapability now

end Rehearsal

open Rehearsal in
theorem recovery_final_rehearsal : ∃ x s', recover = .ok (x, s') ∧
    (∃ ops, Replays uploaded (eventId, 1) 0 ops ∧ ops.map EventOperation.sequence = [1, 2]) ∧
    ∀ capability batch,
      acceptedOf (ingestBatch env s' eventId capability batch).1 eventId 1 =
        acceptedOf uploaded eventId 1 := by
  obtain ⟨⟨x, s'⟩, ok⟩ := exists_ok_of_toOption (x := recover) (by decide +kernel)
  have unique : UniqueSequences uploaded := by
    unfold UniqueSequences
    decide +kernel
  have cursor : cloudCursor uploaded eventId 1 = 2 := by decide +kernel
  obtain ⟨⟨-, ops, replays, -, -⟩, final⟩ := recovery_final unique ok
  refine ⟨x, s', ok, ⟨ops, replays, ?_⟩, fun capability batch => (final [] s' (.nil s') eventId
    capability batch).1⟩
  rw [replays.sequences, cursor]
  rfl

open Rehearsal in
/-- A recovery that succeeds replays what the cloud has receipted: its manifest names two
operations, and beyond the last receipted sequence the epoch has none. -/
theorem recovery_replays_receipted :
    (∃ x s', recover = .ok (x, s')) ∧
    ReplayedIds recoveryCheckpoint [call.operationId, start.operationId] ∧
    ¬ ReplayedIds recoveryCheckpoint (((acceptedOf uploaded eventId 1).filter fun o =>
      cloudCursor uploaded eventId 1 < o.sequence).map EventOperation.operationId) := by
  obtain ⟨⟨x, s'⟩, ok⟩ := exists_ok_of_toOption (x := recover) (by decide +kernel)
  refine ⟨⟨x, s', ok⟩, ⟨_, rfl, rfl⟩, ?_⟩
  have none : (acceptedOf uploaded eventId 1).filter (fun o =>
      cloudCursor uploaded eventId 1 < o.sequence) = [] := by decide +kernel
  rw [none]
  rintro ⟨manifest, found, named⟩
  cases found
  cases named

end Sync
