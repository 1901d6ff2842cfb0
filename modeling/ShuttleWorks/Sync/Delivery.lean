import ShuttleWorks.Sync.Acceptance
import ShuttleWorks.Sync.Agent

/-! Delivery of the operation log: an event node that appends and drains, against
a cloud that ingests. A pass that finds every earlier unacknowledged row due with
a later one posts a batch from the lowest unacknowledged sequence on, and the
cloud has no gap to report. -/

namespace Sync
open Lib

/-! ## The log of a node -/

def nextSequenceOf (s : Store) (t : Uuid) (e : Nat) : Nat :=
  ((s.operationSequences.get (t, e)).map EventOperationSequence.nextSequence).getD 1

theorem nextSequenceOf_ensure (s : Store) (t : Uuid) (e : Nat) (t' : Uuid) (e' : Nat) :
    nextSequenceOf (ensureOperationSequence s t e) t' e' = nextSequenceOf s t' e' := by
  unfold ensureOperationSequence
  split
  · rfl
  · next absent =>
    simp only [nextSequenceOf, Table.get_put]
    split
    · next hk =>
      have none : s.operationSequences.get (t', e') = none :=
        Table.get_eq_none_iff.mpr (hk ▸ absent)
      simp [none]
    · rfl

variable {s s' : Store} {actor : Option TransitionActor} {t : Uuid} {a : TournamentAuthority}
  {n : Uuid} {e : Nat} {op : LocalOperation} {o : EventOperation} {c : AgentConfig}
  {p : EventOperation} {os : List EventOperation} {r : Rejection} {l : Link}
  {f : SyncOutbox → SyncOutbox} {operations : List EventOperation} {highest : Nat}
  {acknowledgedAt : Int}

theorem ensureLocalAuthority_log {env : Env} {checkpoint : JsonObject} {token : String}
    {now : Timestamp}
    (h : ensureLocalAuthority env s actor t n checkpoint token now = .ok (a, s')) :
    s'.operations = s.operations ∧ s'.outbox = s.outbox ∧
      ∀ t' e', nextSequenceOf s' t' e' = nextSequenceOf s t' e' := by
  unfold ensureLocalAuthority at h
  cases ha : activeAuthority s t with
  | some active =>
    simp only [ha, bind_eq_ok, require_eq_ok] at h
    obtain ⟨_, _, h⟩ := h
    cases h
    exact ⟨rfl, rfl, fun _ _ => rfl⟩
  | none =>
    simp only [ha, bind_eq_ok] at h
    obtain ⟨tournament, _, device, _, grant, _, s₁, h₁, h⟩ := h
    cases h
    obtain ⟨-, u, -, rfl⟩ := insertAuthority_eq_ok h₁
    obtain ⟨q, hq⟩ := ensureOperationSequence_eq { s with authorities := u } t (nextEpoch s t)
    refine ⟨?_, ?_, fun t' e' => ?_⟩
    · simp [recordEpochCreation, appendTransition, hq, grantedAuthority]
    · simp [recordEpochCreation, appendTransition, hq, grantedAuthority]
    · exact nextSequenceOf_ensure { s with authorities := u } t (nextEpoch s t) t' e'

theorem allocateOperationSequence_log {n : Nat}
    (h : allocateOperationSequence s t e = .ok (n, s')) :
    s'.operations = s.operations ∧ s'.outbox = s.outbox ∧ n = nextSequenceOf s t e ∧
      ∀ t' e', nextSequenceOf s' t' e' =
        nextSequenceOf s t' e' + if (t, e) = (t', e') then 1 else 0 := by
  unfold allocateOperationSequence at h
  simp only [bind_eq_ok, found_eq_ok] at h
  obtain ⟨row, hrow, h⟩ := h
  have next : nextSequenceOf (ensureOperationSequence s t e) t e = row.nextSequence := by
    simp [nextSequenceOf, hrow]
  have key : row.key = (t, e) := Table.key_of_get hrow
  obtain ⟨q, hq⟩ := ensureOperationSequence_eq s t e
  cases h
  refine ⟨by rw [hq], by rw [hq], ?_, fun t' e' => ?_⟩
  · rw [← next, nextSequenceOf_ensure]
  · rw [← nextSequenceOf_ensure s t e t' e', nextSequenceOf, Table.get_put]
    have key' : EventOperationSequence.key { row with nextSequence := row.nextSequence + 1 } =
        (t, e) := key
    rw [key']
    by_cases hk : (t, e) = (t', e')
    · simp only [Prod.mk.injEq] at hk
      obtain ⟨rfl, rfl⟩ := hk
      simp [next]
    · rw [if_neg hk, if_neg hk]
      rfl

theorem appendLocalOperation_eq_ok {env : Env} {inputs : AppendInputs}
    (h : appendLocalOperation env s actor t n op inputs = .ok (o, s')) :
    o.tournamentId = t ∧ o.nodeId = n ∧ o.schemaVersion = currentOperationSchemaVersion ∧
      o.sequence = nextSequenceOf s t o.authorityEpoch ∧
      s'.operations.rows = s.operations.rows ++ [o] ∧
      s'.outbox.rows = s.outbox.rows ++ [{ operationId := o.operationId }] ∧
      ∀ t' e', nextSequenceOf s' t' e' =
        nextSequenceOf s t' e' + if (t, o.authorityEpoch) = (t', e') then 1 else 0 := by
  unfold appendLocalOperation at h
  simp only [bind_eq_ok] at h
  obtain ⟨⟨a, s₁⟩, h₁, ⟨q, s₂⟩, h₂, s₃, h₃, h⟩ := h
  obtain ⟨operations₁, outbox₁, next₁⟩ := ensureLocalAuthority_log h₁
  obtain ⟨operations₂, outbox₂, hq, next₂⟩ := allocateOperationSequence_log h₂
  obtain ⟨u, hu, rfl⟩ := insertOperation_eq_ok h₃
  split at h
  · cases h
  · next outbox hi =>
    have rows := (Table.insert_eq_some.mp hi).2
    simp only [Except.ok.injEq, Prod.mk.injEq] at h
    obtain ⟨rfl, rfl⟩ := h
    refine ⟨rfl, rfl, rfl, ?_, ?_, ?_, fun t' e' => ?_⟩
    · rw [← next₁]
      exact hq
    · rw [← operations₁, ← operations₂]
      exact hu
    · rw [← outbox₁, ← outbox₂]
      exact rows
    · rw [← next₁]
      exact next₂ t' e'

def Acked (s : Store) (o : EventOperation) : Prop :=
  ∃ r, s.outbox.get o.operationId = some r ∧ r.acknowledgedAt ≠ none

def Due (s : Store) (now : Int) (o : EventOperation) : Prop :=
  ∃ r, s.outbox.get o.operationId = some r ∧ r.due now

theorem Due.not_acked {now : Int} (h : Due s now o) :
    ¬ Acked s o := by
  obtain ⟨r, hr, due⟩ := h
  rintro ⟨r', hr', acked⟩
  rw [hr] at hr'
  cases hr'
  simp only [SyncOutbox.due, decide_eq_true_eq] at due
  exact acked due.1

/-- A node's log: its own operations, numbered from 1 in each epoch, each with
an outbox row, of which the acknowledged ones come first. -/
structure Logged (c : AgentConfig) (s : Store) : Prop where
  own : ∀ o ∈ s.operations.rows, o.tournamentId = c.tournamentId ∧ o.nodeId = c.nodeId ∧
    supportsOperationSchema o.schemaVersion
  numbered : ∀ e, (acceptedOf s c.tournamentId e).map EventOperation.sequence =
    List.range' 1 (acceptedOf s c.tournamentId e).length
  next : ∀ e, nextSequenceOf s c.tournamentId e = (acceptedOf s c.tournamentId e).length + 1
  outboxed : ∀ o ∈ s.operations.rows, s.outbox.Has o.operationId
  closed : ∀ o ∈ s.operations.rows, ∀ p ∈ s.operations.rows, o.authorityEpoch = p.authorityEpoch →
    o.sequence < p.sequence → Acked s p → Acked s o

/-- A node's log, in whatever order its operations are acknowledged. -/
structure Numbered (c : AgentConfig) (s : Store) : Prop where
  own : ∀ o ∈ s.operations.rows, o.tournamentId = c.tournamentId ∧ o.nodeId = c.nodeId ∧
    supportsOperationSchema o.schemaVersion
  numbered : ∀ e, (acceptedOf s c.tournamentId e).map EventOperation.sequence =
    List.range' 1 (acceptedOf s c.tournamentId e).length
  next : ∀ e, nextSequenceOf s c.tournamentId e = (acceptedOf s c.tournamentId e).length + 1
  outboxed : ∀ o ∈ s.operations.rows, s.outbox.Has o.operationId

theorem Logged.plain (h : Logged c s) : Numbered c s := ⟨h.own, h.numbered, h.next, h.outboxed⟩

theorem Numbered.mem_acceptedOf (h : Numbered c s) :
    o ∈ acceptedOf s c.tournamentId e ↔ o ∈ s.operations.rows ∧ o.authorityEpoch = e := by
  rw [acceptedOf, List.mem_filter]
  constructor
  · rintro ⟨ho, hk⟩
    simp only [EventOperation.epochKey, decide_eq_true_eq, Prod.mk.injEq] at hk
    exact ⟨ho, hk.2⟩
  · rintro ⟨ho, rfl⟩
    exact ⟨ho, by simp [EventOperation.epochKey, (h.own o ho).1]⟩

theorem Numbered.eq_of_slot (h : Numbered c s) (ho : o ∈ s.operations.rows) (hp : p ∈ s.operations.rows)
    (hslot : o.slot = p.slot) : o = p := by
  refine Sync.eq_of_slot ?_ ho hp hslot
  rw [(h.own o ho).1, h.numbered]
  exact List.nodup_range'

theorem Numbered.eq_of_sequence (h : Numbered c s) (ho : o ∈ s.operations.rows)
    (hp : p ∈ s.operations.rows) (epoch : o.authorityEpoch = p.authorityEpoch)
    (sequence : o.sequence = p.sequence) : o = p := by
  refine h.eq_of_slot ho hp ?_
  simp [EventOperation.slot, EventOperation.epochKey, (h.own o ho).1, (h.own p hp).1, epoch,
    sequence]

theorem Numbered.exists_of_lt (h : Numbered c s) (hp : p ∈ s.operations.rows) {q : Nat}
    (positive : 1 ≤ q) (hlt : q ≤ p.sequence) :
    ∃ o ∈ s.operations.rows, o.authorityEpoch = p.authorityEpoch ∧ o.sequence = q := by
  have mem := List.mem_map_of_mem (f := EventOperation.sequence)
    (h.mem_acceptedOf.mpr ⟨hp, rfl⟩)
  rw [h.numbered, List.mem_range'_1] at mem
  have taken : q ∈ (acceptedOf s c.tournamentId p.authorityEpoch).map EventOperation.sequence := by
    rw [h.numbered, List.mem_range'_1]
    omega
  obtain ⟨o, ho, hq⟩ := List.mem_map.mp taken
  obtain ⟨ho, epoch⟩ := h.mem_acceptedOf.mp ho
  exact ⟨o, ho, epoch, hq⟩

theorem Numbered.positive (h : Numbered c s) (hp : p ∈ s.operations.rows) : 1 ≤ p.sequence := by
  have mem := List.mem_map_of_mem (f := EventOperation.sequence)
    (h.mem_acceptedOf.mpr ⟨hp, rfl⟩)
  rw [h.numbered, List.mem_range'_1] at mem
  omega

/-! ## The batch of a pass -/

/-- With a due row every earlier unacknowledged row of its epoch is due. -/
def InOrder (s : Store) (now : Int) : Prop :=
  ∀ o ∈ s.operations.rows, ∀ p ∈ s.operations.rows, o.authorityEpoch = p.authorityEpoch →
    o.sequence < p.sequence → ¬ Acked s o → Due s now p → Due s now o

/-- Unacknowledged operations of one epoch, from the lowest sequence on and
without a gap. -/
structure FromLowest (s : Store) (operations : List EventOperation) (e first : Nat) : Prop where
  stored : ∀ o ∈ operations, o ∈ s.operations.rows ∧ o.authorityEpoch = e ∧ ¬ Acked s o
  contiguous : operations.map EventOperation.sequence = List.range' first operations.length
  lowest : ∀ o ∈ s.operations.rows, o.authorityEpoch = e → ¬ Acked s o → first ≤ o.sequence

instance : Std.Total EventOperation.sortsBefore :=
  ⟨fun o p => by unfold EventOperation.sortsBefore; omega⟩

instance : IsTrans EventOperation EventOperation.sortsBefore :=
  ⟨fun o p q => by unfold EventOperation.sortsBefore; omega⟩

theorem mem_pendingBatch {now : Int} (h : o ∈ pendingBatch c s now) :
    o ∈ s.operations.rows ∧ Due s now o := by
  have h := List.mem_of_mem_take h
  rw [List.mem_insertionSort, List.mem_filter] at h
  simp only [decide_eq_true_eq, Option.any_eq_true] at h
  exact ⟨h.1, h.2.2.2⟩

theorem mem_pendingBatch_of_before (hs : Logged c s) {now : Int} (ho : o ∈ s.operations.rows)
    (due : Due s now o) (hp : p ∈ pendingBatch c s now) (before : ¬ p.sortsBefore o) :
    o ∈ pendingBatch c s now := by
  unfold pendingBatch at hp ⊢
  set sorted := (s.operations.rows.filter (fun o => o.tournamentId = c.tournamentId ∧
    o.nodeId = c.nodeId ∧ (s.outbox.get o.operationId).any (SyncOutbox.due now))).insertionSort
      EventOperation.sortsBefore with hsorted
  have selected : o ∈ sorted := by
    rw [hsorted, List.mem_insertionSort, List.mem_filter]
    obtain ⟨tournament, node, -⟩ := hs.own o ho
    simp only [decide_eq_true_eq, Option.any_eq_true]
    exact ⟨ho, tournament, node, due⟩
  have pairwise : sorted.Pairwise EventOperation.sortsBefore := List.pairwise_insertionSort _ _
  rw [← List.take_append_drop c.syncBatchSize sorted, List.mem_append] at selected
  rcases selected with taken | dropped
  · exact taken
  · rw [← List.take_append_drop c.syncBatchSize sorted, List.pairwise_append] at pairwise
    exact absurd (pairwise.2.2 p hp o dropped) before

theorem sameEpoch_sublist (os : List EventOperation) : (sameEpoch os).Sublist os := by
  cases os with
  | nil => exact .slnil
  | cons o os => exact List.filter_sublist

theorem mem_sameEpoch {ps : List EventOperation} (h : sameEpoch os = o :: ps) {q : EventOperation} :
    q ∈ o :: ps ↔ q ∈ os ∧ q.authorityEpoch = o.authorityEpoch := by
  cases os with
  | nil => simp [sameEpoch] at h
  | cons b bs =>
    have member : ∀ q, q ∈ o :: ps ↔ q ∈ b :: bs ∧ q.authorityEpoch = b.authorityEpoch := by
      intro q
      rw [← h, sameEpoch, List.mem_filter, decide_eq_true_eq]
    have first := ((member o).mp List.mem_cons_self).2
    rw [member, first]

theorem pendingBatch_sequences (hs : Logged c s) {now : Int}
    (sublist : os.Sublist (pendingBatch c s now)) (epoch : ∀ o ∈ os, o.authorityEpoch = e) :
    (os.map EventOperation.sequence).Pairwise (· < ·) := by
  have sorted : os.Pairwise EventOperation.sortsBefore := by
    refine List.Pairwise.sublist (sublist.trans (List.take_sublist _ _)) ?_
    exact List.pairwise_insertionSort _ _
  have nodup : os.Nodup := by
    refine (sublist.trans (List.take_sublist _ _)).nodup ?_
    rw [List.Perm.nodup_iff (List.perm_insertionSort _ _)]
    exact s.operations.unique.of_map.filter _
  rw [List.pairwise_map]
  refine (sorted.and nodup).imp_of_mem fun {o p} ho hp h => ?_
  obtain ⟨h, hne⟩ := h
  have same := (epoch o ho).trans (epoch p hp).symm
  have distinct : o.sequence ≠ p.sequence := fun hq =>
    hne (hs.plain.eq_of_sequence (mem_pendingBatch (sublist.subset ho)).1
      (mem_pendingBatch (sublist.subset hp)).1 same hq)
  unfold EventOperation.sortsBefore at h
  omega

/-- **The batch.** When rows are due in order, a pass posts the operations of one
epoch from the lowest unacknowledged sequence on, without a gap. -/
theorem sameEpoch_fromLowest (hs : Logged c s) {now : Int} (inOrder : InOrder s now)
    (posted : sameEpoch (pendingBatch c s now) = o :: os) :
    FromLowest s (o :: os) o.authorityEpoch o.sequence := by
  have sublist : (o :: os).Sublist (pendingBatch c s now) := posted ▸ sameEpoch_sublist _
  have epoch : ∀ p ∈ o :: os, p.authorityEpoch = o.authorityEpoch :=
    fun p hp => ((mem_sameEpoch posted).mp hp).2
  have stored : ∀ p ∈ o :: os, p ∈ s.operations.rows ∧ Due s now p :=
    fun p hp => mem_pendingBatch (sublist.subset hp)
  have sequences := pendingBatch_sequences hs sublist epoch
  have first : ∀ p ∈ o :: os, o.sequence ≤ p.sequence := by
    intro p hp
    rcases List.mem_cons.mp hp with rfl | hp
    · exact Nat.le_refl _
    · rw [List.map_cons, List.pairwise_cons] at sequences
      exact (sequences.1 _ (List.mem_map_of_mem hp)).le
  -- an unacknowledged operation of the epoch before a posted one is posted
  have earlier : ∀ q ∈ s.operations.rows, q.authorityEpoch = o.authorityEpoch → ¬ Acked s q →
      ∀ p ∈ o :: os, q.sequence < p.sequence → q ∈ o :: os := by
    intro q hq hqe unacked p hp hlt
    have due := inOrder q hq p (stored p hp).1 (hqe.trans (epoch p hp).symm) hlt unacked
      (stored p hp).2
    have before : ¬ p.sortsBefore q := by
      have := epoch p hp
      unfold EventOperation.sortsBefore
      omega
    exact (mem_sameEpoch posted).mpr
      ⟨mem_pendingBatch_of_before hs hq due (sublist.subset hp) before, hqe⟩
  refine ⟨fun p hp => ⟨(stored p hp).1, epoch p hp, (stored p hp).2.not_acked⟩, ?_, ?_⟩
  · have closed : ∀ x ∈ (o :: os).map EventOperation.sequence, ∀ y, o.sequence ≤ y → y < x →
        y ∈ (o :: os).map EventOperation.sequence := by
      intro x hx y hy hlt
      obtain ⟨p, hp, rfl⟩ := List.mem_map.mp hx
      have positive := hs.plain.positive (stored o List.mem_cons_self).1
      obtain ⟨q, hq, hqe, rfl⟩ := hs.plain.exists_of_lt (stored p hp).1 (by omega) hlt.le
      have hqe := hqe.trans (epoch p hp)
      have unacked : ¬ Acked s q := by
        intro acked
        have headUnacked := (stored o List.mem_cons_self).2.not_acked
        have head := (stored o List.mem_cons_self).1
        rcases Nat.lt_or_eq_of_le hy with hlt | heq
        · exact headUnacked (hs.closed o head q hq hqe.symm hlt acked)
        · rw [← hs.plain.eq_of_sequence head hq hqe.symm heq] at acked
          exact headUnacked acked
      exact List.mem_map_of_mem (earlier q hq hqe unacked p hp hlt)
    have lower : ∀ x ∈ (o :: os).map EventOperation.sequence, o.sequence ≤ x := by
      intro x hx
      obtain ⟨p, hp, rfl⟩ := List.mem_map.mp hx
      exact first p hp
    have interval := eq_range'_of_closed sequences lower closed
    rwa [List.length_map] at interval
  · intro q hq hqe unacked
    by_contra hlt
    have posted := earlier q hq hqe unacked o List.mem_cons_self (by omega)
    have := first q posted
    omega

/-! ## The cloud's answer -/

/-- Up to the cursor the cloud holds the operation, beyond it has no receipt. -/
def KnownUpTo (s : Store) (current : Nat) (o : OperationEnvelope) : Prop :=
  (o.sequence ≤ current →
    ∃ p ∈ s.operations.rows, p.operationId = o.operationId ∧ p.sequence ≤ current) ∧
  (current < o.sequence → s.inbox.get o.operationId = none)

/-- Consecutive known envelopes, from the cursor's next sequence at most, are
refused for a command class that is not granted and for nothing else. -/
theorem validateOperations_refuses (hs : Sound s) {batch : SyncBatchRequest}
    {current f expected : Nat} {os : List OperationEnvelope}
    (sequences : os.map OperationEnvelope.sequence = List.range' f os.length)
    (next : expected = max f (current + 1))
    (scope : ∀ o ∈ os, inScope t batch o ∧ supportsOperationSchema o.schemaVersion)
    (known : ∀ o ∈ os, KnownUpTo s current o) {o : OperationEnvelope}
    (h : validateOperations s a t batch current expected os = .error (o, r)) :
    o ∈ os ∧ o.commandType ∉ a.allowedCommandClasses.getD [] ∧
      r.reason = "command_class_not_granted" := by
  induction os generalizing f expected with
  | nil => cases h
  | cons p os ih =>
    simp only [List.map_cons, List.length_cons, List.range'_succ, List.cons.injEq] at sequences
    obtain ⟨first, rest⟩ := sequences
    have isNext : current < p.sequence → p.sequence = expected := by omega
    have afterNew : current < p.sequence → expected + 1 = max (f + 1) (current + 1) := by omega
    have afterDuplicate : p.sequence ≤ current → expected = max (f + 1) (current + 1) := by omega
    obtain ⟨inScope, supported⟩ := scope p List.mem_cons_self
    obtain ⟨held, fresh⟩ := known p List.mem_cons_self
    have scope' := fun q hq => scope q (List.mem_cons_of_mem _ hq)
    have known' := fun q hq => known q (List.mem_cons_of_mem _ hq)
    unfold validateOperations at h
    by_cases granted : p.commandType ∈ a.allowedCommandClasses.getD []
    · rcases Nat.lt_or_ge current p.sequence with ahead | behind
      · have isNew : judge s a t batch current expected p = .new :=
          judge_eq_new.mpr ⟨inScope, supported, granted, fresh ahead, isNext ahead⟩
        rw [isNew] at h
        cases hv : validateOperations s a t batch current (expected + 1) os with
        | ok v => simp [hv, Except.map] at h
        | error e =>
          simp only [hv, Except.map, Except.error.injEq] at h
          subst h
          obtain ⟨mem, refused⟩ := ih rest (afterNew ahead) scope' known' hv
          exact ⟨List.mem_cons_of_mem _ mem, refused⟩
      · have isDuplicate : judge s a t batch current expected p = .duplicate :=
          (judge_eq_duplicate hs).mpr ⟨inScope, supported, granted, held behind⟩
        rw [isDuplicate] at h
        cases hv : validateOperations s a t batch current expected os with
        | ok v => simp [hv, Except.map] at h
        | error e =>
          simp only [hv, Except.map, Except.error.injEq] at h
          subst h
          obtain ⟨mem, refused⟩ := ih rest (afterDuplicate behind) scope' known' hv
          exact ⟨List.mem_cons_of_mem _ mem, refused⟩
    · simp only [judge, inScope, supported, granted, not_true_eq_false, ↓reduceIte,
        not_false_eq_true, Except.error.injEq, Prod.mk.injEq] at h
      obtain ⟨rfl, rfl⟩ := h
      exact ⟨List.mem_cons_self, granted, rfl⟩

/-! ## The node and the cloud together -/

/-- What the cloud holds was sent by the node, and what the node counts as
acknowledged the cloud holds. -/
structure Linked (c : AgentConfig) (l : Link) : Prop where
  sound : Sound l.cloud
  log : Logged c l.node
  sent : ∀ p ∈ l.cloud.operations.rows, ∃ o ∈ l.node.operations.rows,
    o.operationId = p.operationId ∧ o.slot = p.slot
  held : ∀ o ∈ l.node.operations.rows, Acked l.node o →
    o.sequence ≤ cloudCursor l.cloud c.tournamentId o.authorityEpoch

theorem Linked.known (h : Linked c l) (ho : o ∈ l.node.operations.rows) :
    KnownUpTo l.cloud (cloudCursor l.cloud c.tournamentId o.authorityEpoch)
      (o.envelope c.column) := by
  have contiguous := h.sound.contiguous c.tournamentId o.authorityEpoch
  have key : o.epochKey = (c.tournamentId, o.authorityEpoch) := by
    simp [EventOperation.epochKey, (h.log.own o ho).1]
  constructor
  · intro hle
    have positive := h.log.plain.positive ho
    have mem : o.sequence ∈ (acceptedOf l.cloud c.tournamentId o.authorityEpoch).map
        EventOperation.sequence := by
      rw [contiguous, List.mem_range'_1]
      have : o.sequence ≤ cloudCursor l.cloud c.tournamentId o.authorityEpoch := hle
      omega
    obtain ⟨p, hp, hq⟩ := List.mem_map.mp mem
    obtain ⟨hp, hk⟩ := List.mem_filter.mp hp
    obtain ⟨o', ho', hid, hslot⟩ := h.sent p hp
    have same : o' = o := by
      refine h.log.plain.eq_of_slot ho' ho (hslot.trans ?_)
      simp only [EventOperation.slot, of_decide_eq_true hk, key, hq]
    exact ⟨p, hp, by rw [← hid, same]; rfl, hq ▸ hle⟩
  · intro hlt
    rw [h.sound.inbox_get_eq_none, Table.has_iff]
    rintro ⟨p, hp, hid⟩
    obtain ⟨o', ho', hid', hslot⟩ := h.sent p hp
    have same : o' = o := Table.eq_of_key_eq ho' ho (hid'.trans hid)
    rw [same] at hslot
    simp only [EventOperation.slot, Prod.mk.injEq] at hslot
    have mem : p.sequence ∈ List.range' 1
        (cloudCursor l.cloud c.tournamentId o.authorityEpoch) := by
      rw [← contiguous]
      refine List.mem_map_of_mem (List.mem_filter.mpr ⟨hp, ?_⟩)
      rw [← hslot.1, key]
      exact decide_eq_true rfl
    rw [List.mem_range'_1, ← hslot.2] at mem
    have : cloudCursor l.cloud c.tournamentId o.authorityEpoch < o.sequence := hlt
    omega

theorem Linked.first_le (h : Linked c l)
    (lowest : FromLowest l.node (o :: os) o.authorityEpoch o.sequence) :
    o.sequence ≤ cloudCursor l.cloud c.tournamentId o.authorityEpoch + 1 := by
  by_contra hlt
  have ho := (lowest.stored o List.mem_cons_self).1
  obtain ⟨q, hq, hqe, hqs⟩ := h.log.plain.exists_of_lt (q := cloudCursor l.cloud c.tournamentId
    o.authorityEpoch + 1) ho (by omega) (by omega)
  have acked : Acked l.node q := by
    by_contra unacked
    have := lowest.lowest q hq hqe unacked
    omega
  have := h.held q hq acked
  rw [hqe] at this
  omega

theorem syncBatch_eq_some {batch : SyncBatchRequest} (h : syncBatch c (o :: os) = some batch) :
    batch.nodeId = o.nodeId ∧ batch.authorityEpoch = o.authorityEpoch ∧
      batch.operations = (o :: os).map (EventOperation.envelope c.column) := by
  simp only [syncBatch] at h
  split at h
  · cases h
    exact ⟨rfl, rfl, rfl⟩
  · cases h

/-- The cloud's validation refuses a batch from the lowest unacknowledged
sequence for a command class that is not granted and for nothing else. -/
theorem Linked.validateOperations_refuses (h : Linked c l)
    (lowest : FromLowest l.node (o :: os) o.authorityEpoch o.sequence) {batch : SyncBatchRequest}
    (hb : syncBatch c (o :: os) = some batch) {e : OperationEnvelope}
    (hv : validateOperations l.cloud a c.tournamentId batch
      (cloudCursor l.cloud c.tournamentId batch.authorityEpoch)
      (cloudCursor l.cloud c.tournamentId batch.authorityEpoch + 1) batch.operations =
        .error (e, r)) :
    e ∈ batch.operations ∧ e.commandType ∉ a.allowedCommandClasses.getD [] ∧
      r.reason = "command_class_not_granted" := by
  obtain ⟨node, epoch, operations⟩ := syncBatch_eq_some hb
  have first := h.first_le lowest
  have ho := (lowest.stored o List.mem_cons_self).1
  rw [epoch] at hv
  refine Sync.validateOperations_refuses (f := o.sequence) h.sound ?_ (by omega) ?_ ?_ hv
  · rw [operations, List.map_map, List.length_map]
    exact lowest.contiguous
  · rw [operations]
    intro e he
    obtain ⟨p, hp, rfl⟩ := List.mem_map.mp he
    obtain ⟨stored, same, -⟩ := lowest.stored p hp
    obtain ⟨tournament, own, supported⟩ := h.log.own p stored
    exact ⟨⟨tournament, own.trans (node.trans (h.log.own o ho).2.1).symm, same.trans epoch.symm⟩,
      supported⟩
  · rw [operations]
    intro e he
    obtain ⟨p, hp, rfl⟩ := List.mem_map.mp he
    obtain ⟨stored, same, -⟩ := lowest.stored p hp
    exact same ▸ h.known stored

/-! ## What marking does to the log -/

theorem get_markOutbox (s : Store) (operations : List EventOperation)
    (hf : ∀ r, (f r).operationId = r.operationId) (id : Uuid) :
    (markOutbox s operations f hf).outbox.get id =
      (s.outbox.get id).map (rewriteOf operations f) :=
  Table.get_update s.outbox (rewriteOf_operationId hf) id

theorem markOutbox_has (s : Store) (operations : List EventOperation)
    (hf : ∀ r, (f r).operationId = r.operationId) (id : Uuid) :
    (markOutbox s operations f hf).outbox.Has id ↔ s.outbox.Has id := by
  rw [← not_iff_not, ← Table.get_eq_none_iff, ← Table.get_eq_none_iff, get_markOutbox,
    Option.map_eq_none_iff]

theorem acked_markOutbox {hf : ∀ r, (f r).operationId = r.operationId}
    (kept : ∀ r, (f r).acknowledgedAt = r.acknowledgedAt) (o : EventOperation) :
    Acked (markOutbox s operations f hf) o ↔ Acked s o := by
  have same : ∀ r, (rewriteOf operations f r).acknowledgedAt = r.acknowledgedAt := by
    intro r
    unfold rewriteOf
    split
    · exact kept r
    · rfl
  simp only [Acked, get_markOutbox, Option.map_eq_some_iff]
  constructor
  · rintro ⟨_, ⟨r, hr, rfl⟩, acked⟩
    exact ⟨r, hr, same r ▸ acked⟩
  · rintro ⟨r, hr, acked⟩
    exact ⟨_, ⟨r, hr, rfl⟩, (same r).symm ▸ acked⟩

theorem acked_markAcknowledged :
    Acked (markAcknowledged s operations highest acknowledgedAt) o ↔
      Acked s o ∨ s.outbox.Has o.operationId ∧
        ∃ p ∈ operations, p.operationId = o.operationId ∧ p.sequence ≤ highest := by
  simp only [Acked, markAcknowledged, get_markOutbox, Option.map_eq_some_iff, rewriteOf]
  constructor
  · rintro ⟨_, ⟨r, hr, rfl⟩, acked⟩
    have key : r.operationId = o.operationId := Table.key_of_get hr
    split at acked
    · next marked =>
      obtain ⟨p, hp, hid⟩ := marked
      obtain ⟨hp, hle⟩ := List.mem_filter.mp hp
      have hle := of_decide_eq_true hle
      refine Or.inr ⟨?_, p, hp, hid.trans key, hle⟩
      exact Table.has_iff.mpr ⟨r, Table.mem_of_get hr, key⟩
    · exact Or.inl ⟨r, hr, acked⟩
  · rintro (⟨r, hr, acked⟩ | ⟨has, p, hp, hid, hle⟩)
    · refine ⟨_, ⟨r, hr, rfl⟩, ?_⟩
      split
      · simp
      · exact acked
    · obtain ⟨r, hr, key⟩ := Table.has_iff.mp has
      refine ⟨_, ⟨r, Table.get_eq_some_iff.mpr ⟨hr, key⟩, rfl⟩, ?_⟩
      rw [if_pos ⟨p, List.mem_filter.mpr ⟨hp, decide_eq_true hle⟩, hid.trans key.symm⟩]
      simp

theorem Numbered.marked (h : Numbered c s) (operations : s'.operations = s.operations)
    (sequences : s'.operationSequences = s.operationSequences)
    (outboxed : ∀ id, s'.outbox.Has id ↔ s.outbox.Has id) : Numbered c s' where
  own := by rw [operations]; exact h.own
  numbered e := by simpa only [acceptedOf, operations] using h.numbered e
  next e := by simpa only [nextSequenceOf, acceptedOf, operations, sequences] using h.next e
  outboxed o ho := (outboxed o.operationId).mpr (h.outboxed o (operations ▸ ho))

theorem Logged.marked (h : Logged c s) (operations : s'.operations = s.operations)
    (sequences : s'.operationSequences = s.operationSequences)
    (outboxed : ∀ id, s'.outbox.Has id ↔ s.outbox.Has id)
    (closed : ∀ o ∈ s.operations.rows, ∀ p ∈ s.operations.rows,
      o.authorityEpoch = p.authorityEpoch → o.sequence < p.sequence → Acked s' p → Acked s' o) :
    Logged c s' := by
  obtain ⟨own, numbered, next, outboxed⟩ := h.plain.marked operations sequences outboxed
  exact ⟨own, numbered, next, outboxed, by rw [operations]; exact closed⟩

theorem Logged.failed {c : AgentConfig} {s : Store} (h : Logged c s)
    {operations : List EventOperation} {f : SyncOutbox → SyncOutbox}
    {hf : ∀ r, (f r).operationId = r.operationId}
    (kept : ∀ r, (f r).acknowledgedAt = r.acknowledgedAt) :
    Logged c (markOutbox s operations f hf) := by
  refine h.marked rfl rfl (markOutbox_has s operations hf) fun o ho p hp epoch hlt acked => ?_
  rw [acked_markOutbox kept] at acked ⊢
  exact h.closed o ho p hp epoch hlt acked

theorem Logged.acknowledged (h : Logged c s) {first : Nat}
    (lowest : FromLowest s operations e first) :
    Logged c (markAcknowledged s operations highest acknowledgedAt) := by
  refine h.marked rfl rfl (markOutbox_has s _ _) fun o ho p hp epoch hlt acked => ?_
  rw [acked_markAcknowledged] at acked ⊢
  rcases acked with acked | ⟨-, q, hq, hid, hle⟩
  · exact Or.inl (h.closed o ho p hp epoch hlt acked)
  · obtain ⟨stored, qe, -⟩ := lowest.stored q hq
    have same : q = p := Table.eq_of_key_eq stored hp hid
    subst same
    by_cases unacked : Acked s o
    · exact Or.inl unacked
    · have above := lowest.lowest o ho (epoch.trans qe) unacked
      have mem : o.sequence ∈ operations.map EventOperation.sequence := by
        have bound := List.mem_map_of_mem (f := EventOperation.sequence) hq
        rw [lowest.contiguous, List.mem_range'_1] at bound ⊢
        omega
      obtain ⟨r, hr, hrs⟩ := List.mem_map.mp mem
      obtain ⟨storedR, re, -⟩ := lowest.stored r hr
      have : r = o := h.plain.eq_of_sequence storedR ho (re.trans (qe.symm.trans epoch.symm)) hrs
      exact Or.inr ⟨h.outboxed o ho, r, hr, by rw [this], by omega⟩

theorem Numbered.append (h : Numbered c s) {inputs : AppendInputs}
    (happ : appendLocalOperation c.env s actor c.tournamentId c.nodeId op inputs = .ok (o, s')) :
    Numbered c s' ∧ (∀ p ∈ s.operations.rows, Acked s' p ↔ Acked s p) ∧ ¬ Acked s' o ∧
      ∀ p ∈ s.operations.rows, p.authorityEpoch = o.authorityEpoch → p.sequence < o.sequence := by
  obtain ⟨tournament, node, schema, sequence, operations, outbox, next⟩ :=
    appendLocalOperation_eq_ok happ
  have epochs : ∀ e, acceptedOf s' c.tournamentId e = acceptedOf s c.tournamentId e ++
      if (c.tournamentId, o.authorityEpoch) = (c.tournamentId, e) then [o] else [] := by
    intro e
    simp only [acceptedOf, operations, List.filter_append]
    congr 1
    by_cases he : o.authorityEpoch = e
    · simp [EventOperation.epochKey, tournament, he]
    · simp [EventOperation.epochKey, tournament, he]
  have get : ∀ id, s'.outbox.get id =
      if o.operationId = id then some { operationId := o.operationId } else s.outbox.get id :=
    Table.get_of_rows_concat outbox
  have unused : ∀ p ∈ s.operations.rows, o.operationId ≠ p.operationId := by
    intro p hp same
    exact Table.not_has_of_rows_concat outbox (same ▸ h.outboxed p hp)
  have old : ∀ p ∈ s.operations.rows, Acked s' p ↔ Acked s p := by
    intro p hp
    simp only [Acked, get, if_neg (unused p hp)]
  have new : ¬ Acked s' o := by
    rintro ⟨r, hr, acked⟩
    rw [get, if_pos rfl] at hr
    cases hr
    exact acked rfl
  have last : ∀ p ∈ s.operations.rows, p.authorityEpoch = o.authorityEpoch →
      p.sequence < o.sequence := by
    intro p hp epoch
    have mem := List.mem_map_of_mem (f := EventOperation.sequence)
      (h.mem_acceptedOf.mpr ⟨hp, epoch⟩)
    rw [h.numbered, List.mem_range'_1] at mem
    rw [sequence, h.next]
    omega
  refine ⟨⟨?_, ?_, ?_, ?_⟩, old, new, last⟩
  · intro p hp
    rw [operations, List.mem_append, List.mem_singleton] at hp
    rcases hp with hp | rfl
    · exact h.own p hp
    · exact ⟨tournament, node, by rw [schema]; rfl⟩
  · intro e
    rw [epochs]
    split
    · next he =>
      have he : o.authorityEpoch = e := (Prod.mk.inj he).2
      rw [List.map_append, h.numbered, List.map_singleton, sequence, h.next, he,
        List.length_append, List.length_singleton, List.range'_concat]
      simp [Nat.add_comm]
    · rw [List.append_nil]
      exact h.numbered e
  · intro e
    rw [next, epochs, h.next]
    split <;> simp
  · intro p hp
    rw [operations, List.mem_append, List.mem_singleton] at hp
    rw [Table.has_iff, outbox]
    rcases hp with hp | rfl
    · obtain ⟨r, hr, key⟩ := Table.has_iff.mp (h.outboxed p hp)
      exact ⟨r, List.mem_append_left _ hr, key⟩
    · exact ⟨{ operationId := p.operationId }, by simp, rfl⟩

theorem Logged.append (h : Logged c s) {inputs : AppendInputs}
    (happ : appendLocalOperation c.env s actor c.tournamentId c.nodeId op inputs = .ok (o, s')) :
    Logged c s' := by
  obtain ⟨plain, old, new, last⟩ := h.plain.append happ
  obtain ⟨-, -, -, -, operations, -, -⟩ := appendLocalOperation_eq_ok happ
  refine ⟨plain.own, plain.numbered, plain.next, plain.outboxed, ?_⟩
  intro p hp q hq epoch hlt acked
  rw [operations, List.mem_append, List.mem_singleton] at hp hq
  rcases hq with hq | rfl
  · rcases hp with hp | rfl
    · exact (old p hp).mpr (h.closed p hp q hq epoch hlt ((old q hq).mp acked))
    · have := last q hq epoch.symm
      omega
  · exact absurd acked new

/-! ## Runs of the node and the cloud -/

inductive LinkEvent
  | append (actor : Option TransitionActor) (op : LocalOperation) (inputs : AppendInputs)
  | drain (now : Int) (delivery : Delivery) (p : Pass) (acknowledgedAt : Int)
  /-- Another checkpoint's epoch is installed on the node. -/
  | install (authorities : Table TournamentAuthority.key)
  /-- The cloud serves a request other than an upload. -/
  | transition (r : Request)

def LinkStep (c : AgentConfig) (l : Link) : LinkEvent → Link → Prop
  | .append actor op inputs, l' => ∃ o node,
    appendLocalOperation c.env l.node actor c.tournamentId c.nodeId op inputs = .ok (o, node) ∧
      l' = { l with node := node }
  | .drain now delivery p acknowledgedAt, l' =>
    p.Jittered l.node ∧ l' = drainOnce c l now delivery p acknowledgedAt
  | .install authorities, l' => l' = { l with node := { l.node with authorities := authorities } }
  | .transition r, l' => (∀ t capability batch, r ≠ .upload t capability batch) ∧
    l' = { l with cloud := serve c.env l.cloud r }

/-- An empty log, and a cloud that accepted nothing yet. -/
structure LinkStart (c : AgentConfig) (l : Link) : Prop where
  operations : l.node.operations.rows = []
  allocators : ∀ q ∈ l.node.operationSequences.rows, q.nextSequence = 1
  cloud : CloudReachable c.env l.cloud
  cloudOperations : l.cloud.operations.rows = []

/-- A step that drains in order if it drains. -/
def LinkStepInOrder (c : AgentConfig) (l : Link) (event : LinkEvent) (l' : Link) : Prop :=
  LinkStep c l event l' ∧ ∀ now delivery p acknowledgedAt,
    event = .drain now delivery p acknowledgedAt → InOrder l.node now

/-- What the cloud holds the node sent as it is in its log, and what the node counts as acknowledged
the cloud holds, in whatever order rows are drained. -/
structure Delivered (c : AgentConfig) (l : Link) : Prop where
  sound : Sound l.cloud
  log : Numbered c l.node
  sent : ∀ p ∈ l.cloud.operations.rows, ∃ o ∈ l.node.operations.rows,
    p = .ofEnvelope c.tournamentId (o.envelope c.column)
  held : ∀ o ∈ l.node.operations.rows, Acked l.node o →
    o.sequence ≤ cloudCursor l.cloud c.tournamentId o.authorityEpoch

theorem Delivered.linked (h : Delivered c l) (log : Logged c l.node) : Linked c l := by
  refine ⟨h.sound, log, fun p hp => ?_, h.held⟩
  obtain ⟨o, ho, rfl⟩ := h.sent p hp
  refine ⟨o, ho, rfl, ?_⟩
  simp [EventOperation.slot, EventOperation.epochKey, EventOperation.ofEnvelope,
    EventOperation.envelope, (log.own o ho).1]

theorem LinkStart.logged (h : LinkStart c l) : Logged c l.node := by
  have empty : ∀ e, acceptedOf l.node c.tournamentId e = [] := by simp [acceptedOf, h.operations]
  refine ⟨?_, ?_, ?_, ?_, ?_⟩
  · simp [h.operations]
  · simp [empty]
  · intro e
    rw [empty, nextSequenceOf]
    cases hq : l.node.operationSequences.get (c.tournamentId, e) with
    | none => rfl
    | some q => simp [h.allocators q (Table.mem_of_get hq)]
  · simp [h.operations]
  · simp [h.operations]

theorem LinkStart.delivered (h : LinkStart c l) : Delivered c l :=
  ⟨CloudReachable.sound h.cloud, h.logged.plain, by simp [h.cloudOperations], by simp [h.operations]⟩

namespace Delivered

theorem append (h : Delivered c l) {inputs : AppendInputs} {node : Store}
    (happ : appendLocalOperation c.env l.node actor c.tournamentId c.nodeId op inputs =
      .ok (o, node)) : Delivered c { l with node := node } := by
  obtain ⟨-, -, -, -, operations, -, -⟩ := appendLocalOperation_eq_ok happ
  obtain ⟨log, old, new, -⟩ := h.log.append happ
  refine ⟨h.sound, log, fun p hp => ?_, fun p hp acked => ?_⟩
  · obtain ⟨q, hq, sent⟩ := h.sent p hp
    exact ⟨q, by simp [operations, hq], sent⟩
  · simp only [operations, List.mem_append, List.mem_singleton] at hp
    rcases hp with hp | rfl
    · exact h.held p hp ((old p hp).mp acked)
    · exact absurd acked new

theorem transition (h : Delivered c l) {r : Request}
    (hr : ∀ t capability batch, r ≠ .upload t capability batch) :
    Delivered c { l with cloud := serve c.env l.cloud r } := by
  have moves : ∀ s : Store, EpochMoves l.cloud s → Sound s ∧
      s.operations = l.cloud.operations ∧ ∀ t e, cloudCursor s t e = cloudCursor l.cloud t e := by
    intro s hs
    induction hs with
    | refl => exact ⟨h.sound, rfl, fun _ _ => rfl⟩
    | tail _ move ih =>
      obtain ⟨sound, operations, cursors⟩ := ih
      exact ⟨sound.move move, move.kept.operations.trans operations,
        fun t e => (move.cloudCursor_eq sound.cursorsKnown t e).trans (cursors t e)⟩
  obtain ⟨sound, operations, cursors⟩ := moves _ (serve_moves c.env l.cloud r hr)
  refine ⟨sound, h.log, ?_, fun o ho acked => ?_⟩
  · rw [operations]
    exact h.sent
  · rw [cursors]
    exact h.held o ho acked

theorem ingest (h : Delivered c l) {batch : SyncBatchRequest}
    (hb : syncBatch c (o :: os) = some batch) (stored : ∀ p ∈ o :: os, p ∈ l.node.operations.rows) :
    Delivered c { l with cloud :=
      (ingestBatch c.env l.cloud c.tournamentId c.capability batch).1 } ∧
    ∀ r, (ingestBatch c.env l.cloud c.tournamentId c.capability batch).2 = .ok r →
      r.highestContiguousSequence = cloudCursor
        (ingestBatch c.env l.cloud c.tournamentId c.capability batch).1 c.tournamentId
          o.authorityEpoch := by
  obtain ⟨-, epoch, operations⟩ := syncBatch_eq_some hb
  rcases ingestBatch_cases c.env l.cloud c.tournamentId c.capability batch with
    ⟨q, e, hq⟩ | ⟨a, news, s', r, hq, acc⟩
  · rw [hq]
    exact ⟨⟨h.sound.quarantined _, h.log, h.sent, h.held⟩, fun r hr => by cases hr⟩
  · rw [hq]
    have effect := acc.effect
    have rows : s'.operations.rows =
        l.cloud.operations.rows ++ news.map (.ofEnvelope c.tournamentId) :=
      effect.appended.operations
    refine ⟨⟨h.sound.effect effect, h.log, fun p hp => ?_, fun p hp acked => ?_⟩, fun r' hr => ?_⟩
    · simp only [rows, List.mem_append] at hp
      rcases hp with hp | hp
      · exact h.sent p hp
      · obtain ⟨e, he, rfl⟩ := List.mem_map.mp hp
        have mem := effect.validated.sublist.subset he
        rw [operations] at mem
        obtain ⟨q, hq, rfl⟩ := List.mem_map.mp mem
        exact ⟨q, stored q hq, rfl⟩
    · have := h.held p hp acked
      rw [effect.cloudCursor_eq]
      omega
    · cases hr
      rw [effect.highest, effect.cloudCursor_eq, ← epoch, if_pos rfl]

theorem failed {c : AgentConfig} {l : Link} (h : Delivered c l) {operations : List EventOperation}
    {f : SyncOutbox → SyncOutbox} {hf : ∀ r, (f r).operationId = r.operationId}
    (kept : ∀ r, (f r).acknowledgedAt = r.acknowledgedAt) :
    Delivered c { l with node := markOutbox l.node operations f hf } := by
  have log : Numbered c (markOutbox l.node operations f hf) :=
    h.log.marked rfl rfl (markOutbox_has l.node operations hf)
  refine ⟨h.sound, log, h.sent, fun o ho acked => ?_⟩
  rw [acked_markOutbox kept] at acked
  exact h.held o ho acked

theorem acknowledged (h : Delivered c l)
    (posted : ∀ p ∈ operations, p ∈ l.node.operations.rows ∧ p.authorityEpoch = e)
    (confirmed : highest = cloudCursor l.cloud c.tournamentId e) (acknowledgedAt : Int) :
    Delivered c { l with node := markAcknowledged l.node operations highest acknowledgedAt } := by
  have log : Numbered c (markAcknowledged l.node operations highest acknowledgedAt) :=
    h.log.marked rfl rfl (markOutbox_has l.node _ _)
  refine ⟨h.sound, log, h.sent, fun p hp acked => ?_⟩
  rcases acked_markAcknowledged.mp acked with acked | ⟨-, q, hq, hid, hle⟩
  · exact h.held p hp acked
  · obtain ⟨stored, epoch⟩ := posted q hq
    have same : q = p := Table.eq_of_key_eq stored hp hid
    rw [← same, epoch, ← confirmed]
    exact hle

theorem drain (h : Delivered c l) (now : Int) (delivery : Delivery) (p : Pass)
    (acknowledgedAt : Int) : Delivered c (drainOnce c l now delivery p acknowledgedAt) := by
  cases hops : sameEpoch (pendingBatch c l.node now) with
  | nil =>
    simp only [drainOnce, hops, syncBatch]
    exact h
  | cons o os =>
    have posted : ∀ q ∈ o :: os, q ∈ l.node.operations.rows ∧
        q.authorityEpoch = o.authorityEpoch := by
      intro q hq
      obtain ⟨selected, epoch⟩ := (mem_sameEpoch hops).mp hq
      exact ⟨(mem_pendingBatch selected).1, epoch⟩
    cases hb : syncBatch c (o :: os) with
    | none =>
      simp only [drainOnce, hops, hb]
      exact h
    | some batch =>
      obtain ⟨ingested, confirmed⟩ := h.ingest hb fun q hq => (posted q hq).1
      simp only [drainOnce, hops, hb]
      cases delivery with
      | lost code => exact h.failed fun _ => rfl
      | unheard code => exact ingested.failed fun _ => rfl
      | answered =>
        simp only
        cases ha : (ingestBatch c.env l.cloud c.tournamentId c.capability batch).2 with
        | ok r => exact ingested.acknowledged posted (confirmed r ha) acknowledgedAt
        | error e =>
          simp only [markAnswer]
          split
          · exact ingested.failed fun _ => rfl
          · exact ingested.failed fun _ => rfl

theorem step (h : Delivered c l) {event : LinkEvent} {l' : Link} (hstep : LinkStep c l event l') :
    Delivered c l' := by
  cases event with
  | append actor op inputs =>
    obtain ⟨o, node, happ, rfl⟩ := hstep
    exact h.append happ
  | drain now delivery p acknowledgedAt =>
    obtain ⟨-, rfl⟩ := hstep
    exact h.drain now delivery p acknowledgedAt
  | install authorities =>
    cases hstep
    exact ⟨h.sound, h.log.marked rfl rfl fun _ => Iff.rfl, h.sent, h.held⟩
  | transition r =>
    obtain ⟨hr, rfl⟩ := hstep
    exact h.transition hr

end Delivered

theorem delivered_of_reachable (h : Reachable (LinkStart c) (LinkStep c) l) : Delivered c l :=
  h.invariant (fun _ => LinkStart.delivered) fun _ _ _ _ h step => h.step step

def posts (c : AgentConfig) (s : Store) (now : Int) : Option SyncBatchRequest :=
  syncBatch c (sameEpoch (pendingBatch c s now))

theorem posts_eq_some (hs : Logged c s) {now : Int} (inOrder : InOrder s now)
    {batch : SyncBatchRequest} (h : posts c s now = some batch) :
    ∃ o os, sameEpoch (pendingBatch c s now) = o :: os ∧ syncBatch c (o :: os) = some batch ∧
      FromLowest s (o :: os) o.authorityEpoch o.sequence := by
  unfold posts at h
  cases hb : sameEpoch (pendingBatch c s now) with
  | nil => simp [hb, syncBatch] at h
  | cons o os => exact ⟨o, os, rfl, hb ▸ h, sameEpoch_fromLowest hs inOrder hb⟩

theorem Logged.drain (h : Logged c l.node) {now : Int} (inOrder : InOrder l.node now)
    (delivery : Delivery) (p : Pass) (acknowledgedAt : Int) :
    Logged c (drainOnce c l now delivery p acknowledgedAt).node := by
  cases hb : posts c l.node now with
  | none =>
    unfold posts at hb
    simp only [drainOnce, hb]
    exact h
  | some batch =>
    obtain ⟨o, os, posted, hb', lowest⟩ := posts_eq_some h inOrder hb
    simp only [drainOnce, posted, hb']
    have retried : ∀ code, Logged c (markRetry l.node (o :: os) code p) :=
      fun code => h.failed fun _ => rfl
    cases delivery with
    | lost code => exact retried code
    | unheard code => exact retried code
    | answered =>
      simp only
      cases (ingestBatch c.env l.cloud c.tournamentId c.capability batch).2 with
      | ok r => exact h.acknowledged lowest
      | error e =>
        simp only [markAnswer]
        split
        · exact retried _
        · exact h.failed fun _ => rfl

/-- The links that runs with every drain in order reach. -/
abbrev ReachesInOrder (c : AgentConfig) : Link → Prop :=
  Reachable (LinkStart c) (LinkStepInOrder c)

theorem ReachesInOrder.linked (h : ReachesInOrder c l) :
    Linked c l := by
  refine (delivered_of_reachable (h.mono fun _ _ _ step => step.1)).linked ?_
  refine h.invariant (I := fun l => Logged c l.node) (fun _ => LinkStart.logged) ?_
  rintro l event l' - logged ⟨step, inOrder⟩
  cases event with
  | append actor op inputs =>
    obtain ⟨o, node, happ, rfl⟩ := step
    exact logged.append happ
  | drain now delivery p acknowledgedAt =>
    obtain ⟨-, rfl⟩ := step
    exact logged.drain (inOrder now delivery p acknowledgedAt rfl) delivery p acknowledgedAt
  | install authorities =>
    cases step
    exact logged.marked rfl rfl (fun _ => Iff.rfl) logged.closed
  | transition r =>
    obtain ⟨-, rfl⟩ := step
    exact logged

/-! ## Any run -/

theorem getElem?_of_numbered {l : List EventOperation} {n i : Nat}
    (h : l.map EventOperation.sequence = List.range' 1 n) :
    l[i]? = some o ↔ o ∈ l ∧ o.sequence = i + 1 := by
  have number : ∀ j p, l[j]? = some p → p.sequence = j + 1 := by
    intro j p hp
    have at' := congrArg (fun l : List Nat => l[j]?) h
    simp only [List.getElem?_map, hp, Option.map_some] at at'
    obtain ⟨_, e⟩ := List.getElem?_eq_some_iff.mp at'.symm
    rw [List.getElem_range'] at e
    omega
  constructor
  · exact fun ho => ⟨List.mem_of_getElem? ho, number i o ho⟩
  · rintro ⟨mem, sequence⟩
    obtain ⟨j, hj⟩ := List.getElem?_of_mem mem
    have := number j o hj
    obtain rfl : j = i := by omega
    exact hj

/-- **What arrives is what was logged.** However appends, drains, lost posts, lost answers and
requests at the cloud follow each other, due in order or not: in each epoch the cloud's ledger is
the beginning of the node's log, each operation as the node's envelope has it, and the node counts
no operation as delivered that is not in that ledger. -/
theorem delivery_safe {c : AgentConfig} {l : Link} (h : Reachable (LinkStart c) (LinkStep c) l)
    (e : Nat) :
    acceptedOf l.cloud c.tournamentId e =
      ((acceptedOf l.node c.tournamentId e).take (cloudCursor l.cloud c.tournamentId e)).map
        (fun o => .ofEnvelope c.tournamentId (o.envelope c.column)) ∧
    ∀ o ∈ acceptedOf l.node c.tournamentId e, Acked l.node o →
      .ofEnvelope c.tournamentId (o.envelope c.column) ∈ acceptedOf l.cloud c.tournamentId e := by
  obtain ⟨sound, log, sent, held⟩ := delivered_of_reachable h
  have numbered := log.numbered e
  have contiguous := sound.contiguous c.tournamentId e
  have length : (acceptedOf l.cloud c.tournamentId e).length =
      cloudCursor l.cloud c.tournamentId e := by
    simpa using congrArg List.length contiguous
  have ledger : acceptedOf l.cloud c.tournamentId e =
      ((acceptedOf l.node c.tournamentId e).take (cloudCursor l.cloud c.tournamentId e)).map
        (fun o => .ofEnvelope c.tournamentId (o.envelope c.column)) := by
    refine List.ext_getElem? fun i => ?_
    rw [List.getElem?_map, List.getElem?_take]
    cases hp : (acceptedOf l.cloud c.tournamentId e)[i]? with
    | none =>
      have := List.getElem?_eq_none_iff.mp hp
      rw [if_neg (by omega)]
      rfl
    | some p =>
      have lt := (List.getElem?_eq_some_iff.mp hp).1
      obtain ⟨mem, sequence⟩ := (getElem?_of_numbered contiguous).mp hp
      obtain ⟨mem, key⟩ := List.mem_filter.mp mem
      obtain ⟨o, ho, rfl⟩ := sent p mem
      -- the operation sent has the same number in the node's log
      have epoch : o.authorityEpoch = e := (Prod.mk.inj (of_decide_eq_true key)).2
      have there := (getElem?_of_numbered numbered).mpr
        ⟨log.mem_acceptedOf.mpr ⟨ho, epoch⟩, sequence⟩
      rw [if_pos (by omega), there]
      rfl
  refine ⟨ledger, fun o ho acked => ?_⟩
  obtain ⟨stored, epoch⟩ := log.mem_acceptedOf.mp ho
  have reached := held o stored acked
  obtain ⟨i, hi⟩ := List.getElem?_of_mem ho
  have sequence := ((getElem?_of_numbered numbered).mp hi).2
  rw [ledger]
  refine List.mem_map_of_mem (List.mem_of_getElem? (i := i) ?_)
  rw [List.getElem?_take, if_pos (by rw [epoch] at reached; omega), hi]

/-! ## Drains in order -/

def Blocked (s : Store) (id : Uuid) : Prop :=
  ∃ r, s.outbox.get id = some r ∧ r.permanentlyBlockedAt ≠ none

theorem blocked_markOutbox {hf : ∀ r, (f r).operationId = r.operationId} {id : Uuid}
    (h : Blocked (markOutbox s operations f hf) id)
    (kept : ∀ r, (f r).permanentlyBlockedAt = r.permanentlyBlockedAt) : Blocked s id := by
  obtain ⟨r', hr', blocked⟩ := h
  rw [get_markOutbox, Option.map_eq_some_iff] at hr'
  obtain ⟨r, hr, rfl⟩ := hr'
  refine ⟨r, hr, ?_⟩
  unfold rewriteOf at blocked
  split at blocked
  · rwa [kept] at blocked
  · exact blocked

theorem blocked_markRetry {code : String} {p : Pass} {id : Uuid}
    (h : Blocked (markRetry s operations code p) id) : Blocked s id := by
  unfold markRetry at h
  exact blocked_markOutbox h fun _ => rfl

theorem blocked_markAcknowledged {id : Uuid}
    (h : Blocked (markAcknowledged s operations highest acknowledgedAt) id) : Blocked s id := by
  unfold markAcknowledged at h
  exact blocked_markOutbox h fun _ => rfl

theorem drainOnce_blocked {now : Int} {delivery : Delivery} {p : Pass} {batch : SyncBatchRequest}
    (hb : posts c l.node now = some batch) {id : Uuid}
    (h : Blocked (drainOnce c l now delivery p acknowledgedAt).node id) :
    Blocked l.node id ∨ delivery = .answered ∧ ∃ e,
      (ingestBatch c.env l.cloud c.tournamentId c.capability batch).2 = .error e ∧
        retryable (httpError e).1 = false := by
  unfold posts at hb
  simp only [drainOnce, hb] at h
  cases delivery with
  | lost code => exact Or.inl (blocked_markRetry h)
  | unheard code => exact Or.inl (blocked_markRetry h)
  | answered =>
    simp only at h
    cases ha : (ingestBatch c.env l.cloud c.tournamentId c.capability batch).2 with
    | ok r =>
      rw [ha] at h
      exact Or.inl (blocked_markAcknowledged h)
    | error e =>
      simp only [ha, markAnswer] at h
      split at h
      · exact Or.inl (blocked_markRetry h)
      · next final => exact Or.inr ⟨rfl, e, rfl, by simpa using final⟩

/-- **Drains in order.** In every run whose drains find their rows due in order,
a posted batch starts at the lowest unacknowledged sequence of its epoch and is
contiguous; the cloud's validation accepts it if the epoch grants its command
classes, and never quarantines it as a gap; and a pass blocks no row unless the
cloud itself answered with a final refusal. -/
theorem drains_in_order {c : AgentConfig} {l : Link} (h : ReachesInOrder c l) {now : Int}
    (inOrder : InOrder l.node now) {batch : SyncBatchRequest} (hb : posts c l.node now = some batch) :
    (∃ operations first, operations ≠ [] ∧
      batch.operations = operations.map (EventOperation.envelope c.column) ∧
      FromLowest l.node operations batch.authorityEpoch first) ∧
    (∀ a, l.cloud.authorities.get (c.tournamentId, batch.authorityEpoch) = some a →
      (∀ o ∈ batch.operations, o.commandType ∈ a.allowedCommandClasses.getD []) →
      ∃ accepted, validateOperations l.cloud a c.tournamentId batch
        (cloudCursor l.cloud c.tournamentId batch.authorityEpoch)
        (cloudCursor l.cloud c.tournamentId batch.authorityEpoch + 1) batch.operations =
          .ok accepted) ∧
    (∀ q ∈ (ingestBatch c.env l.cloud c.tournamentId c.capability batch).1.quarantine,
      q ∈ l.cloud.quarantine ∨ q.reasonCode ≠ "sequence_gap") ∧
    (∀ delivery p acknowledgedAt id,
      Blocked (drainOnce c l now delivery p acknowledgedAt).node id →
      Blocked l.node id ∨ delivery = .answered ∧ ∃ e,
        (ingestBatch c.env l.cloud c.tournamentId c.capability batch).2 = .error e ∧
          retryable (httpError e).1 = false) := by
  have linked := h.linked
  obtain ⟨o, os, -, hb', lowest⟩ := posts_eq_some linked.log inOrder hb
  obtain ⟨-, epoch, operations⟩ := syncBatch_eq_some hb'
  refine ⟨⟨o :: os, o.sequence, by simp, operations, epoch ▸ lowest⟩, ?_, ?_, ?_⟩
  · intro a _ granted
    cases hv : validateOperations l.cloud a c.tournamentId batch
        (cloudCursor l.cloud c.tournamentId batch.authorityEpoch)
        (cloudCursor l.cloud c.tournamentId batch.authorityEpoch + 1) batch.operations with
    | ok accepted => exact ⟨accepted, rfl⟩
    | error e =>
      obtain ⟨mem, refused, -⟩ := linked.validateOperations_refuses lowest hb' hv
      exact absurd (granted e.1 mem) refused
  · intro q hq
    refine (ingestBatch_quarantine hq).imp_right fun explained => ?_
    rcases explained with code | ⟨a, e, r, hv, code⟩
    · intro gap
      rw [gap] at code
      exact absurd code (by decide)
    · obtain ⟨-, -, reason⟩ := linked.validateOperations_refuses lowest hb' hv
      rw [code, reason]
      decide
  · intro delivery p acknowledgedAt id blocked
    exact drainOnce_blocked hb blocked

namespace Rehearsal

def agent : AgentConfig := ⟨env, eventId, laptop, laptopCapability, 100, id⟩

def courtside : Link := ⟨after checkedOut, after checkedOut⟩

def command (operationId : Uuid) (status : String) : LocalOperation where
  actorId := director
  commandType := "match.command.v1"
  aggregateType := "match"
  aggregateId := "MS1-R1-M1"
  payload := [("status", .str status)]
  operationId := some operationId

def inputs : AppendInputs := ⟨[], [], "", "", now⟩

def append (l : Link) (op : LocalOperation) : Link :=
  match appendLocalOperation env l.node none eventId laptop op inputs with
  | .ok (_, node) => { l with node := node }
  | .error _ => l

theorem append_step {l : Link} {op : LocalOperation}
    (h : (appendLocalOperation env l.node none eventId laptop op inputs).toOption.isSome) :
    LinkStep agent l (.append none op inputs) (append l op) := by
  obtain ⟨⟨o, node⟩, hok⟩ := exists_ok_of_toOption h
  exact ⟨o, node, hok, by simp [append, hok]⟩

def lateId : Uuid := "aaaaaaaa-aaaa-4aaa-8aaa-aaaaaaaaaaaa"

def called : Link := append courtside (command call.operationId "called")

def logged : Link := append called (command start.operationId "playing")

def pass : Pass := ⟨fun _ => 0, fun id => if id = lateId then 2000000 else 4000000⟩

def firstPass : Pass := ⟨fun _ => 0, fun _ => 2000000⟩

/-- The first operation is with the cloud, the second is logged after it. -/
def relayed : Link :=
  append (drainOnce agent called 0 .answered firstPass 0) (command start.operationId "playing")

def outage : Link :=
  append (drainOnce agent logged 0 (.lost "network_error") firstPass 0) (command lateId "finished")

def reconnected : Link := drainOnce agent outage 1000000 .answered pass 0

theorem linkStart_of_fresh (reachable : CloudReachable c.env s)
    (operations : s.operations.rows = [])
    (allocators : ∀ q ∈ s.operationSequences.rows, q.nextSequence = 1) : LinkStart c ⟨s, s⟩ :=
  ⟨operations, allocators, reachable, operations⟩

theorem courtside_start : LinkStart agent courtside := by
  have empty : (after checkedOut).operations.rows = [] := by decide +kernel
  have allocators : ∀ q ∈ (after checkedOut).operationSequences.rows, q.nextSequence = 1 := by
    decide +kernel
  have reachable : CloudReachable agent.env (after checkedOut) := after_reachable checkedOut
  exact linkStart_of_fresh reachable empty allocators

theorem logged_reachable {step : Link → LinkEvent → Link → Prop}
    (h : ∀ l op, LinkStep agent l (.append none op inputs) (append l op) →
      step l (.append none op inputs) (append l op)) :
    Reachable (LinkStart agent) step logged := by
  have first := @append_step courtside (command call.operationId "called")
    (by decide +kernel)
  have second := @append_step called (command start.operationId "playing") (by decide +kernel)
  exact .step (.step (.init courtside_start) (h _ _ first)) (h _ _ second)

theorem inOrder_of_none_acked {now : Int}
    (due : ∀ o ∈ s.operations.rows, (s.outbox.get o.operationId).any (SyncOutbox.due now)) :
    InOrder s now := by
  intro o ho p _ _ _ _ _
  have h := due o ho
  rw [Option.any_eq_true] at h
  exact h

end Rehearsal

open Rehearsal in
theorem drains_in_order_rehearsal :
    ∃ batch, posts agent logged.node 0 = some batch ∧ ∃ operations first,
      operations ≠ [] ∧ FromLowest logged.node operations batch.authorityEpoch first := by
  have reachable : ReachesInOrder agent logged :=
    logged_reachable fun l op h => ⟨h, fun _ _ _ _ e => by cases e⟩
  have inOrder : InOrder logged.node 0 := inOrder_of_none_acked (by decide +kernel)
  have posted : posts agent logged.node 0 =
      some ((posts agent logged.node 0).get (by decide +kernel)) := (Option.some_get _).symm
  obtain ⟨⟨operations, first, ne, -, lowest⟩, -⟩ := drains_in_order reachable inOrder posted
  exact ⟨_, posted, operations, first, ne, lowest⟩

open Rehearsal in
theorem delivery_safe_rehearsal :
    let l := drainOnce agent relayed 0 .answered firstPass 0
    (∃ e, (acceptedOf l.cloud eventId e).length = 2) ∧
      ∀ e, ∀ o ∈ acceptedOf l.node eventId e, Acked l.node o →
        .ofEnvelope eventId (o.envelope agent.column) ∈ acceptedOf l.cloud eventId e := by
  have first := @append_step courtside (command call.operationId "called")
    (by decide +kernel)
  have posted : LinkStep agent called (.drain 0 .answered firstPass 0)
      (drainOnce agent called 0 .answered firstPass 0) :=
    ⟨by unfold Pass.Jittered; decide +kernel, rfl⟩
  have second := @append_step (drainOnce agent called 0 .answered firstPass 0)
    (command start.operationId "playing") (by decide +kernel)
  have answered : LinkStep agent relayed (.drain 0 .answered firstPass 0)
      (drainOnce agent relayed 0 .answered firstPass 0) :=
    ⟨by unfold Pass.Jittered; decide +kernel, rfl⟩
  have reachable : Reachable (LinkStart agent) (LinkStep agent)
      (drainOnce agent relayed 0 .answered firstPass 0) :=
    .step (.step (.step (.step (.init courtside_start) first) posted) second) answered
  exact ⟨⟨1, by decide +kernel⟩, fun e => (delivery_safe reachable e).2⟩

open Rehearsal in
/-- One network error, then a batch of the third operation alone: the cloud
answers with a gap and the row is blocked for good. -/
theorem outage_blocks_log :
    Reachable (LinkStart agent) (LinkStep agent) reconnected ∧
    (posts agent outage.node 1000000).map (fun b => b.operations.map OperationEnvelope.sequence) =
      some [3] ∧
    (reconnected.cloud.quarantine.map SyncQuarantine.reasonCode) = ["sequence_gap"] ∧
    (reconnected.node.outbox.get lateId).map (fun r => (r.permanentlyBlockedAt, r.lastErrorCode)) =
      some (some 0, some "sequence_gap") := by
  have reachable : Reachable (LinkStart agent) (LinkStep agent) logged :=
    logged_reachable fun _ _ h => h
  have failed : LinkStep agent logged (.drain 0 (.lost "network_error") firstPass 0)
      (drainOnce agent logged 0 (.lost "network_error") firstPass 0) :=
    ⟨by unfold Pass.Jittered; decide +kernel, rfl⟩
  have late := @append_step (drainOnce agent logged 0 (.lost "network_error") firstPass 0)
    (command lateId "finished") (by decide +kernel)
  have answered : LinkStep agent outage (.drain 1000000 .answered pass 0) reconnected :=
    ⟨by unfold Pass.Jittered; decide +kernel, rfl⟩
  exact ⟨.step (.step (.step reachable failed) late) answered, by decide +kernel,
    by decide +kernel, by decide +kernel⟩

end Sync
