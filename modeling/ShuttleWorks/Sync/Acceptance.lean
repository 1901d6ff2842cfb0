import ShuttleWorks.Sync.Replay

/-! When an admitted batch is accepted: which of its operations are new, that
their rows can be inserted, and what the projection row decides. -/

namespace Sync
open Lib

/-! ## The new operations of a batch -/

def newOperations (s : Store) (batch : SyncBatchRequest) : List OperationEnvelope :=
  batch.operations.filter (fun o => ¬ s.inbox.Has o.operationId)

variable {s : Store} {a : TournamentAuthority} {t : Uuid} {news : List OperationEnvelope}
  {duplicates : Nat} {os : List OperationEnvelope} {capability : String} {x : Session} {e : Nat}
  {d : ProjectionData}

theorem validateOperations_new (hs : Sound s) {batch : SyncBatchRequest} {current expected : Nat}
    (h : validateOperations s a t batch current expected os = .ok (news, duplicates)) :
    news = os.filter (fun o => ¬ s.inbox.Has o.operationId) := by
  induction os generalizing expected news duplicates with
  | nil =>
    cases h
    rfl
  | cons o os ih =>
    unfold validateOperations at h
    cases hj : judge s a t batch current expected o with
    | rejected r => simp [hj] at h
    | duplicate =>
      obtain ⟨-, -, -, p, hp, hid, -⟩ := (judge_eq_duplicate hs).mp hj
      have seen : s.inbox.Has o.operationId := by
        by_contra hn
        have absent := hs.inbox_get_eq_none.mp (Table.get_eq_none_iff.mpr hn)
        exact absent (Table.has_iff.mpr ⟨p, hp, hid⟩)
      rw [hj] at h
      cases hv : validateOperations s a t batch current expected os with
      | error e => simp [hv, Except.map] at h
      | ok q =>
        simp only [hv, Except.map, Except.ok.injEq, Prod.mk.injEq] at h
        rw [← h.1, ih hv]
        simp [seen]
    | new =>
      obtain ⟨-, -, -, unseen, -⟩ := judge_eq_new.mp hj
      have unseen := Table.get_eq_none_iff.mp unseen
      rw [hj] at h
      cases hv : validateOperations s a t batch current (expected + 1) os with
      | error e => simp [hv, Except.map] at h
      | ok q =>
        simp only [hv, Except.map, Except.ok.injEq, Prod.mk.injEq] at h
        rw [← h.1, ih hv]
        simp [unseen]

theorem Accepts.new {env : Env} {s' : Store} (hs : Sound s) {batch : SyncBatchRequest}
    {r : SyncBatchResponse} (h : Accepts env s t capability batch a news s' r) :
    news = newOperations s batch := by
  obtain ⟨_, _, _, _, _, _, _, validated, -⟩ := h
  exact validateOperations_new hs validated

/-! ## Inserting the rows -/

def EventOperation.slot (o : EventOperation) : EpochKey × Nat := (o.epochKey, o.sequence)

/-- Receipted rows, after which `rows` can be inserted: no two under one id or
at one place. -/
structure Insertable (s : Store) (rows : List EventOperation) : Prop where
  receipts : s.inbox.rows = s.operations.rows.map EventOperation.inboxRow
  ids : ((s.operations.rows ++ rows).map EventOperation.operationId).Nodup
  slots : ((s.operations.rows ++ rows).map EventOperation.slot).Nodup

theorem Insertable.insertReceipted {env : Env} {s : Store} {o : EventOperation}
    {rows : List EventOperation} (h : Insertable s (o :: rows)) :
    ∃ s', insertReceipted env s o = .ok s' ∧ Insertable s' rows := by
  have newId : ∀ p ∈ s.operations.rows, p.operationId ≠ o.operationId := by
    have ids := h.ids
    rw [List.map_append, List.nodup_append] at ids
    exact fun p hp => ids.2.2 _ (List.mem_map_of_mem hp) _ (by simp)
  have newSlot : ∀ p ∈ s.operations.rows, ¬ (p.epochKey = o.epochKey ∧ p.sequence = o.sequence) := by
    have slots := h.slots
    rw [List.map_append, List.nodup_append] at slots
    intro p hp ⟨hk, hq⟩
    exact slots.2.2 _ (List.mem_map_of_mem hp) o.slot (by simp) (by
      simp [EventOperation.slot, hk, hq])
  have absent : ¬ s.operations.Has o.operationId := by
    rw [Table.has_iff]
    rintro ⟨p, hp, hid⟩
    exact newId p hp hid
  obtain ⟨u, hu⟩ : ∃ u, s.operations.insert o = some u := by
    cases hi : s.operations.insert o with
    | some u => exact ⟨u, rfl⟩
    | none => exact absurd (Table.insert_eq_none.mp hi) absent
  have unreceipted : ¬ s.inbox.Has o.operationId := by
    rw [Table.has_iff, h.receipts]
    rintro ⟨r, hr, hid⟩
    obtain ⟨p, hp, rfl⟩ := List.mem_map.mp hr
    exact newId p hp hid
  obtain ⟨v, hv⟩ : ∃ v, s.inbox.insert o.inboxRow = some v := by
    cases hi : s.inbox.insert o.inboxRow with
    | some v => exact ⟨v, rfl⟩
    | none => exact absurd (Table.insert_eq_none.mp hi) unreceipted
  have freeSlot : ¬ ∃ p ∈ s.operations.rows, p.epochKey = o.epochKey ∧ p.sequence = o.sequence := by
    rintro ⟨p, hp, hslot⟩
    exact newSlot p hp hslot
  have freeReceipt : ¬ ∃ r ∈ s.inbox.rows,
      r.epochKey = o.inboxRow.epochKey ∧ r.sequence = o.inboxRow.sequence := by
    rw [h.receipts]
    rintro ⟨r, hr, hslot⟩
    obtain ⟨p, hp, rfl⟩ := List.mem_map.mp hr
    exact newSlot p hp hslot
  have rowsU := (Table.insert_eq_some.mp hu).2
  have rowsV := (Table.insert_eq_some.mp hv).2
  refine ⟨{ s with operations := u, inbox := v }, ?_, ?_, ?_, ?_⟩
  · have operation : s.insertOperation env o = .ok { s with operations := u } := by
      simp [Store.insertOperation, freeSlot, hu]
    have receipt : Store.insertInbox env { s with operations := u } o.inboxRow =
        .ok { s with operations := u, inbox := v } := by
      simp only [Store.insertInbox, freeReceipt, ↓reduceIte, hv]
    simp only [Sync.insertReceipted, operation, ok_bind]
    exact receipt
  · simp only [rowsV, rowsU, h.receipts, List.map_append, List.map_cons, List.map_nil]
  · simpa [rowsU] using h.ids
  · simpa [rowsU] using h.slots

theorem Insertable.foldlM_insertReceipted {env : Env} {s : Store} {rows : List EventOperation}
    (h : Insertable s rows) : ∃ s', rows.foldlM (Sync.insertReceipted env) s = .ok s' := by
  induction rows generalizing s with
  | nil => exact ⟨s, rfl⟩
  | cons o rows ih =>
    obtain ⟨s₁, h₁, rest⟩ := @Insertable.insertReceipted env _ _ _ h
    obtain ⟨s', h'⟩ := ih rest
    exact ⟨s', by rw [List.foldlM_cons, h₁]; exact h'⟩

theorem eq_of_slot {o p : EventOperation}
    (numbered : ((acceptedOf s o.tournamentId o.authorityEpoch).map EventOperation.sequence).Nodup)
    (ho : o ∈ s.operations.rows) (hp : p ∈ s.operations.rows) (hslot : o.slot = p.slot) :
    o = p := by
  simp only [EventOperation.slot, Prod.mk.injEq] at hslot
  have mem : ∀ q ∈ s.operations.rows, q.epochKey = o.epochKey →
      q ∈ acceptedOf s o.tournamentId o.authorityEpoch := by
    intro q hq hk
    exact List.mem_filter.mpr ⟨hq, decide_eq_true hk⟩
  exact List.inj_on_of_nodup_map numbered (mem o ho rfl) (mem p hp hslot.1.symm) hslot.2

theorem Sound.slots_nodup (hs : Sound s) :
    (s.operations.rows.map EventOperation.slot).Nodup := by
  rw [List.nodup_map_iff_inj_on s.operations.unique.of_map]
  intro o ho p hp hslot
  refine eq_of_slot ?_ ho hp hslot
  rw [hs.contiguous]
  exact List.nodup_range'

theorem Insertable.after {s s' : Store} {rows rows' : List EventOperation}
    (h : Insertable s (rows ++ rows')) (appended : Appended s rows s') : Insertable s' rows' where
  receipts := by rw [appended.inbox, appended.operations, h.receipts, List.map_append]
  ids := by rw [appended.operations, List.append_assoc]; exact h.ids
  slots := by rw [appended.operations, List.append_assoc]; exact h.slots

theorem Insertable.left {rows rows' : List EventOperation} (h : Insertable s (rows ++ rows')) :
    Insertable s rows := by
  have sub : (s.operations.rows ++ rows).Sublist (s.operations.rows ++ (rows ++ rows')) :=
    (List.Sublist.refl _).append (List.sublist_append_left _ _)
  exact ⟨h.receipts, (sub.map _).nodup h.ids, (sub.map _).nodup h.slots⟩

end Sync
