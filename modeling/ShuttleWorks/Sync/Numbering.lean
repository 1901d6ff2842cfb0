import ShuttleWorks.Sync.Appending
import ShuttleWorks.Sync.Invariants

/-! The numbers of a node's log. Whatever transactions append to it at the same time, and
whichever of them fail, the committed operations of an epoch are numbered from 1 on without
a gap, and each of them waits in the outbox once. -/

namespace Sync
open Lib

/-! ## What a transaction has written -/

def operationsIn (ws : List NodeWrite) : List EventOperation :=
  ws.filterMap fun
    | .operation o => some o
    | _ => none

def boxesIn (ws : List NodeWrite) : List Uuid :=
  ws.filterMap fun
    | .outbox r => some r.operationId
    | _ => none

def counterIn (ws : List NodeWrite) (key : EpochKey) : Option Nat :=
  (ws.filterMap fun
    | .counter q => if q.key = key then some q.nextSequence else none
    | _ => none).getLast?

variable {o : EventOperation}

section
variable (ws ws' : List NodeWrite)

@[simp] theorem operationsIn_append :
    operationsIn (ws ++ ws') = operationsIn ws ++ operationsIn ws' := by
  simp [operationsIn]

@[simp] theorem boxesIn_append : boxesIn (ws ++ ws') = boxesIn ws ++ boxesIn ws' := by
  simp [boxesIn]

@[simp] theorem counterIn_append (key : EpochKey) :
    counterIn (ws ++ ws') key = (counterIn ws' key).or (counterIn ws key) := by
  simp [counterIn, List.getLast?_append]

@[simp] theorem counterIn_counter (q : EventOperationSequence) (key : EpochKey) :
    counterIn [.counter q] key = if q.key = key then some q.nextSequence else none := by
  unfold counterIn
  by_cases h : q.key = key <;> simp [h]

variable {ws}

theorem mem_keys_of_counterIn {key : EpochKey} (h : (counterIn ws key).isSome) :
    .counter key ∈ ws.flatMap NodeWrite.keys := by
  obtain ⟨n, h⟩ := Option.isSome_iff_exists.mp h
  have mem := List.mem_of_getLast? h
  obtain ⟨w, hw, found⟩ := List.mem_filterMap.mp mem
  refine List.mem_flatMap.mpr ⟨w, hw, ?_⟩
  split at found
  · next q =>
    split at found
    · next same => simp [NodeWrite.keys, same]
    · cases found
  · cases found

theorem mem_keys_of_operationsIn (h : o ∈ operationsIn ws) :
    .operation o.operationId ∈ ws.flatMap NodeWrite.keys := by
  obtain ⟨w, hw, found⟩ := List.mem_filterMap.mp h
  refine List.mem_flatMap.mpr ⟨w, hw, ?_⟩
  split at found
  · cases found
    simp [NodeWrite.keys]
  · cases found

end

/-! ## What a transaction sees -/

def nextOf (s : Store) (key : EpochKey) : Nat :=
  ((s.operationSequences.get key).map EventOperationSequence.nextSequence).getD 1

theorem nextOf_written (ws : List NodeWrite) (s : Store) (key : EpochKey) :
    nextOf (written ws s) key = (counterIn ws key).getD (nextOf s key) := by
  induction ws using List.reverseRecOn with
  | nil => rfl
  | append_singleton ws w ih =>
    rw [written_concat, counterIn_append]
    cases w with
    | counter q =>
      rw [counterIn_counter, nextOf, Store.write, Table.get_put]
      by_cases same : q.key = key
      · simp [same]
      · simp only [same, if_false, Option.none_or]
        exact ih
    | authority | transition | operation | outbox => exact ih

theorem operations_written {ws : List NodeWrite} {s : Store}
    (fresh : ∀ o ∈ operationsIn ws, ¬ s.operations.Has o.operationId)
    (distinct : ((operationsIn ws).map EventOperation.operationId).Nodup) :
    (written ws s).operations.rows = s.operations.rows ++ operationsIn ws := by
  induction ws using List.reverseRecOn with
  | nil => simp [written, operationsIn]
  | append_singleton ws w ih =>
    rw [operationsIn_append] at fresh distinct ⊢
    rw [List.map_append, List.nodup_append] at distinct
    have before := ih (fun o ho => fresh o (List.mem_append_left _ ho)) distinct.1
    rw [written_concat]
    cases w with
    | operation o =>
      have new : ¬ (written ws s).operations.Has o.operationId := by
        rw [Table.Has, before, List.map_append, List.mem_append, not_or]
        refine ⟨fresh o (by simp [operationsIn]), fun mem => ?_⟩
        exact distinct.2.2 _ mem o.operationId (by simp [operationsIn]) rfl
      obtain ⟨t, inserted⟩ := Option.ne_none_iff_exists'.mp (mt Table.insert_eq_none.mp new)
      simp only [Store.write, inserted, Option.getD_some]
      rw [(Table.insert_eq_some.mp inserted).2, before, List.append_assoc]
      rfl
    | authority | transition | counter | outbox =>
      simp only [Store.write, appendTransition, before]
      simp [operationsIn]

theorem has_outbox_written {ws : List NodeWrite} {s : Store} {id : Uuid} :
    (written ws s).outbox.Has id ↔ s.outbox.Has id ∨ id ∈ boxesIn ws := by
  induction ws using List.reverseRecOn with
  | nil => simp [written, boxesIn]
  | append_singleton ws w ih =>
    rw [written_concat, boxesIn_append, List.mem_append, ← or_assoc, ← ih]
    cases w with
    | outbox r =>
      simp only [Store.write]
      cases inserted : (written ws s).outbox.insert r with
      | none =>
        have has := Table.insert_eq_none.mp inserted
        simp only [Option.getD_none, boxesIn, List.filterMap_cons, List.filterMap_nil,
          List.mem_singleton]
        refine ⟨.inl, ?_⟩
        rintro (h | rfl)
        · exact h
        · exact has
      | some t =>
        rw [Option.getD_some, Table.Has, (Table.insert_eq_some.mp inserted).2]
        simp [boxesIn, Table.Has]
    | authority | transition | counter | operation =>
      simp [Store.write, appendTransition, boxesIn]

/-! ## The invariant -/

/-- The committed log: every epoch is numbered up to its counter, and exactly the operations
wait in the outbox. -/
structure Counted (s : Store) : Prop where
  numbered : ∀ key : EpochKey, (acceptedOf s key.1 key.2).map EventOperation.sequence =
    List.range' 1 (nextOf s key - 1)
  positive : ∀ key, 1 ≤ nextOf s key
  boxed : ∀ id, s.outbox.Has id ↔ s.operations.Has id

namespace AppendTx

/-- The number a transaction has taken for an operation it has not stored yet. -/
def reserved (tx : AppendTx) (key : EpochKey) : List Nat :=
  match tx.calls, tx.phase with
  | call :: _, .operation epoch sequence =>
    if (call.tournamentId, epoch) = key then [sequence] else []
  | _, _ => []

def unboxed (tx : AppendTx) : List Uuid :=
  match tx.calls, tx.phase with
  | _ :: _, .outbox o => [o.operationId]
  | _, _ => []

def Plain (tx : AppendTx) : Prop :=
  match tx.phase with
  | .operation .. | .outbox _ => False
  | _ => True

theorem Plain.reserved {tx : AppendTx} (h : tx.Plain) (key : EpochKey) : tx.reserved key = [] := by
  unfold Plain at h
  unfold AppendTx.reserved
  split at h <;> simp_all

theorem Plain.unboxed {tx : AppendTx} (h : tx.Plain) : tx.unboxed = [] := by
  unfold Plain at h
  unfold AppendTx.unboxed
  split at h <;> simp_all

/-- The transaction goes on numbering where the committed log ends, on counters it has locked. -/
structure Numbers (s : Store) (tx : AppendTx) : Prop where
  fresh : ∀ o ∈ operationsIn tx.writes, ¬ s.operations.Has o.operationId
  distinct : ((operationsIn tx.writes).map EventOperation.operationId).Nodup
  boxed : (operationsIn tx.writes).map EventOperation.operationId =
    boxesIn tx.writes ++ tx.unboxed
  owned : ∀ o ∈ operationsIn tx.writes, (counterIn tx.writes o.epochKey).isSome
  taken : ∀ key, tx.reserved key ≠ [] → (counterIn tx.writes key).isSome
  numbered : ∀ key n, counterIn tx.writes key = some n → 1 ≤ n ∧
    (acceptedOf s key.1 key.2 ++ (operationsIn tx.writes).filter fun o => o.epochKey = key).map
      EventOperation.sequence ++ tx.reserved key = List.range' 1 (n - 1)

variable {s : Store} {tx tx' : AppendTx} {l : Locking}

theorem Numbers.start (s : Store) (calls : List AppendCall) : Numbers s (AppendTx.start calls) := by
  constructor <;> simp [AppendTx.start, operationsIn, boxesIn, counterIn, unboxed, reserved]

theorem Numbers.quiet (h : Numbers s tx) (plain : tx.Plain) (plain' : tx'.Plain)
    {ws : List NodeWrite} (writes : tx'.writes = tx.writes ++ ws)
    (operations : operationsIn ws = []) (boxes : boxesIn ws = [])
    (counters : ∀ key, counterIn ws key = none) : Numbers s tx' := by
  obtain ⟨fresh, distinct, boxed, owned, taken, numbered⟩ := h
  simp only [plain.reserved, plain.unboxed, List.append_nil] at boxed taken numbered
  constructor
  all_goals simp only [writes, operationsIn_append, boxesIn_append, counterIn_append, operations,
    boxes, counters, plain'.reserved, plain'.unboxed, List.append_nil, Option.none_or]
  all_goals assumption

theorem Numbers.filter_eq_nil (h : Numbers s tx) {key : EpochKey}
    (none : counterIn tx.writes key = none) :
    (operationsIn tx.writes).filter (fun o => o.epochKey = key) = [] := by
  rw [List.filter_eq_nil_iff]
  intro o ho same
  rw [decide_eq_true_eq] at same
  have owned := h.owned o ho
  rw [same, none] at owned
  cases owned

theorem Numbers.seen (h : Numbers s tx) (store : Counted s) (key : EpochKey) :
    1 ≤ nextOf (tx.view s) key ∧
      (acceptedOf s key.1 key.2 ++ (operationsIn tx.writes).filter fun o => o.epochKey = key).map
        EventOperation.sequence ++ tx.reserved key =
          List.range' 1 (nextOf (tx.view s) key - 1) := by
  rw [AppendTx.view, nextOf_written]
  cases found : counterIn tx.writes key with
  | some n => exact h.numbered key n found
  | none =>
    have idle : tx.reserved key = [] := by
      by_contra busy
      have held := h.taken key busy
      rw [found] at held
      cases held
    rw [h.filter_eq_nil found, idle, List.append_nil, List.append_nil]
    exact ⟨store.positive key, store.numbered key⟩

theorem acceptedOf_written (h : Numbers s tx) (key : EpochKey) :
    acceptedOf (tx.view s) key.1 key.2 = acceptedOf s key.1 key.2 ++
      (operationsIn tx.writes).filter fun o => o.epochKey = key := by
  rw [acceptedOf, AppendTx.view, operations_written h.fresh h.distinct, List.filter_append]
  rfl

theorem Numbers.commits (h : Numbers s tx) (store : Counted s) (done : tx.calls = []) :
    Counted (tx.view s) := by
  have idle : ∀ key, tx.reserved key = [] := by simp [reserved, done]
  constructor
  · intro key
    have seen := (h.seen store key).2
    rw [idle, List.append_nil] at seen
    rw [acceptedOf_written h]
    exact seen
  · exact fun key => (h.seen store key).1
  · intro id
    have boxed := h.boxed
    rw [unboxed, done, List.append_nil] at boxed
    rw [AppendTx.view, has_outbox_written, ← boxed, store.boxed, Table.Has, Table.Has,
      operations_written h.fresh h.distinct, List.map_append, List.mem_append]

theorem Numbers.beside (h : Numbers s tx') (mine : Numbers s tx) (apart : Apart locks tx tx') :
    Numbers (tx.view s) tx' := by
  obtain ⟨fresh, distinct, boxed, owned, taken, numbered⟩ := h
  refine ⟨?_, distinct, boxed, owned, taken, ?_⟩
  · intro o ho
    rw [Table.Has, AppendTx.view, operations_written mine.fresh mine.distinct, List.map_append,
      List.mem_append, not_or]
    refine ⟨fresh o ho, fun mem => ?_⟩
    obtain ⟨p, hp, same⟩ := List.mem_map.mp mem
    have held := mem_keys_of_operationsIn hp
    rw [same] at held
    exact apart held (mem_keys_of_operationsIn ho)
  · intro key n found
    have free : counterIn tx.writes key = none := by
      by_contra held
      have mine := mem_keys_of_counterIn (Option.isSome_iff_ne_none.mpr held)
      exact apart mine (mem_keys_of_counterIn (by rw [found]; rfl))
    rw [acceptedOf_written mine, mine.filter_eq_nil free, List.append_nil]
    exact numbered key n found

/-! ## One statement -/

theorem send_eq_goesOn {others : List AppendTx} {ws : List NodeWrite} {next : AppendTx} :
    tx.send l others ws next = .goesOn tx' ↔
      ¬ l.Blocked locks others (ws.flatMap NodeWrite.keys) ∧
        { next with writes := tx.writes ++ ws } = tx' := by
  unfold send
  split
  · next blocked => simp [blocked]
  · next free => simp [free]

theorem Numbers.count (h : Numbers s tx) (store : Counted s) {q : EventOperationSequence}
    (idle : ∀ key, tx.reserved key = []) (writes : tx'.writes = tx.writes ++ [.counter q])
    (unboxed : tx'.unboxed = tx.unboxed) (le : nextOf (tx.view s) q.key ≤ q.nextSequence)
    (reserved : ∀ key, tx'.reserved key = if q.key = key then List.range' (nextOf (tx.view s) key)
      (q.nextSequence - nextOf (tx.view s) key) else []) : Numbers s tx' := by
  have operations : operationsIn tx'.writes = operationsIn tx.writes := by
    simp [writes, operationsIn]
  have boxes : boxesIn tx'.writes = boxesIn tx.writes := by simp [writes, boxesIn]
  have counters : ∀ key, counterIn tx'.writes key =
      if q.key = key then some q.nextSequence else counterIn tx.writes key := by
    intro key
    rw [writes, counterIn_append, counterIn_counter]
    split <;> rfl
  constructor
  · rw [operations]
    exact h.fresh
  · rw [operations]
    exact h.distinct
  · rw [operations, boxes, unboxed]
    exact h.boxed
  · intro o ho
    rw [counters]
    split
    · rfl
    · exact h.owned o (operations ▸ ho)
  · intro key busy
    rw [reserved] at busy
    rw [counters]
    split at busy
    · next same => simp [same]
    · exact absurd rfl busy
  · intro key n found
    rw [counters] at found
    rw [operations, reserved]
    split at found
    · next same =>
      subst same
      cases found
      obtain ⟨positive, seen⟩ := h.seen store q.key
      rw [idle, List.append_nil] at seen
      rw [if_pos rfl, seen]
      refine ⟨positive.trans le, ?_⟩
      have start : nextOf (tx.view s) q.key = 1 + (nextOf (tx.view s) q.key - 1) := by omega
      nth_rewrite 2 [start]
      rw [List.range'_append_1]
      congr 1
      omega
    · next other =>
      have before := h.numbered key n found
      rw [idle] at before
      rw [if_neg other]
      exact before

variable {call : AppendCall} {calls : List AppendCall} {epoch sequence : Nat}

theorem Numbers.store (h : Numbers s tx) (current : tx.calls = call :: calls)
    (phase : tx.phase = .operation epoch sequence)
    (new : ¬ (tx.view s).operations.Has (call.operation epoch sequence).operationId) :
    Numbers s { tx with
      phase := .outbox (call.operation epoch sequence)
      writes := tx.writes ++ [.operation (call.operation epoch sequence)] } := by
  obtain ⟨o, is⟩ : ∃ o, o = call.operation epoch sequence := ⟨_, rfl⟩
  have key : o.epochKey = (call.tournamentId, epoch) := by rw [is]; rfl
  have number : o.sequence = sequence := by rw [is]; rfl
  rw [← is] at new ⊢
  rw [AppendTx.view, Table.Has, operations_written h.fresh h.distinct, List.map_append,
    List.mem_append, not_or] at new
  have reserved : ∀ key, tx.reserved key = if o.epochKey = key then [o.sequence] else [] := by
    intro k
    simp only [AppendTx.reserved, current, phase, key, number]
  have unboxed : tx.unboxed = [] := by simp [AppendTx.unboxed, current, phase]
  have operations : operationsIn (tx.writes ++ [.operation o]) = operationsIn tx.writes ++ [o] := by
    simp [operationsIn]
  have counters : ∀ k, counterIn (tx.writes ++ [.operation o]) k = counterIn tx.writes k := by
    intro k
    rw [counterIn_append]
    simp [counterIn]
  have owned : (counterIn tx.writes o.epochKey).isSome := h.taken _ (by simp [reserved])
  constructor
  · intro p hp
    rw [operations, List.mem_append, List.mem_singleton] at hp
    rcases hp with hp | rfl
    · exact h.fresh p hp
    · exact new.1
  · rw [operations, List.map_append, List.nodup_append]
    refine ⟨h.distinct, by simp, ?_⟩
    intro a ha b hb same
    rw [List.map_singleton, List.mem_singleton] at hb
    exact new.2 (hb ▸ same ▸ ha)
  · have boxed := h.boxed
    rw [unboxed, List.append_nil] at boxed
    rw [operations, List.map_append, boxed]
    simp [boxesIn, AppendTx.unboxed, current]
  · intro p hp
    rw [operations, List.mem_append, List.mem_singleton] at hp
    rw [counters]
    rcases hp with hp | rfl
    · exact h.owned p hp
    · exact owned
  · intro k busy
    simp [AppendTx.reserved, current] at busy
  · intro k n found
    rw [counters] at found
    obtain ⟨positive, numbered⟩ := h.numbered k n found
    refine ⟨positive, ?_⟩
    rw [← numbered, operations, reserved, List.filter_append, List.filter_singleton]
    simp only [AppendTx.reserved, current]
    by_cases same : o.epochKey = k <;> simp [same]

theorem Numbers.box (h : Numbers s tx) (current : tx.calls = call :: calls)
    (phase : tx.phase = .outbox o) : Numbers s { tx with
      calls := calls
      phase := .authority
      writes := tx.writes ++ [.outbox { operationId := o.operationId }] } := by
  have unboxed : tx.unboxed = [o.operationId] := by simp [AppendTx.unboxed, current, phase]
  have reserved : ∀ key, tx.reserved key = [] := by simp [AppendTx.reserved, current, phase]
  have counters : ∀ k, counterIn (tx.writes ++ [.outbox { operationId := o.operationId }]) k =
      counterIn tx.writes k := by
    intro k
    rw [counterIn_append]
    simp [counterIn]
  constructor
  · simpa [operationsIn] using h.fresh
  · simpa [operationsIn] using h.distinct
  · have boxed := h.boxed
    rw [unboxed] at boxed
    rw [operationsIn_append, List.map_append, boxed]
    cases calls <;> simp [operationsIn, boxesIn, AppendTx.unboxed]
  · intro p hp
    rw [counters]
    exact h.owned p (by simpa [operationsIn] using hp)
  · intro k busy
    cases calls <;> simp [AppendTx.reserved] at busy
  · intro k n found
    rw [counters] at found
    have numbered := h.numbered k n found
    rw [reserved] at numbered
    cases calls <;> simpa [operationsIn, AppendTx.reserved] using numbered

theorem apart_of_free {others : List AppendTx} {ws : List NodeWrite}
    (free : ¬ l.Blocked locks others (ws.flatMap NodeWrite.keys))
    (writes : tx'.writes = tx.writes ++ ws) :
    ∀ other ∈ others, Apart locks tx other → Apart locks tx' other := by
  intro other mem apart
  apply Locking.apart free mem apart
  intro k hk
  rw [locks, writes, List.flatMap_append, List.mem_append] at hk
  exact hk

theorem apart_of_same (writes : tx'.writes = tx.writes) {others : List AppendTx} :
    ∀ other ∈ others, Apart locks tx other → Apart locks tx' other := by
  intro other _ apart k hk
  rw [locks, writes] at hk
  exact apart hk

/-- **Step.** A statement that goes through keeps the numbers and locks what it writes. -/
theorem Numbers.goesOn {env : Env} {others : List AppendTx} (h : Numbers s tx) (store : Counted s)
    (ran : tx.exec l env s others = .goesOn tx') :
    Numbers s tx' ∧ ∀ other ∈ others, Apart locks tx other → Apart locks tx' other := by
  unfold exec at ran
  dsimp only at ran
  split at ran
  · cases ran
  next call calls current =>
  split at ran
  -- The statements that only read.
  · next phase =>
    have plain : tx.Plain := by simp [Plain, phase]
    split at ran
    · cases ran
      exact ⟨h.quiet plain trivial (List.append_nil _).symm rfl rfl (fun _ => rfl),
        apart_of_same rfl⟩
    · simp only [Lib.Progress.attempt_eq_goesOn] at ran
      obtain ⟨_, -, ran⟩ := ran
      cases ran
      exact ⟨h.quiet plain trivial (List.append_nil _).symm rfl rfl (fun _ => rfl),
        apart_of_same rfl⟩
  · next phase =>
    simp only [Lib.Progress.attempt_eq_goesOn] at ran
    obtain ⟨a, -, ran⟩ := ran
    cases ran
    have plain : tx.Plain := by simp [Plain, phase]
    exact ⟨h.quiet plain trivial (List.append_nil _).symm rfl rfl (fun _ => rfl), apart_of_same rfl⟩
  · next a previous phase =>
    simp only [Lib.Progress.attempt_eq_goesOn, send_eq_goesOn] at ran
    obtain ⟨_, -, free, rfl⟩ := ran
    have plain : tx.Plain := by simp [Plain, phase]
    exact ⟨h.quiet plain trivial rfl rfl rfl (fun _ => rfl), apart_of_free free rfl⟩
  · next epoch phase =>
    have plain : tx.Plain := by simp [Plain, phase]
    split at ran
    · cases ran
      exact ⟨h.quiet plain trivial (List.append_nil _).symm rfl rfl (fun _ => rfl),
        apart_of_same rfl⟩
    · cases ran
      exact ⟨h.quiet plain trivial (List.append_nil _).symm rfl rfl (fun _ => rfl),
        apart_of_same rfl⟩
  -- The counter.
  · next epoch phase =>
    split at ran
    · cases ran
    next new =>
    obtain ⟨free, rfl⟩ := send_eq_goesOn.mp ran
    have plain : tx.Plain := by simp [Plain, phase]
    have first : nextOf (tx.view s) (call.tournamentId, epoch) = 1 := by
      rw [nextOf, Table.get_eq_none_iff.mpr new]
      rfl
    refine ⟨?_, apart_of_free free rfl⟩
    have plain' : Plain { tx with
      phase := .allocate epoch
      writes := tx.writes ++ [.counter ⟨call.tournamentId, epoch, 1⟩] } := trivial
    apply h.count store plain.reserved rfl
    · rw [plain.unboxed, plain'.unboxed]
    · exact first.le
    · intro key
      rw [plain'.reserved]
      split
      · next same =>
        subst same
        show [] = List.range' _ (1 - nextOf (tx.view s) (call.tournamentId, epoch))
        rw [first]
        rfl
      · rfl
  · next epoch phase =>
    simp only [Lib.Progress.attempt_eq_goesOn, send_eq_goesOn] at ran
    obtain ⟨row, visible, free, rfl⟩ := ran
    have plain : tx.Plain := by simp [Plain, phase]
    have visible := found_eq_ok.mp visible
    have key : row.key = (call.tournamentId, epoch) := Table.key_of_get visible
    have next : nextOf (tx.view s) (call.tournamentId, epoch) = row.nextSequence := by
      rw [nextOf, visible]
      rfl
    refine ⟨?_, apart_of_free free rfl⟩
    apply h.count store plain.reserved rfl
    · rw [plain.unboxed]
      simp [AppendTx.unboxed, current]
    · show nextOf (tx.view s) row.key ≤ row.nextSequence + 1
      rw [key, next]
      exact Nat.le_succ _
    · intro k
      show (AppendTx.reserved _ k) = if row.key = k then List.range' (nextOf (tx.view s) k)
        (row.nextSequence + 1 - nextOf (tx.view s) k) else []
      simp only [AppendTx.reserved, current, key]
      split
      · next same =>
        rw [← same, next, Nat.add_sub_cancel_left]
        rfl
      · rfl
  -- The operation and its place in the outbox.
  · next epoch sequence phase =>
    simp only [Lib.Progress.attempt_eq_goesOn, send_eq_goesOn] at ran
    obtain ⟨_, stored, free, rfl⟩ := ran
    refine ⟨h.store current phase ?_, apart_of_free free rfl⟩
    obtain ⟨_, rows, -⟩ := insertOperation_eq_ok stored
    exact Table.not_has_of_rows_concat rows
  · next o phase =>
    split at ran
    · cases ran
    · obtain ⟨free, rfl⟩ := send_eq_goesOn.mp ran
      exact ⟨h.box current phase, apart_of_free free rfl⟩

theorem send_ne_commits {others : List AppendTx} {ws : List NodeWrite} {next : AppendTx}
    {store : Store} : tx.send l others ws next ≠ .commits store := by
  unfold send
  split <;> exact nofun

theorem exec_eq_commits {env : Env} {others : List AppendTx} {store : Store}
    (h : tx.exec l env s others = .commits store) : tx.calls = [] ∧ store = tx.view s := by
  unfold exec at h
  dsimp only at h
  split at h
  · next done =>
    cases h
    exact ⟨done, rfl⟩
  split at h
  all_goals first
    | simp [send_ne_commits] at h
    | (split at h <;> simp [send_ne_commits] at h)

/-- **Rule.** Transactions that share no lock number the log one after the other. -/
theorem numbering_rule (l : Locking) (env : Env) :
    Interleaved.Rule start (exec l env) (fun _ _ _ => True) Counted Numbers (Apart locks) where
  symm _ _ := Apart.symm
  starts s calls _ := Numbers.start s calls
  startsApart calls other _ _ held := by simp [start, locks] at held
  goesOn store others tx tx' placed _ ran := by
    obtain ⟨fits, apart⟩ := placed.fits.goesOn placed.holds ran
    exact ⟨fits, fun other mem => apart other mem (placed.rest other mem).2⟩
  commits store others tx store' placed _ ran := by
    obtain ⟨done, rfl⟩ := exec_eq_commits ran
    exact ⟨placed.fits.commits placed.holds done, fun other fits apart =>
      fits.beside placed.fits apart⟩

end AppendTx

/-- The moves of any number of transactions that append. -/
def AppendSteps (l : Locking) (env : Env) : Interleaved Store AppendTx →
    Interleaved.Move (List AppendCall) → Interleaved Store AppendTx → Prop :=
  Interleaved.Steps AppendTx.start (AppendTx.exec l env) fun _ _ _ => True

theorem counted_of_empty {s : Store} (operations : s.operations.rows = [])
    (outbox : s.outbox.rows = [])
    (counters : ∀ q ∈ s.operationSequences.rows, q.nextSequence = 1) : Counted s := by
  have first : ∀ key, nextOf s key = 1 := by
    intro key
    unfold nextOf
    cases found : s.operationSequences.get key with
    | none => rfl
    | some q => exact counters q (Table.mem_of_get found)
  constructor
  · intro key
    rw [first, acceptedOf, operations]
    rfl
  · exact fun key => (first key).ge
  · intro id
    simp [Table.Has, operations, outbox]

theorem Counted.operationsOf {s : Store} (h : Counted s) (key : EpochKey) :
    s.operationsOf key = acceptedOf s key.1 key.2 := by
  apply List.Pairwise.insertionSort_eq
  have sorted : (List.range' 1 (nextOf s key - 1)).Pairwise (· ≤ ·) := List.pairwise_le_range'
  rw [← h.numbered key, List.pairwise_map] at sorted
  exact sorted

/-- **The log has no gap.** Whatever transactions append to the log of a node at the same time,
wherever any of them fail or are undone, and whatever operation ids they repeat: the committed
operations of each epoch are numbered from 1 on without a gap or a duplicate, and each of them
has exactly one row in the outbox. -/
theorem log_numbered {l : Locking} {env : Env} {s : Interleaved Store AppendTx}
    (run : Reachable (fun s => Counted s.store ∧ s.running = []) (AppendSteps l env) s) :
    (∀ key, (s.store.operationsOf key).map EventOperation.sequence =
      List.range' 1 (s.store.operationsOf key).length) ∧
    ∀ o ∈ s.store.operations.rows,
      s.store.outbox.rows.countP (fun r => r.operationId = o.operationId) = 1 := by
  have fits : Interleaved.Fits Counted AppendTx.Numbers (Apart AppendTx.locks) s := by
    refine Interleaved.Fits.reachable (AppendTx.numbering_rule l env) ?_ run
    rintro s ⟨counted, idle⟩
    exact ⟨counted, by simp [idle], by simp [idle]⟩
  obtain ⟨counted, -, -⟩ := fits
  constructor
  · intro key
    have numbered := counted.numbered key
    rw [counted.operationsOf, numbered]
    congr 1
    simpa using (congrArg List.length numbered).symm
  · intro o ho
    have has := (counted.boxed o.operationId).mpr (Table.has_iff.mpr ⟨o, ho, rfl⟩)
    have one := List.count_eq_one_of_mem s.store.outbox.unique has
    rw [List.count, List.countP_map] at one
    rw [← one]
    apply List.countP_congr
    simp

namespace Rehearsal

def idleNode : Store :=
  { tournaments := ⟨[⟨eventId, none⟩], hosted⟩
    authorities := ⟨[
      { tournamentId := eventId, epoch := 1, nodeId := laptop, state := .active
        checkpointHash := "", checkpointSchemaVersion := 1, capabilityDigest := "" }], by decide⟩ }

def logging (id : Uuid) : AppendCall where
  actor := none
  tournamentId := eventId
  nodeId := laptop
  op :=
    { actorId := director, commandType := "match.command.v1", aggregateType := "match"
      aggregateId := "MS1-R1-M1", payload := [], operationId := some id }
  inputs := ⟨[], [], "", id, now⟩

def contended : List (Interleaved.Move (List AppendCall)) :=
  [.start [logging "a"], .start [logging "b", logging "c"]] ++ List.replicate 4 (.run 0) ++
    List.replicate 3 (.run 1) ++ [.rollback 0] ++ List.replicate 13 (.run 0) ++
    [.start [logging "b"]] ++ List.replicate 4 (.run 0)

end Rehearsal

open Rehearsal in
theorem log_numbered_contended :
    let s := Interleaved.after AppendTx.start (AppendTx.exec .rows env) ⟨idleNode, []⟩ contended
    (s.store.operationsOf (eventId, 1)).map (fun o => (o.operationId, o.sequence)) =
        [("b", 1), ("c", 2)] ∧ s.running = [] ∧
      (s.store.operationsOf (eventId, 1)).map EventOperation.sequence =
        List.range' 1 (s.store.operationsOf (eventId, 1)).length := by
  refine ⟨by decide +kernel, by decide +kernel, ?_⟩
  have first : Counted idleNode := counted_of_empty rfl rfl (by decide)
  exact (log_numbered (Interleaved.Along.reachable (.init ⟨first, rfl⟩) (by decide +kernel))).1 _

end Sync
