import Mathlib.Data.Prod.Lex
import Mathlib.Order.Lattice.Nat
import ShuttleWorks.Engine.Problem
import ShuttleWorks.Lib.Heap
import ShuttleWorks.Lib.Tally

/-! The candidate pool of a solve. Every solution the solver calls back with is offered to a heap
of bounded size whose first element is the worst candidate; a schedule that is in the pool is not
taken again. -/

namespace Engine
open Lib

section

/-- The places of a schedule, sorted: matches at the same places, in whatever order. -/
def signatureOf (assignments : List Assignment) : List (String ×ₗ Int ×ₗ Int ×ₗ Nat) :=
  sortBy id (assignments.map fun a =>
    toLex (a.matchId, toLex (a.slotId, toLex (a.courtId, a.durationSlots))))

variable {ρ : Type}

structure ScheduleSnapshot (ρ : Type) where
  assignments : List Assignment
  objectiveValue : ρ
  foundAtSeconds : ρ
  solutionId : String
  deriving DecidableEq, Repr

/-- One call of the solver: the objective and the places, and the time and the fresh id its
snapshot is stamped with. -/
structure SolutionCallback (ρ : Type) where
  objectiveValue : ρ
  currentAssignments : List Assignment
  elapsedSeconds : ρ
  uuid : String
  deriving DecidableEq, Repr

def SolutionCallback.snapshot (x : SolutionCallback ρ) : ScheduleSnapshot ρ where
  assignments := x.currentAssignments
  objectiveValue := x.objectiveValue
  foundAtSeconds := x.elapsedSeconds
  solutionId := x.uuid

/-- An entry of the heap. The objective is negated, so that the first entry is the worst. -/
structure PoolEntry (ρ : Type) where
  negated : ρᵒᵈ
  counter : Nat
  snapshot : ScheduleSnapshot ρ

/-- How the tuples compare: no two entries have one counter, so the snapshots are not reached. -/
def PoolEntry.key (e : PoolEntry ρ) : ρᵒᵈ ×ₗ Nat := toLex (e.negated, e.counter)

def PoolEntry.signature (e : PoolEntry ρ) : List (String ×ₗ Int ×ₗ Int ×ₗ Nat) :=
  signatureOf e.snapshot.assignments

def SolutionCallback.signature (x : SolutionCallback ρ) : List (String ×ₗ Int ×ₗ Int ×ₗ Nat) :=
  signatureOf x.currentAssignments

/-- The bookkeeping of `ProgressCallback` about candidates. -/
structure ProgressCallback (ρ : Type) where
  poolSize : Int
  pool : List (PoolEntry ρ) := []
  seen : List (List (String ×ₗ Int ×ₗ Int ×ₗ Nat)) := []
  counter : Nat := 0

variable [LinearOrder ρ]

def ProgressCallback.maybeCaptureCandidate (s : ProgressCallback ρ) (x : SolutionCallback ρ) :
    ProgressCallback ρ :=
  if s.poolSize ≤ 0 ∨ x.signature ∈ s.seen then s
  else
    let counter := s.counter + 1
    let entry : PoolEntry ρ := ⟨OrderDual.toDual x.objectiveValue, counter, x.snapshot⟩
    if s.pool.length < s.poolSize then
      { s with
        counter := counter
        pool := Heap.heappush PoolEntry.key s.pool entry
        seen := x.signature :: s.seen }
    else
      match s.pool with
      | [] => { s with counter := counter }
      | top :: _ =>
        if top.key < entry.key then
          let taken := Heap.heappushpop PoolEntry.key s.pool entry
          { s with
            counter := counter
            pool := taken.2
            seen := x.signature :: s.seen.filter (· ≠ taken.1.signature) }
        else { s with counter := counter }

def ProgressCallback.candidates (s : ProgressCallback ρ) : List (ScheduleSnapshot ρ) :=
  (sortBy (fun e => OrderDual.ofDual e.negated) s.pool).map PoolEntry.snapshot

def ProgressCallback.solve (poolSize : Int) (stream : List (SolutionCallback ρ)) :
    ProgressCallback ρ :=
  stream.foldl maybeCaptureCandidate { poolSize }

end

/-! ## What the pool holds -/

variable {ρ : Type} [LinearOrder ρ] {N : Int} {stream : List (SolutionCallback ρ)}
  {s : ProgressCallback ρ} {x : SolutionCallback ρ}

def Consistent (stream : List (SolutionCallback ρ)) : Prop :=
  ∀ x ∈ stream, ∀ y ∈ stream, x.signature = y.signature → x.objectiveValue = y.objectiveValue

instance (stream : List (SolutionCallback ρ)) : Decidable (Consistent stream) :=
  inferInstanceAs (Decidable (∀ x ∈ stream, ∀ y ∈ stream,
    x.signature = y.signature → x.objectiveValue = y.objectiveValue))

def PoolEntry.MadeOf (e : PoolEntry ρ) (x : SolutionCallback ρ) : Prop :=
  e.snapshot = x.snapshot ∧ OrderDual.ofDual e.negated = x.objectiveValue

omit [LinearOrder ρ] in
theorem PoolEntry.MadeOf.signature {e : PoolEntry ρ} (h : e.MadeOf x) :
    e.signature = x.signature := by
  rw [PoolEntry.signature, h.1]
  rfl

theorem PoolEntry.objective_le_of_key_le {e e' : PoolEntry ρ} (h : e.key ≤ e'.key) :
    OrderDual.ofDual e'.negated ≤ OrderDual.ofDual e.negated := by
  rcases Prod.Lex.toLex_le_toLex.mp h with less | ⟨same, -⟩
  · exact OrderDual.ofDual_le_ofDual.mpr less.le
  · exact (congrArg OrderDual.ofDual same).ge

/-- What holds of the pool after the callbacks of `stream`. -/
structure Collected (N : Int) (stream : List (SolutionCallback ρ)) (s : ProgressCallback ρ) :
    Prop where
  size : s.poolSize = N
  ordered : Heap.Ordered PoolEntry.key s.pool
  counted : ∀ e ∈ s.pool, e.counter ≤ s.counter
  apart : (s.pool.map PoolEntry.counter).Nodup
  nodup : (s.pool.map PoolEntry.signature).Nodup
  seen : ∀ x, x ∈ s.seen ↔ x ∈ s.pool.map PoolEntry.signature
  offered : ∀ e ∈ s.pool, ∃ x ∈ stream, e.MadeOf x
  few : s.pool.length ≤ N.toNat
  best : ∀ x ∈ stream, x.signature ∉ s.pool.map PoolEntry.signature → s.pool.length = N.toNat ∧
    ∀ e ∈ s.pool, OrderDual.ofDual e.negated ≤ x.objectiveValue

namespace Collected

theorem start (N : Int) : Collected N ([] : List (SolutionCallback ρ)) { poolSize := N } where
  size := rfl
  ordered i _ a ha := by cases ha
  counted e he := by cases he
  apart := List.nodup_nil
  nodup := List.nodup_nil
  seen x := Iff.rfl
  offered e he := by cases he
  few := Nat.zero_le _
  best x hx := by cases hx

theorem pass (h : Collected N stream s) (s' : ProgressCallback ρ) (size : s'.poolSize = s.poolSize)
    (pool : s'.pool = s.pool) (seen : s'.seen = s.seen) (counter : s.counter ≤ s'.counter)
    (no_better : x.signature ∉ s.pool.map PoolEntry.signature → s.pool.length = N.toNat ∧
      ∀ e ∈ s.pool, OrderDual.ofDual e.negated ≤ x.objectiveValue) :
    Collected N (stream ++ [x]) s' where
  size := size.trans h.size
  ordered := pool ▸ h.ordered
  counted e he := (h.counted e (pool ▸ he)).trans counter
  apart := pool ▸ h.apart
  nodup := pool ▸ h.nodup
  seen y := by rw [seen, pool, h.seen]
  offered e he := by
    obtain ⟨y, hy, made⟩ := h.offered e (pool ▸ he)
    exact ⟨y, List.mem_append_left _ hy, made⟩
  few := pool ▸ h.few
  best y hy absent := by
    rw [pool] at absent ⊢
    rcases List.mem_append.mp hy with old | new
    · exact h.best y old absent
    · rw [List.mem_singleton.mp new] at absent ⊢
      exact no_better absent

theorem push (h : Collected N stream s) (room : s.pool.length < N) (new : x.signature ∉ s.seen)
    (s' : ProgressCallback ρ) (size : s'.poolSize = s.poolSize) {entry : PoolEntry ρ}
    (made : entry.MadeOf x) (perm : s'.pool.Perm (entry :: s.pool))
    (ordered : Heap.Ordered PoolEntry.key s'.pool) (seen : s'.seen = x.signature :: s.seen)
    (fresh : entry.counter = s.counter + 1) (counter : s'.counter = s.counter + 1) :
    Collected N (stream ++ [x]) s' where
  size := size.trans h.size
  ordered := ordered
  counted e he := by
    rw [counter]
    rcases List.mem_cons.mp (perm.mem_iff.mp he) with rfl | old
    · exact fresh.le
    · exact (h.counted e old).trans (Nat.le_succ _)
  apart := by
    rw [(perm.map PoolEntry.counter).nodup_iff, List.map_cons, List.nodup_cons]
    refine ⟨fun mem => ?_, h.apart⟩
    obtain ⟨e, he, same⟩ := List.mem_map.mp mem
    have := h.counted e he
    omega
  nodup := by
    rw [(perm.map PoolEntry.signature).nodup_iff, List.map_cons, made.signature, List.nodup_cons]
    exact ⟨fun mem => new ((h.seen _).mpr mem), h.nodup⟩
  seen y := by
    rw [seen, (perm.map PoolEntry.signature).mem_iff, List.map_cons, made.signature,
      List.mem_cons, List.mem_cons, h.seen]
  offered e he := by
    rcases List.mem_cons.mp (perm.mem_iff.mp he) with rfl | old
    · exact ⟨x, by simp, made⟩
    · obtain ⟨y, hy, made'⟩ := h.offered e old
      exact ⟨y, List.mem_append_left _ hy, made'⟩
  few := by
    rw [perm.length_eq, List.length_cons]
    omega
  best y hy absent := by
    rw [(perm.map PoolEntry.signature).mem_iff, List.map_cons, made.signature] at absent
    rcases List.mem_append.mp hy with old | last
    · have := (h.best y old fun mem => absent (List.mem_cons_of_mem _ mem)).1
      omega
    · rw [List.mem_singleton.mp last] at absent
      exact absurd List.mem_cons_self absent

theorem exchange (h : Collected N stream s) (full : ¬ s.pool.length < N) (pos : ¬ N ≤ 0)
    (new : x.signature ∉ s.seen) (consistent : Consistent (stream ++ [x]))
    (s' : ProgressCallback ρ) (size : s'.poolSize = s.poolSize) {entry evicted : PoolEntry ρ}
    (made : entry.MadeOf x) (perm : (evicted :: s'.pool).Perm (entry :: s.pool))
    (ordered : Heap.Ordered PoolEntry.key s'.pool) (old : evicted ∈ s.pool)
    (worst : ∀ e ∈ entry :: s.pool, evicted.key ≤ e.key)
    (seen : s'.seen = x.signature :: s.seen.filter (· ≠ evicted.signature))
    (fresh : entry.counter = s.counter + 1) (counter : s'.counter = s.counter + 1) :
    Collected N (stream ++ [x]) s' := by
  have signatures := perm.map PoolEntry.signature
  have kept : ∀ e ∈ s'.pool, e ∈ entry :: s.pool := fun e he =>
    perm.mem_iff.mp (List.mem_cons_of_mem _ he)
  have absentNew : x.signature ∉ s.pool.map PoolEntry.signature := fun mem =>
    new ((h.seen _).mpr mem)
  have nodup : ((evicted :: s'.pool).map PoolEntry.signature).Nodup := by
    rw [signatures.nodup_iff, List.map_cons, made.signature, List.nodup_cons]
    exact ⟨absentNew, h.nodup⟩
  rw [List.map_cons, List.nodup_cons] at nodup
  obtain ⟨z, hz, madeOld⟩ := h.offered evicted old
  have length : s'.pool.length = s.pool.length := by
    simpa using perm.length_eq
  have full' : s.pool.length = N.toNat := by
    have := h.few
    omega
  have lower : ∀ e ∈ s'.pool, OrderDual.ofDual e.negated ≤ OrderDual.ofDual evicted.negated :=
    fun e he => PoolEntry.objective_le_of_key_le (worst e (kept e he))
  refine ⟨size.trans h.size, ordered, ?_, ?_, nodup.2, ?_, ?_, by rw [length]; exact h.few, ?_⟩
  · intro e he
    rw [counter]
    rcases List.mem_cons.mp (kept e he) with rfl | member
    · exact fresh.le
    · exact (h.counted e member).trans (Nat.le_succ _)
  · have all : ((evicted :: s'.pool).map PoolEntry.counter).Nodup := by
      rw [(perm.map PoolEntry.counter).nodup_iff, List.map_cons, List.nodup_cons]
      refine ⟨fun mem => ?_, h.apart⟩
      obtain ⟨e, he, same⟩ := List.mem_map.mp mem
      have := h.counted e he
      omega
    exact (List.nodup_cons.mp all).2
  · intro y
    have whole := signatures.mem_iff (a := y)
    rw [List.map_cons, List.map_cons, made.signature, List.mem_cons, List.mem_cons] at whole
    rw [seen, List.mem_cons, List.mem_filter, h.seen, decide_eq_true_eq]
    by_cases same : y = evicted.signature
    · subst same
      have ne : evicted.signature ≠ x.signature := fun e =>
        absentNew (e ▸ List.mem_map_of_mem old)
      simp [ne, nodup.1]
    · simp only [same, ne_eq, not_false_eq_true, and_true, false_or] at whole ⊢
      exact whole.symm
  · intro e he
    rcases List.mem_cons.mp (kept e he) with rfl | member
    · exact ⟨x, by simp, made⟩
    · obtain ⟨y, hy, made'⟩ := h.offered e member
      exact ⟨y, List.mem_append_left _ hy, made'⟩
  · intro y hy absent
    refine ⟨length.trans full', fun e he => (lower e he).trans ?_⟩
    by_cases same : y.signature = evicted.signature
    · -- the schedule that was put out: its objective is that of the entry
      rw [madeOld.2]
      exact (consistent z (List.mem_append_left _ hz) y hy
        (madeOld.signature.symm.trans same.symm)).le
    · have whole := signatures.mem_iff (a := y.signature)
      rw [List.map_cons, List.map_cons, made.signature, List.mem_cons, List.mem_cons] at whole
      have outside := fun mem => (whole.mpr mem).elim same absent
      rcases List.mem_append.mp hy with before | last
      · exact (h.best y before fun mem => outside (Or.inr mem)).2 evicted old
      · rw [List.mem_singleton.mp last] at outside
        exact absurd (Or.inl rfl) outside

theorem step (h : Collected N stream s) (consistent : Consistent (stream ++ [x])) :
    Collected N (stream ++ [x]) (s.maybeCaptureCandidate x) := by
  have full : ¬ s.pool.length < N → s.pool.length = N.toNat := by
    intro full
    have := h.few
    omega
  unfold ProgressCallback.maybeCaptureCandidate
  by_cases skip : s.poolSize ≤ 0 ∨ x.signature ∈ s.seen
  · rw [if_pos skip]
    refine h.pass s rfl rfl rfl le_rfl fun absent => ?_
    rcases skip with none | held
    · have few := h.few
      rw [h.size] at none
      have empty : s.pool = [] := List.eq_nil_of_length_eq_zero (by omega)
      rw [empty]
      exact ⟨by simp; omega, fun e he => absurd he List.not_mem_nil⟩
    · exact absurd ((h.seen _).mp held) absent
  rw [if_neg skip]
  obtain ⟨pos, new⟩ := not_or.mp skip
  rw [h.size] at pos
  dsimp only
  rw [h.size]
  have made : (⟨OrderDual.toDual x.objectiveValue, s.counter + 1, x.snapshot⟩ :
    PoolEntry ρ).MadeOf x := ⟨rfl, rfl⟩
  by_cases room : s.pool.length < N
  · rw [if_pos room]
    exact h.push room new _ h.size.symm made (Heap.heappush_perm ..)
      (Heap.heappush_ordered h.ordered _) rfl rfl rfl
  rw [if_neg room]
  cases hp : s.pool with
  | nil =>
    rw [hp, List.length_nil] at room
    omega
  | cons top rest =>
    dsimp only
    rw [← hp]
    have first : ∀ e ∈ s.pool, top.key ≤ e.key := by
      rw [hp]
      exact Heap.Ordered.first_le (hp ▸ h.ordered)
    have member : top ∈ s.pool := hp ▸ List.mem_cons_self
    by_cases better : top.key < PoolEntry.key
        ⟨OrderDual.toDual x.objectiveValue, s.counter + 1, x.snapshot⟩
    · rw [if_pos better]
      have least := Heap.heappushpop_le h.ordered
        ⟨OrderDual.toDual x.objectiveValue, s.counter + 1, x.snapshot⟩
      have perm := Heap.heappushpop_perm PoolEntry.key s.pool
        ⟨OrderDual.toDual x.objectiveValue, s.counter + 1, x.snapshot⟩
      refine h.exchange room pos new consistent _ h.size.symm made perm
        (Heap.heappushpop_ordered h.ordered _) ?_ least rfl rfl rfl
      rcases List.mem_cons.mp (perm.mem_iff.mp List.mem_cons_self) with self | old
      · have := least top (List.mem_cons_of_mem _ member)
        rw [self] at this
        exact absurd this (not_le.mpr better)
      · exact old
    · rw [if_neg better]
      refine h.pass _ h.size.symm rfl rfl (Nat.le_succ _) fun _ => ⟨full room, fun e he => ?_⟩
      exact PoolEntry.objective_le_of_key_le ((not_lt.mp better).trans (first e he))

theorem solve (N : Int) (consistent : Consistent stream) :
    Collected N stream (ProgressCallback.solve N stream) := by
  induction stream using List.reverseRecOn with
  | nil => exact start N
  | append_singleton stream x ih =>
    rw [ProgressCallback.solve, List.foldl_concat]
    refine (ih fun y hy z hz => ?_).step consistent
    exact consistent y (List.mem_append_left _ hy) z (List.mem_append_left _ hz)

end Collected

/-! ## The candidates -/

/-- The best `N` of the schedules of `stream`, each once, the lowest objective first. -/
structure Lowest (N : Int) (stream : List (SolutionCallback ρ)) (c : List (ScheduleSnapshot ρ)) :
    Prop where
  offered : ∀ e ∈ c, ∃ x ∈ stream, e = x.snapshot
  sorted : c.Pairwise fun e e' => e.objectiveValue ≤ e'.objectiveValue
  nodup : (c.map fun e => signatureOf e.assignments).Nodup
  many : c.length = min N.toNat (stream.map SolutionCallback.signature).dedup.length
  best : ∀ x ∈ stream, (∀ e ∈ c, signatureOf e.assignments ≠ x.signature) →
    ∀ e ∈ c, e.objectiveValue ≤ x.objectiveValue

theorem ProgressCallback.mem_candidates {e : ScheduleSnapshot ρ} :
    e ∈ s.candidates ↔ ∃ entry ∈ s.pool, entry.snapshot = e := by
  rw [ProgressCallback.candidates, List.mem_map]
  exact exists_congr fun entry => and_congr_left' (sortBy_perm _ s.pool).mem_iff

theorem Collected.lowest (h : Collected N stream s) : Lowest N stream s.candidates := by
  have perm : (s.candidates.map fun e => signatureOf e.assignments).Perm
      (s.pool.map PoolEntry.signature) := by
    rw [ProgressCallback.candidates, List.map_map]
    exact (sortBy_perm _ s.pool).map _
  have objective : ∀ entry ∈ s.pool,
      OrderDual.ofDual entry.negated = entry.snapshot.objectiveValue := fun entry member => by
    obtain ⟨x, -, made⟩ := h.offered entry member
    rw [made.2, made.1]
    rfl
  refine ⟨fun e he => ?_, ?_, perm.nodup_iff.mpr h.nodup, ?_, fun x hx absent e he => ?_⟩
  · obtain ⟨entry, member, rfl⟩ := ProgressCallback.mem_candidates.mp he
    obtain ⟨x, hx, made⟩ := h.offered entry member
    exact ⟨x, hx, made.1⟩
  · rw [ProgressCallback.candidates, List.pairwise_map]
    refine (pairwise_sortBy _ s.pool).imp_of_mem fun {a b} ha hb le => ?_
    rwa [objective a ((sortBy_perm _ s.pool).mem_iff.mp ha),
      objective b ((sortBy_perm _ s.pool).mem_iff.mp hb)] at le
  · have length : s.candidates.length = (s.pool.map PoolEntry.signature).length := by
      rw [← perm.length_eq, List.length_map]
    rw [length]
    have inside : s.pool.map PoolEntry.signature ⊆
        (stream.map SolutionCallback.signature).dedup := fun y hy => by
      obtain ⟨entry, member, rfl⟩ := List.mem_map.mp hy
      obtain ⟨x, hx, made⟩ := h.offered entry member
      exact List.mem_dedup.mpr (List.mem_map.mpr ⟨x, hx, made.signature.symm⟩)
    have le := (h.nodup.subperm inside).length_le
    have few := h.few
    by_cases every : ∀ x ∈ stream, x.signature ∈ s.pool.map PoolEntry.signature
    · have back : (stream.map SolutionCallback.signature).dedup ⊆
          s.pool.map PoolEntry.signature := fun y hy => by
        obtain ⟨x, hx, rfl⟩ := List.mem_map.mp (List.mem_dedup.mp hy)
        exact every x hx
      have ge := ((List.nodup_dedup _).subperm back).length_le
      rw [List.length_map] at le ge ⊢
      omega
    · obtain ⟨x, hx, absent⟩ : ∃ x ∈ stream, x.signature ∉ s.pool.map PoolEntry.signature := by
        simpa using every
      have full := (h.best x hx absent).1
      rw [List.length_map] at le ⊢
      omega
  · obtain ⟨entry, member, rfl⟩ := ProgressCallback.mem_candidates.mp he
    rw [← objective entry member]
    refine (h.best x hx fun mem => ?_).2 entry member
    obtain ⟨other, there, same⟩ := List.mem_map.mp mem
    exact absent _ (ProgressCallback.mem_candidates.mpr ⟨other, there, rfl⟩) same

/-- **The pool holds the best schedules.** After any callbacks in which a schedule always comes
with one objective value, the candidates are the `N` distinct schedules with the lowest
objectives, or all of them, sorted; a candidate that is put out later leaves for no worse ones. -/
theorem candidates_lowest (N : Int) (stream : List (SolutionCallback ρ))
    (consistent : Consistent stream) :
    Lowest N stream (ProgressCallback.solve N stream).candidates ∧
      ∀ earlier, earlier <+: stream → ∀ e ∈ (ProgressCallback.solve N earlier).candidates,
        (∀ e' ∈ (ProgressCallback.solve N stream).candidates,
          signatureOf e'.assignments ≠ signatureOf e.assignments) →
        ∀ e' ∈ (ProgressCallback.solve N stream).candidates,
          e'.objectiveValue ≤ e.objectiveValue := by
  have lowest := (Collected.solve N consistent).lowest
  refine ⟨lowest, fun earlier before e he absent e' he' => ?_⟩
  obtain ⟨later, rfl⟩ := before
  have consistent' : Consistent earlier := fun y hy z hz =>
    consistent y (List.mem_append_left _ hy) z (List.mem_append_left _ hz)
  obtain ⟨x, hx, rfl⟩ := (Collected.solve N consistent').lowest.offered e he
  exact lowest.best x (List.mem_append_left _ hx) absent e' he'

/-- Three schedules in a pool of two; the worst is called back once more at the end. -/
theorem candidates_lowest_of_three :
    Lowest 2 [⟨(9 : Int), [⟨"m", 3, 1, 2⟩], 1, "a"⟩, ⟨7, [⟨"m", 2, 1, 2⟩], 2, "b"⟩,
        ⟨4, [⟨"m", 0, 1, 2⟩], 3, "c"⟩, ⟨9, [⟨"m", 3, 1, 2⟩], 4, "d"⟩]
      [⟨[⟨"m", 0, 1, 2⟩], 4, 3, "c"⟩, ⟨[⟨"m", 2, 1, 2⟩], 7, 2, "b"⟩] := by
  have run := (candidates_lowest (ρ := Int) 2 [⟨9, [⟨"m", 3, 1, 2⟩], 1, "a"⟩,
    ⟨7, [⟨"m", 2, 1, 2⟩], 2, "b"⟩, ⟨4, [⟨"m", 0, 1, 2⟩], 3, "c"⟩,
    ⟨9, [⟨"m", 3, 1, 2⟩], 4, "d"⟩] (by decide)).1
  have same : (ProgressCallback.solve (ρ := Int) 2 [⟨9, [⟨"m", 3, 1, 2⟩], 1, "a"⟩,
      ⟨7, [⟨"m", 2, 1, 2⟩], 2, "b"⟩, ⟨4, [⟨"m", 0, 1, 2⟩], 3, "c"⟩,
      ⟨9, [⟨"m", 3, 1, 2⟩], 4, "d"⟩]).candidates =
      [⟨[⟨"m", 0, 1, 2⟩], 4, 3, "c"⟩, ⟨[⟨"m", 2, 1, 2⟩], 7, 2, "b"⟩] := by decide +kernel
  rwa [same] at run

end Engine
