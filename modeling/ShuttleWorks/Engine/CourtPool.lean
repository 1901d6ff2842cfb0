import ShuttleWorks.Engine.Problem

/-! Queued courts. Under the queue policy the solver chooses times only and the courts of
the pool are handed out afterwards, match by match, the first one that is free. Windows in
which a court is closed, and kept matches on a court of the pool, fall back to pinned courts. -/

namespace Engine
open Lib

structure PoolPlan where
  policy : CourtPolicy := .pinned
  poolCourts : List Int := []
  pooled : List String := []
  deriving DecidableEq, Repr

def PreviousAssignment.knownCourt (prev : PreviousAssignment) : Int :=
  prev.pinnedCourtId.getD prev.courtId

namespace Scheduler

def cutoff (s : Scheduler) : Int := s.config.currentSlot + s.config.freezeHorizonSlots

/-- The match is dragged to a place, or it is inside the freeze horizon. -/
def Held (s : Scheduler) (prev : PreviousAssignment) : Prop :=
  prev.pinnedCourtId.isSome ∨ prev.pinnedSlotId.isSome ∨
    (0 < s.config.freezeHorizonSlots ∧ prev.slotId < s.cutoff)

instance (s : Scheduler) (prev : PreviousAssignment) : Decidable (s.Held prev) :=
  inferInstanceAs (Decidable (_ ∨ _))

def kept (s : Scheduler) : List String :=
  s.lockedMatches ++ (s.previousAssignments.rows.filter fun prev =>
    s.games.Has prev.matchId ∧ s.Held prev).map PreviousAssignment.matchId

def poolCourts (s : Scheduler) : List Int :=
  s.courts.filter fun c => (Assoc.get c s.config.courtOverrides).getD .pool = .pool

def planPool (s : Scheduler) : PoolPlan :=
  if s.config.courtPolicy ≠ .queue then {}
  else if s.config.closedCourtWindows ≠ [] ∨ s.config.closedCourtIds ≠ [] then {}
  else if s.poolCourts = [] then {}
  else if ∃ id ∈ s.kept, ∃ prev ∈ s.previousAssignments.get id, prev.knownCourt ∈ s.poolCourts then {}
  else
    let pooled := (s.games.rows.map Match.id).filter (· ∉ s.kept)
    if pooled = [] then {} else { policy := .queue, poolCourts := s.poolCourts, pooled }

theorem planPool_queue {s : Scheduler} {id : String} (h : id ∈ s.planPool.pooled) :
    s.closureWindows = [] ∧ s.planPool.poolCourts = s.poolCourts ∧
      (∀ id' ∈ s.kept, ∀ prev ∈ s.previousAssignments.get id', prev.knownCourt ∉ s.poolCourts) ∧
      ∀ id', id' ∈ s.planPool.pooled ↔ id' ∈ s.games.rows.map Match.id ∧ id' ∉ s.kept := by
  have plain : id ∉ ({} : PoolPlan).pooled := by simp
  by_cases queue : s.config.courtPolicy ≠ .queue
  · exact absurd (by rwa [planPool, if_pos queue] at h) plain
  by_cases closed : s.config.closedCourtWindows ≠ [] ∨ s.config.closedCourtIds ≠ []
  · exact absurd (by rwa [planPool, if_neg queue, if_pos closed] at h) plain
  by_cases none : s.poolCourts = []
  · exact absurd (by rwa [planPool, if_neg queue, if_neg closed, if_pos none] at h) plain
  by_cases held : ∃ id ∈ s.kept, ∃ prev ∈ s.previousAssignments.get id, prev.knownCourt ∈ s.poolCourts
  · exact absurd (by rwa [planPool, if_neg queue, if_neg closed, if_neg none, if_pos held] at h) plain
  by_cases empty : (s.games.rows.map Match.id).filter (· ∉ s.kept) = []
  · refine absurd ?_ plain
    rw [planPool, if_neg queue, if_neg closed, if_neg none, if_neg held] at h
    simpa only [if_pos empty] using h
  rw [planPool, if_neg queue, if_neg closed, if_neg none, if_neg held]
  simp only [if_neg empty]
  simp only [not_or, not_not, ne_eq] at closed
  refine ⟨by simp [closureWindows, closed.1, closed.2], trivial, ?_, fun id' => by simp⟩
  exact fun id' hk prev hp mem => held ⟨id', hk, prev, hp, mem⟩

end Scheduler

/-! ## Handing out the pool -/

/-- The first court in order that is free at `start`, and the courts with it taken until `stop`. -/
def takeCourt (start stop : Int) : List (Int × Int) → Option (Int × List (Int × Int))
  | [] => none
  | (c, freeAt) :: rest =>
    if freeAt ≤ start then some (c, (c, stop) :: rest)
    else (takeCourt start stop rest).map fun p => (p.1, (c, freeAt) :: p.2)

/-- The sweep of `colour_left_edge` from courts that are free from some slot on. -/
def colourFrom : List (Int × Nat × String) → List (Int × Int) → Option (List (String × Int))
  | [], _ => some []
  | (start, duration, id) :: order, freeAt =>
    match takeCourt start (start + duration) freeAt with
    | none => none
    | some (c, freeAt') => (colourFrom order freeAt').map ((id, c) :: ·)

/-- `colour_left_edge`; `none` where it raises. -/
def colourLeftEdge (order : List (Int × Nat × String)) (courts : List Int) :
    Option (List (String × Int)) :=
  colourFrom order (courts.map fun c => (c, 0))

/-- `sort_key`. -/
def sortKeyLe (a b : Int × Nat × String) : Prop := a.1 < b.1 ∨ (a.1 = b.1 ∧ a.2.2 ≤ b.2.2)

instance : DecidableRel sortKeyLe := fun _ _ => inferInstanceAs (Decidable (_ ∨ _))

variable {freeAt : List (Int × Int)} {colours : List (String × Int)}

theorem takeCourt_spec {start stop : Int} {freeAt' : List (Int × Int)} {c : Int}
    (distinct : (freeAt.map Prod.fst).Nodup) (h : takeCourt start stop freeAt = some (c, freeAt')) :
    freeAt'.map Prod.fst = freeAt.map Prod.fst ∧ (∃ f, (c, f) ∈ freeAt ∧ f ≤ start) ∧
      ∀ p ∈ freeAt', p = (c, stop) ∨ (p ∈ freeAt ∧ p.1 ≠ c) := by
  induction freeAt generalizing freeAt' with
  | nil => simp [takeCourt] at h
  | cons q rest ih =>
    obtain ⟨c', f⟩ := q
    obtain ⟨other, distinct⟩ := List.nodup_cons.mp distinct
    rw [takeCourt] at h
    split at h
    · next free =>
      cases h
      refine ⟨rfl, ⟨f, List.mem_cons_self, free⟩, ?_⟩
      intro p hp
      rcases List.mem_cons.mp hp with rfl | hp
      · exact .inl rfl
      · refine .inr ⟨List.mem_cons_of_mem _ hp, fun e => other ?_⟩
        exact List.mem_map.mpr ⟨p, hp, e⟩
    · obtain ⟨⟨c'', rest'⟩, hr, e⟩ := Option.map_eq_some_iff.mp h
      cases e
      obtain ⟨keys, ⟨f', mem, free⟩, taken⟩ := ih distinct hr
      refine ⟨by simp [keys], ⟨f', List.mem_cons_of_mem _ mem, free⟩, ?_⟩
      intro p hp
      rcases List.mem_cons.mp hp with rfl | hp
      · exact .inr ⟨List.mem_cons_self, fun e => other (List.mem_map.mpr ⟨_, mem, e.symm⟩)⟩
      · rcases taken p hp with rfl | ⟨mem', ne⟩
        · exact .inl rfl
        · exact .inr ⟨List.mem_cons_of_mem _ mem', ne⟩

theorem colourFrom_apart {order : List (Int × Nat × String)}
    (distinct : (freeAt.map Prod.fst).Nodup) (h : colourFrom order freeAt = some colours) :
    colours.map Prod.fst = order.map (fun o => o.2.2) ∧
      (∀ p ∈ order.zip colours, ∃ f, (p.2.2, f) ∈ freeAt ∧ f ≤ p.1.1) ∧
      (order.zip colours).Pairwise fun p q => p.2.2 = q.2.2 → p.1.1 + (p.1.2.1 : Int) ≤ q.1.1 := by
  induction order generalizing freeAt colours with
  | nil =>
    rw [colourFrom] at h
    cases h
    simp
  | cons o order ih =>
    obtain ⟨start, d, id⟩ := o
    rw [colourFrom] at h
    split at h
    · simp at h
    · next c freeAt' taken =>
      obtain ⟨rest, hr, rfl⟩ := Option.map_eq_some_iff.mp h
      obtain ⟨keys, ⟨f, mem, free⟩, left⟩ := takeCourt_spec distinct taken
      obtain ⟨ids, later, apart⟩ := ih (keys ▸ distinct) hr
      -- what comes later on this court finds it taken until the match ends
      have after : ∀ q ∈ order.zip rest, ∃ f', ((q.2.2, f') ∈ freeAt ∧ q.2.2 ≠ c ∨
          q.2.2 = c ∧ f' = start + d) ∧ f' ≤ q.1.1 := by
        intro q hq
        obtain ⟨f', hf', le⟩ := later q hq
        rcases left _ hf' with e | ⟨mem', ne⟩
        · exact ⟨f', .inr ⟨congrArg Prod.fst e, congrArg Prod.snd e⟩, le⟩
        · exact ⟨f', .inl ⟨mem', ne⟩, le⟩
      refine ⟨by simp [ids], ?_, List.pairwise_cons.mpr ⟨?_, apart⟩⟩
      · intro p hp
        rcases List.mem_cons.mp hp with rfl | hp
        · exact ⟨f, mem, free⟩
        · obtain ⟨f', (⟨mem', -⟩ | ⟨e, rfl⟩), le⟩ := after p hp
          · exact ⟨f', mem', le⟩
          · exact ⟨f, e ▸ mem, by omega⟩
      · intro q hq e
        obtain ⟨f', (⟨-, ne⟩ | ⟨-, rfl⟩), le⟩ := after q hq
        · exact absurd e.symm ne
        · exact le

theorem zip_of_ids {order : List (Int × Nat × String)}
    (ids : colours.map Prod.fst = order.map (fun o => o.2.2)) {q : String × Int}
    (hq : q ∈ colours) :
    ∃ o, (o, q) ∈ order.zip colours ∧ o.2.2 = q.1 := by
  induction colours generalizing order with
  | nil => simp at hq
  | cons x colours ih =>
    cases order with
    | nil => simp at ids
    | cons o order =>
      simp only [List.map_cons, List.cons.injEq] at ids
      rcases List.mem_cons.mp hq with rfl | hq
      · exact ⟨o, List.mem_cons_self, ids.1.symm⟩
      · obtain ⟨o', mem, e⟩ := ih ids.2 hq
        exact ⟨o', List.mem_cons_of_mem _ mem, e⟩

def queuedSpan (o : Int × Nat × String) : Span := ⟨o.1, o.1 + o.2.1⟩

/-- **Handing out the pool is safe.** Every entry gets a court of the pool, nobody else does, and
two entries on one court are apart. -/
theorem colourLeftEdge_spec {order : List (Int × Nat × String)} {courts : List Int}
    {coloured : List (String × Int)} (distinct : courts.Nodup)
    (unique : (order.map fun o => o.2.2).Nodup) (h : colourLeftEdge order courts = some coloured) :
    (∀ id, id ∉ order.map (fun o => o.2.2) → Assoc.get id coloured = none) ∧
      (∀ o ∈ order, ∃ c ∈ courts, Assoc.get o.2.2 coloured = some c) ∧
      ∀ o ∈ order, ∀ o' ∈ order, o.2.2 ≠ o'.2.2 →
        Assoc.get o.2.2 coloured = Assoc.get o'.2.2 coloured → (queuedSpan o).Apart (queuedSpan o') := by
  have keys : (courts.map fun c => (c, (0 : Int))).map Prod.fst = courts := by
    rw [List.map_map]
    exact List.map_id' _
  obtain ⟨ids, free, apart⟩ := colourFrom_apart (by rwa [keys]) h
  have nodup : (Assoc.keys coloured).Nodup := by
    rw [Assoc.keys, ids]
    exact unique
  -- the entry a colour was handed to
  have found : ∀ o ∈ order, ∃ c, (o, (o.2.2, c)) ∈ order.zip coloured ∧
      Assoc.get o.2.2 coloured = some c := by
    intro o ho
    obtain ⟨⟨id, c⟩, hq, e⟩ : ∃ q ∈ coloured, q.1 = o.2.2 :=
      List.mem_map.mp (ids ▸ List.mem_map_of_mem (f := fun o => o.2.2) ho)
    obtain ⟨o', mem, e'⟩ := zip_of_ids ids hq
    obtain rfl : o' = o :=
      List.inj_on_of_nodup_map unique (List.of_mem_zip mem).1 ho (e'.trans e)
    subst e
    exact ⟨c, mem, Assoc.get_eq_some_of_mem nodup hq⟩
  refine ⟨fun id hid => ?_, fun o ho => ?_, fun o ho o' ho' ne same => ?_⟩
  · rw [Assoc.get_eq_none_iff, Assoc.keys, ids]
    exact hid
  · obtain ⟨c, mem, hc⟩ := found o ho
    obtain ⟨f, hf, -⟩ := free _ mem
    refine ⟨c, ?_, hc⟩
    obtain ⟨c', hc', e⟩ := List.mem_map.mp hf
    cases e
    exact hc'
  · obtain ⟨c, mem, hc⟩ := found o ho
    obtain ⟨c', mem', hc'⟩ := found o' ho'
    have court : c = c' := Option.some.inj (hc.symm.trans (same.trans hc'))
    let clear (p q : (Int × Nat × String) × String × Int) : Prop :=
      p.2.2 = q.2.2 → (queuedSpan p.1).Apart (queuedSpan q.1)
    have : Std.Symm clear := ⟨fun _ _ h e => (h e.symm).symm⟩
    have either : (order.zip coloured).Pairwise clear := apart.imp fun before e => .inl (before e)
    refine either.forall mem mem' (fun e => ne ?_) court
    exact congrArg (fun p : (Int × Nat × String) × String × Int => p.1.2.2) e

end Engine
