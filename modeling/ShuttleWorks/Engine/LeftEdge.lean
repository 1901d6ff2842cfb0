import ShuttleWorks.Engine.CourtPool

/-! The left edge is as good as any. In the order of the starts the sweep fails only where more
matches are under way than there are courts, so it hands out the pool whenever anybody could. -/

namespace Engine
open Lib

abbrev QueueEntry := Int × Nat × String

def underWay (order : List QueueEntry) (t : Int) : Nat :=
  (order.filter fun o => (queuedSpan o).Holds t).length

def taken (freeAt : List (Int × Int)) (t : Int) : Nat := (freeAt.filter fun p => t < p.2).length

def lasting (order : List QueueEntry) (t : Int) : Nat :=
  (order.filter fun o => t < (queuedSpan o).stop).length

variable {freeAt : List (Int × Int)}

theorem takeCourt_eq_none {start stop : Int} (h : takeCourt start stop freeAt = none) :
    ∀ p ∈ freeAt, start < p.2 := by
  induction freeAt with
  | nil => simp
  | cons q rest ih =>
    obtain ⟨c, f⟩ := q
    rw [takeCourt] at h
    split at h
    · cases h
    · next busy =>
      rw [Option.map_eq_none_iff] at h
      exact List.forall_mem_cons.mpr ⟨not_le.mp busy, ih h⟩

theorem taken_takeCourt {start stop : Int} {freeAt' : List (Int × Int)} {c : Int}
    (h : takeCourt start stop freeAt = some (c, freeAt')) (t : Int) :
    freeAt'.length = freeAt.length ∧
      taken freeAt' t ≤ taken freeAt t + if t < stop then 1 else 0 := by
  induction freeAt generalizing freeAt' with
  | nil => simp [takeCourt] at h
  | cons q rest ih =>
    obtain ⟨c', f⟩ := q
    rw [takeCourt] at h
    split at h
    · cases h
      refine ⟨rfl, ?_⟩
      unfold taken
      rw [List.filter_cons, List.filter_cons]
      split_ifs <;> simp_all
    · obtain ⟨⟨c'', rest'⟩, hr, e⟩ := Option.map_eq_some_iff.mp h
      cases e
      obtain ⟨length, more⟩ := ih hr
      refine ⟨congrArg (· + 1) length, ?_⟩
      unfold taken at more ⊢
      rw [List.filter_cons, List.filter_cons]
      by_cases later : t < f
      · rw [if_pos (decide_eq_true later), if_pos (decide_eq_true later), List.length_cons,
          List.length_cons]
        dsimp only
        omega
      · rw [if_neg (by simpa using later), if_neg (by simpa using later)]
        exact more

theorem crowded_of_stuck {done order : List QueueEntry}
    (sorted : (done ++ order).Pairwise fun a b => a.1 ≤ b.1) (first : ∀ o ∈ order, 0 ≤ o.1)
    (length : ∀ o ∈ order, 0 < o.2.1) (busy : ∀ t, 0 ≤ t → taken freeAt t ≤ lasting done t)
    (stuck : colourFrom order freeAt = none) :
    ∃ t, freeAt.length < underWay (done ++ order) t := by
  induction order generalizing done freeAt with
  | nil => simp [colourFrom] at stuck
  | cons o order ih =>
    obtain ⟨start, d, id⟩ := o
    obtain ⟨early, first⟩ := List.forall_mem_cons.mp first
    obtain ⟨long, length⟩ := List.forall_mem_cons.mp length
    rw [colourFrom] at stuck
    split at stuck
    · next none_ =>
      -- every court is taken past the start, so that many of the entries before are under way in it
      refine ⟨start, ?_⟩
      have all : taken freeAt start = freeAt.length := by
        apply congrArg List.length
        exact List.filter_eq_self.mpr fun p hp => decide_eq_true (takeCourt_eq_none none_ p hp)
      have before := busy start early
      rw [all] at before
      refine before.trans_lt ?_
      have started : ∀ o ∈ done, o.1 ≤ start := fun o ho =>
        (List.pairwise_append.mp sorted).2.2 o ho _ List.mem_cons_self
      have held : done.filter (fun o => (queuedSpan o).Holds start) =
          done.filter fun o => start < (queuedSpan o).stop := by
        refine List.filter_congr fun o ho => decide_eq_decide.mpr ?_
        exact and_iff_right (started o ho)
      have own : (queuedSpan (start, d, id)).Holds start :=
        ⟨le_refl _, by show start < start + (d : Int); dsimp only at long; omega⟩
      rw [underWay, List.filter_append, List.length_append, held, List.filter_cons,
        if_pos (decide_eq_true own), List.length_cons, lasting]
      omega
    · next c freeAt' given =>
      rw [Option.map_eq_none_iff] at stuck
      have step := taken_takeCourt given
      rw [List.append_cons] at sorted ⊢
      have busy' : ∀ t, 0 ≤ t → taken freeAt' t ≤ lasting (done ++ [(start, d, id)]) t := by
        intro t ht
        refine (step t).2.trans ?_
        have before := busy t ht
        unfold lasting at before ⊢
        rw [List.filter_append, List.length_append]
        refine Nat.add_le_add before ?_
        split
        · next later =>
          have late : t < (queuedSpan (start, d, id)).stop := later
          rw [List.filter_cons, if_pos (decide_eq_true late)]
          exact Nat.le_add_left _ _
        · exact Nat.zero_le _
      obtain ⟨t, crowded⟩ := ih sorted first length busy' stuck
      exact ⟨t, (step 0).1 ▸ crowded⟩

theorem underWay_le_of_coloured {order : List QueueEntry} {courts : List Int}
    {coloured : List (String × Int)} (distinct : courts.Nodup)
    (h : colourLeftEdge order courts = some coloured) (t : Int) :
    underWay order t ≤ courts.length := by
  have keys : (courts.map fun c => (c, (0 : Int))).map Prod.fst = courts := by
    rw [List.map_map]
    exact List.map_id' _
  obtain ⟨ids, free, apart⟩ := colourFrom_apart (by rwa [keys]) h
  have same : coloured.length = order.length := by simpa using congrArg List.length ids
  let live := (order.zip coloured).filter fun p => (queuedSpan p.1).Holds t
  have count : underWay order t = (live.map fun p => p.2.2).length := by
    have zipped : (order.zip coloured).map Prod.fst = order := List.map_fst_zip same.ge
    rw [underWay, List.length_map, ← congrArg (List.filter _) zipped, List.filter_map,
      List.length_map]
    rfl
  have nodup : (live.map fun p => p.2.2).Nodup := by
    apply List.pairwise_map.mpr
    refine (apart.filter _).imp_of_mem ?_
    intro p q hp hq before same
    have first := (decide_eq_true_iff.mp (List.mem_filter.mp hp).2).2
    have second := (decide_eq_true_iff.mp (List.mem_filter.mp hq).2).1
    exact absurd (before same) (not_le.mpr (second.trans_lt first))
  have pool : (live.map fun p => p.2.2) ⊆ courts := by
    intro c hc
    obtain ⟨p, hp, rfl⟩ := List.mem_map.mp hc
    obtain ⟨f, hf, -⟩ := free p (List.mem_filter.mp hp).1
    exact keys ▸ List.mem_map_of_mem (f := Prod.fst) hf
  rw [count]
  exact (List.subperm_of_subset nodup pool).length_le

theorem coloured_of_roomy {order : List QueueEntry} {courts : List Int}
    (sorted : order.Pairwise sortKeyLe) (first : ∀ o ∈ order, 0 ≤ o.1)
    (length : ∀ o ∈ order, 0 < o.2.1) (roomy : ∀ t, underWay order t ≤ courts.length) :
    (colourLeftEdge order courts).isSome := by
  by_contra stuck
  rw [Option.not_isSome_iff_eq_none, colourLeftEdge] at stuck
  have starts : ([] ++ order).Pairwise fun a b : QueueEntry => a.1 ≤ b.1 :=
    sorted.imp fun le => le.elim Int.le_of_lt fun eq => eq.1.le
  have free : ∀ t, 0 ≤ t → taken (courts.map fun c => (c, 0)) t ≤ lasting [] t := by
    intro t ht
    simp [taken, List.filter_map, Function.comp_def, not_lt.mpr ht]
  obtain ⟨t, crowded⟩ := crowded_of_stuck starts first length free stuck
  rw [List.length_map, List.nil_append] at crowded
  exact absurd (roomy t) (not_le.mpr crowded)

/-- **The left edge is optimal.** In queue order, and where nothing is empty and nothing starts
before the first slot, the sweep hands out the courts if and only if no slot has more entries under
way than there are courts; and two entries that share a slot then have different courts. -/
theorem colourLeftEdge_succeeds_iff {order : List QueueEntry} {courts : List Int}
    (sorted : order.Pairwise sortKeyLe) (unique : (order.map fun o => o.2.2).Nodup)
    (first : ∀ o ∈ order, 0 ≤ o.1) (length : ∀ o ∈ order, 0 < o.2.1) (distinct : courts.Nodup) :
    ((colourLeftEdge order courts).isSome ↔ ∀ t, underWay order t ≤ courts.length) ∧
      ∀ coloured, colourLeftEdge order courts = some coloured →
        ∀ o ∈ order, (∃ c ∈ courts, Assoc.get o.2.2 coloured = some c) ∧
          ∀ o' ∈ order, o ≠ o' → (∃ t, (queuedSpan o).Holds t ∧ (queuedSpan o').Holds t) →
            Assoc.get o.2.2 coloured ≠ Assoc.get o'.2.2 coloured := by
  refine ⟨⟨fun h t => ?_, fun roomy => ?_⟩, fun coloured h o ho => ?_⟩
  · obtain ⟨coloured, h⟩ := Option.isSome_iff_exists.mp h
    exact underWay_le_of_coloured distinct h t
  · exact coloured_of_roomy sorted first length roomy
  · obtain ⟨-, given, apart⟩ := colourLeftEdge_spec distinct unique h
    refine ⟨given o ho, fun o' ho' ne ⟨t, here, there⟩ same => ?_⟩
    have ids : o.2.2 ≠ o'.2.2 := fun e => ne (List.inj_on_of_nodup_map unique ho ho' e)
    exact (apart o ho o' ho' ids same).not_both here there

/-- Two matches back to back, and one beside them. -/
theorem colourLeftEdge_two_courts :
    ((colourLeftEdge [(0, 2, "a"), (1, 3, "b"), (2, 1, "c")] [1, 2]).isSome ↔
        ∀ t, underWay [(0, 2, "a"), (1, 3, "b"), (2, 1, "c")] t ≤ 2) ∧
      colourLeftEdge [(0, 2, "a"), (1, 3, "b"), (2, 1, "c")] [1, 2] =
        some [("a", 1), ("b", 2), ("c", 1)] :=
  ⟨(colourLeftEdge_succeeds_iff (by decide) (by decide) (by decide) (by decide) (by decide)).1,
    by decide⟩

/-- An entry without length still waits for a court, though it is never under way; and the courts
are given out from the first slot on only. -/
theorem empty_entry_needs_court :
    ([((0 : Int), 2, "a"), (1, 0, "b")].Pairwise sortKeyLe ∧
      (∀ t, underWay [(0, 2, "a"), (1, 0, "b")] t ≤ [(1 : Int)].length) ∧
      colourLeftEdge [(0, 2, "a"), (1, 0, "b")] [1] = none) ∧
    (∀ t, underWay [(-1, 1, "a")] t ≤ [(1 : Int)].length) ∧
      colourLeftEdge [(-1, 1, "a")] [1] = none := by
  refine ⟨⟨by decide, fun t => ?_, by decide⟩, fun t => List.length_filter_le _ _, by decide⟩
  have never : ¬ (queuedSpan (1, 0, "b")).Holds t := by
    unfold Span.Holds queuedSpan
    dsimp only
    omega
  unfold underWay
  rw [List.filter_cons, List.filter_cons_of_neg (by simpa using never), List.filter_nil]
  split <;> simp

end Engine
