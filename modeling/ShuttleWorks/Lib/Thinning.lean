import Mathlib.Data.List.SplitBy
import Mathlib.Order.Lattice

/-! Rankings in two steps: a list sorted from the highest key down is split into the groups that are
level, and each group is put in an order of its own. -/

namespace Lib

section

variable {α κ : Type} [LinearOrder κ] {key : α → κ}

def Descends (key : α → κ) (l : List α) : Prop := l.Pairwise fun a b => key b ≤ key a

theorem groups_descend {groups : List (List α)} (sorted : Descends key groups.flatten)
    (level : ∀ g ∈ groups, ∀ a ∈ g, ∀ b ∈ g, key a = key b)
    (apart : groups.IsChain fun g h => ∃ hg hh, key (g.getLast hg) ≠ key (h.head hh)) :
    groups.Pairwise fun g h => ∀ a ∈ g, ∀ b ∈ h, key b < key a := by
  induction groups with
  | nil => exact List.Pairwise.nil
  | cons g groups ih =>
    rw [Descends, List.flatten_cons, List.pairwise_append] at sorted
    obtain ⟨-, below, across⟩ := sorted
    rw [List.isChain_cons] at apart
    refine List.Pairwise.cons ?_
      (ih below (fun h hh => level h (List.mem_cons_of_mem _ hh)) apart.2)
    intro h hh a ha b hb
    cases groups with
    | nil => cases hh
    | cons first rest =>
      obtain ⟨hg, hf, ne⟩ := apart.1 first rfl
      have last := List.getLast_mem hg
      have head := List.head_mem hf
      have step : key (first.head hf) < key (g.getLast hg) :=
        lt_of_le_of_ne (across _ last _ (List.mem_flatten_of_mem List.mem_cons_self head)) ne.symm
      have under : key b ≤ key (first.head hf) := by
        rw [List.flatten_cons] at below
        rcases List.mem_cons.mp hh with rfl | mem
        · exact (level _ (List.mem_cons_of_mem _ List.mem_cons_self) _ hb _ head).le
        · exact (List.pairwise_append.mp below).2.2 _ head _ (List.mem_flatten_of_mem mem hb)
      calc key b ≤ key (first.head hf) := under
        _ < key (g.getLast hg) := step
        _ = key a := level g List.mem_cons_self _ last _ ha

theorem group_eq_filter {groups : List (List α)}
    (level : ∀ g ∈ groups, ∀ a ∈ g, ∀ b ∈ g, key a = key b)
    (descend : groups.Pairwise fun g h => ∀ a ∈ g, ∀ b ∈ h, key b < key a) {g : List α}
    (hg : g ∈ groups) {a : α} (ha : a ∈ g) :
    groups.flatten.filter (fun b => key b = key a) = g := by
  induction groups with
  | nil => cases hg
  | cons first rest ih =>
    obtain ⟨below, descend⟩ := List.pairwise_cons.mp descend
    rw [List.flatten_cons, List.filter_append]
    rcases List.mem_cons.mp hg with rfl | mem
    · rw [List.filter_eq_self.mpr, List.filter_eq_nil_iff.mpr, List.append_nil]
      · intro b hb
        obtain ⟨h, hh, hb⟩ := List.mem_flatten.mp hb
        simpa using (below h hh a ha b hb).ne
      · intro b hb
        simpa using level g List.mem_cons_self b hb a ha
    · rw [List.filter_eq_nil_iff.mpr, List.nil_append]
      · exact ih (fun h hh => level h (List.mem_cons_of_mem _ hh)) descend mem
      · intro b hb
        simpa using (below g mem b hb a ha).ne'

/-- **A ranking in two steps.** However the level groups of a sorted list are ordered, one element
comes before another if its key is higher, or if it does in their group. -/
theorem pairwise_refined {l : List α} (sorted : Descends key l) {refine : List α → List α}
    (perm : ∀ g, (refine g).Perm g) {T : List α → α → α → Prop}
    (ties : ∀ a ∈ l, (refine (l.filter fun b => key b = key a)).Pairwise
      (T (l.filter fun b => key b = key a))) :
    ((l.splitBy fun a b => decide (key a = key b)).flatMap refine).Pairwise fun a b =>
      key b < key a ∨ key a = key b ∧ T (l.filter fun c => key c = key a) a b := by
  obtain ⟨groups, hgroups⟩ : ∃ groups, groups = l.splitBy fun a b => decide (key a = key b) :=
    ⟨_, rfl⟩
  have whole : groups.flatten = l := by rw [hgroups, List.flatten_splitBy]
  have level : ∀ g ∈ groups, ∀ a ∈ g, ∀ b ∈ g, key a = key b := by
    intro g hg
    rw [hgroups] at hg
    have chain : g.IsChain fun a b => key a = key b :=
      (List.isChain_of_mem_splitBy hg).imp fun {a b} same => of_decide_eq_true same
    have : IsTrans α fun a b => key a = key b := ⟨fun _ _ _ => Eq.trans⟩
    have : Std.Symm fun a b : α => key a = key b := ⟨fun _ _ => Eq.symm⟩
    exact List.Pairwise.forall_of_forall (fun _ _ => rfl) chain.pairwise
  have descend := groups_descend (show Descends key groups.flatten from whole.symm ▸ sorted) level (by
    rw [hgroups]
    refine (List.isChain_getLast_head_splitBy _ l).imp ?_
    rintro g h ⟨hg, hh, ne⟩
    exact ⟨hg, hh, of_decide_eq_false ne⟩)
  have filtered : ∀ g ∈ groups, ∀ a ∈ g, (l.filter fun b => key b = key a) = g := by
    intro g hg a ha
    rw [← whole]
    exact group_eq_filter level descend hg ha
  rw [← hgroups, List.pairwise_flatMap]
  constructor
  · intro g hg
    cases g with
    | nil => rw [(perm []).eq_nil]; exact List.Pairwise.nil
    | cons first rest =>
      have top := filtered _ hg first List.mem_cons_self
      have mem : first ∈ l := whole ▸ List.mem_flatten_of_mem hg List.mem_cons_self
      have ordered := ties first mem
      rw [top] at ordered
      refine ordered.imp_of_mem fun {a b} ha hb rel => .inr ?_
      rw [(perm _).mem_iff] at ha hb
      exact ⟨level _ hg a ha b hb, by rwa [filtered _ hg a ha]⟩
  · refine descend.imp fun {g h} below a ha b hb => .inl ?_
    exact below a ((perm g).mem_iff.mp ha) b ((perm h).mem_iff.mp hb)

end

/-! ## Thinning a list

Its first elements stay, and beyond them the first of each kind that was not seen yet. Thinning
again what an earlier thinning left loses nothing. -/

variable {α κ τ : Type} [DecidableEq κ] (kind : α → κ)

def firsts (seen : List κ) : List α → List α
  | [] => []
  | a :: rest =>
    if kind a ∈ seen then firsts seen rest else a :: firsts (kind a :: seen) rest

/-- The first `n` elements, and the first of each kind beyond them. -/
def thin (seen : List κ) : Nat → List α → List α
  | 0, rows => firsts kind seen rows
  | _ + 1, [] => []
  | n + 1, a :: rest => a :: thin (kind a :: seen) n rest

variable {kind} {seen seen' : List κ}

theorem firsts_congr (same : ∀ k, k ∈ seen ↔ k ∈ seen') (rows : List α) :
    firsts kind seen rows = firsts kind seen' rows := by
  induction rows generalizing seen seen' with
  | nil => rfl
  | cons a rest ih =>
    have grown : ∀ k, k ∈ kind a :: seen ↔ k ∈ kind a :: seen' := by simp [same]
    simp only [firsts, same, ih same, ih grown]

theorem thin_eq (n : Nat) (rows : List α) :
    thin kind seen n rows =
      rows.take n ++ firsts kind ((rows.take n).map kind ++ seen) (rows.drop n) := by
  induction rows generalizing seen n with
  | nil => cases n <;> simp [thin, firsts]
  | cons a rest ih =>
    cases n with
    | zero => simp [thin]
    | succ n =>
      simp only [thin, ih, List.take_succ_cons, List.drop_succ_cons, List.cons_append,
        List.map_cons]
      congr 2
      apply firsts_congr
      intro k
      simp only [List.mem_append, List.mem_cons]
      tauto

theorem firsts_sublist (rows : List α) : (firsts kind seen rows).Sublist rows := by
  induction rows generalizing seen with
  | nil => exact .slnil
  | cons a rest ih =>
    rw [firsts]
    split
    · exact ih.cons a
    · exact ih.cons_cons a

theorem thin_sublist (n : Nat) (rows : List α) : (thin kind seen n rows).Sublist rows := by
  rw [thin_eq]
  exact ((List.Sublist.refl _).append (firsts_sublist _)).trans
    (by rw [List.take_append_drop])

/-- **Thinning what was thinned less is thinning all of it.** -/
theorem thin_thin {n m : Nat} (fewer : n ≤ m) (less : ∀ k ∈ seen', k ∈ seen) (rows : List α) :
    thin kind seen n (thin kind seen' m rows) = thin kind seen n rows := by
  induction rows generalizing seen seen' n m with
  | nil =>
    have none : thin kind seen' m ([] : List α) = [] := by cases m <;> rfl
    rw [none]
  | cons a rest ih =>
    have grown : ∀ k ∈ kind a :: seen', k ∈ kind a :: seen := by
      intro k hk
      rw [List.mem_cons] at hk ⊢
      exact hk.imp_right (less k)
    -- the head was dropped before: its kind was seen then, and so it is now
    have dropped : kind a ∈ seen' → n = 0 → m = 0 →
        thin kind seen n (thin kind seen' m (a :: rest)) = thin kind seen n (a :: rest) := by
      rintro old rfl rfl
      have tail := ih (Nat.le_refl 0) less
      simp only [thin] at tail
      simp only [thin, firsts, old, less _ old, ↓reduceIte, tail]
    by_cases old : kind a ∈ seen' ∧ m = 0
    · exact dropped old.1 (by omega) old.2
    -- the head stayed
    obtain ⟨m', stayed, ordered⟩ : ∃ m', thin kind seen' m (a :: rest) =
        a :: thin kind (kind a :: seen') m' rest ∧ n - 1 ≤ m' := by
      cases m with
      | zero => exact ⟨0, by simp_all [thin, firsts], by omega⟩
      | succ m' => exact ⟨m', rfl, by omega⟩
    rw [stayed]
    cases n with
    | succ n' =>
      have tail : thin kind (kind a :: seen) n' (thin kind (kind a :: seen') m' rest) =
          thin kind (kind a :: seen) n' rest := ih (by omega) grown
      simp only [thin, tail]
    | zero =>
      have tail := ih (Nat.zero_le m') grown
      simp only [thin] at tail ⊢
      by_cases seenNow : kind a ∈ seen
      · have narrow : ∀ k ∈ kind a :: seen', k ∈ seen := by
          simpa [seenNow] using less
        have tail := ih (Nat.zero_le m') narrow
        simp only [thin] at tail
        simp only [firsts, seenNow, ↓reduceIte, tail]
      · simp only [firsts, seenNow, ↓reduceIte, tail]

/-! ## What stays of a list that descends -/

section

variable [LinearOrder τ] {time : α → τ} {rows : List α} {n : Nat}

/-- The elements after `a`. -/
def laterThan (time : α → τ) (a : α) (rows : List α) : List α :=
  rows.filter (fun b => decide (time a < time b))

theorem mem_firsts (down : rows.Pairwise fun a b => time b < time a) {a : α} :
    a ∈ firsts kind seen rows ↔ a ∈ rows ∧ kind a ∉ seen ∧
      ∀ b ∈ rows, kind b = kind a → time b ≤ time a := by
  induction rows generalizing seen with
  | nil => simp [firsts]
  | cons x rest ih =>
    obtain ⟨below, down⟩ := List.pairwise_cons.mp down
    have other : a ∈ rest → kind x = kind a → ¬ time x ≤ time a :=
      fun ha _ => not_le.mpr (below a ha)
    rw [firsts]
    split
    case isTrue old =>
      rw [ih down, List.mem_cons, List.forall_mem_cons]
      constructor
      · rintro ⟨ha, new, newest⟩
        exact ⟨.inr ha, new, fun same => absurd (same ▸ old) new, newest⟩
      · rintro ⟨rfl | ha, new, -, newest⟩
        · exact absurd old new
        · exact ⟨ha, new, newest⟩
    case isFalse new =>
      rw [List.mem_cons, ih down, List.mem_cons, List.forall_mem_cons, List.mem_cons, not_or]
      constructor
      · rintro (rfl | ⟨ha, ⟨ne, unseen⟩, newest⟩)
        · exact ⟨.inl rfl, new, fun _ => le_rfl, fun b hb _ => le_of_lt (below b hb)⟩
        · exact ⟨.inr ha, unseen, fun same => absurd same.symm ne, newest⟩
      · rintro ⟨rfl | ha, unseen, head, newest⟩
        · exact .inl rfl
        · exact .inr ⟨ha, ⟨fun same => other ha same.symm (head same.symm), unseen⟩, newest⟩

theorem mem_take_iff (down : rows.Pairwise fun a b => time b < time a) {a : α} :
    a ∈ rows.take n ↔ a ∈ rows ∧ (laterThan time a rows).length < n := by
  induction rows generalizing n with
  | nil => simp [laterThan]
  | cons x rest ih =>
    obtain ⟨below, down⟩ := List.pairwise_cons.mp down
    cases n with
    | zero => simp
    | succ n =>
      rw [List.take_succ_cons, List.mem_cons, ih down, List.mem_cons]
      constructor
      · rintro (rfl | ⟨ha, few⟩)
        · have none : laterThan time a (a :: rest) = [] := by
            rw [laterThan, List.filter_eq_nil_iff]
            intro b hb
            rcases List.mem_cons.mp hb with rfl | hb
            · simp
            · simpa using le_of_lt (below b hb)
          exact ⟨.inl rfl, by simp [none]⟩
        · refine ⟨.inr ha, ?_⟩
          simp only [laterThan, List.filter_cons] at few ⊢
          split
          · simpa using few
          · omega
      · rintro ⟨rfl | ha, few⟩
        · exact .inl rfl
        · refine .inr ⟨ha, ?_⟩
          simpa [laterThan, below a ha] using few

/-- **Of a descending list the newest `n` stay, and the newest of each kind.** -/
theorem mem_thin (down : rows.Pairwise fun a b => time b < time a) {a : α} :
    a ∈ thin kind [] n rows ↔ a ∈ rows ∧ ((laterThan time a rows).length < n ∨
      ∀ b ∈ rows, kind b = kind a → time b ≤ time a) := by
  have parts := down
  rw [← List.take_append_drop n rows, List.pairwise_append] at parts
  obtain ⟨-, rest, across⟩ := parts
  have whole : ∀ b, b ∈ rows ↔ b ∈ rows.take n ∨ b ∈ rows.drop n := fun b => by
    rw [← List.mem_append, List.take_append_drop]
  rw [thin_eq, List.append_nil, List.mem_append, mem_firsts rest, mem_take_iff down]
  simp only [List.mem_map, not_exists, not_and]
  constructor
  · rintro (⟨ha, few⟩ | ⟨ha, unseen, newest⟩)
    · exact ⟨ha, .inl few⟩
    · refine ⟨(whole a).mpr (.inr ha), .inr fun b hb same => ?_⟩
      rcases (whole b).mp hb with hb | hb
      · exact absurd same (unseen b hb)
      · exact newest b hb same
  · rintro ⟨ha, few | newest⟩
    · exact .inl ⟨ha, few⟩
    · by_cases few : (laterThan time a rows).length < n
      · exact .inl ⟨ha, few⟩
      · refine .inr ?_
        have late : a ∈ rows.drop n := by
          rcases (whole a).mp ha with early | late
          · exact absurd ((mem_take_iff down).mp early).2 few
          · exact late
        refine ⟨late, fun b hb same => ?_, fun b hb => newest b ((whole b).mpr (.inr hb))⟩
        exact absurd (newest b ((whole b).mpr (.inl hb)) same) (not_le.mpr (across b hb a late))

end

end Lib
