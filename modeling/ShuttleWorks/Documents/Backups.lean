import ShuttleWorks.Documents.Write
import ShuttleWorks.Lib.Thinning

/-! The backups of a tournament over time: each is made by a write or by hand, and the automatic
ones are rotated right after. What is left is what one rotation of all of them would leave. -/

namespace Documents
open Lib
open Sync (Uuid)

def automatic (backups : List TournamentBackup) : List TournamentBackup :=
  backups.filter (fun b => b.origin ≠ .manual)

/-- What stays of the automatic backups that were ever made: the newest `keep`, and the newest of
every hour. -/
def Stays (keep : Nat) (history : List TournamentBackup) (b : TournamentBackup) : Prop :=
  (laterThan TournamentBackup.createdAt b (automatic history)).length < keep ∨
    ∀ a ∈ automatic history, hourOf a = hourOf b → a.createdAt ≤ b.createdAt

/-- The backups made so far, and those that are left. A new row's id is free. -/
inductive Rotated (keep : Nat) : List TournamentBackup → List TournamentBackup → Prop
  | start : Rotated keep [] []
  | made {history table : List TournamentBackup} (b : TournamentBackup)
      (run : Rotated keep history table) (later : ∀ a ∈ history, a.createdAt < b.createdAt)
      (free : b.id ∉ table.map (·.id)) :
      Rotated keep (history ++ [b]) (rotated keep (table ++ [b]))

/-- Each row is younger than those before it. -/
abbrev Ascending (backups : List TournamentBackup) : Prop :=
  backups.Pairwise fun a b => a.createdAt < b.createdAt

/-! ## One rotation -/

theorem thinned_eq (seen : List Int) (rows : List TournamentBackup) :
    thinned seen rows = firsts hourOf seen rows := by
  induction rows generalizing seen with
  | nil => rfl
  | cons b rest ih => simp only [thinned, firsts, ih]

variable {backups : List TournamentBackup} {b : TournamentBackup} {keep : Nat}
  {table : List TournamentBackup}

theorem Ascending.eq_of_createdAt (up : Ascending backups) {a : TournamentBackup} (ha : a ∈ backups)
    (hb : b ∈ backups) (same : a.createdAt = b.createdAt) : a = b := by
  have nodup : (backups.map (·.createdAt)).Nodup := by
    rw [List.Nodup, List.pairwise_map]
    exact up.imp fun h => ne_of_lt h
  exact List.inj_on_of_nodup_map nodup ha hb same

theorem newestFirst_of_ascending (up : Ascending backups) :
    newestFirst backups = backups.reverse := by
  have sorted : (newestFirst backups).Pairwise fun a b => b.createdAt ≤ a.createdAt := by
    refine (List.pairwise_mergeSort ?_ ?_ backups).imp ?_
    · intro a b c hab hbc
      simp only [decide_eq_true_eq] at hab hbc ⊢
      rcases hab with hab | ⟨hab, iab⟩ <;> rcases hbc with hbc | ⟨hbc, ibc⟩
      · exact .inl (by omega)
      · exact .inl (by omega)
      · exact .inl (by omega)
      · exact .inr ⟨hab.trans hbc, String.le_trans ibc iab⟩
    · intro a b
      simp only [Bool.or_eq_true, decide_eq_true_eq]
      rcases lt_trichotomy a.createdAt b.createdAt with lt | eq | gt
      · exact .inr (.inl lt)
      · exact (String.le_total b.id a.id).imp (fun h => .inr ⟨eq, h⟩) (fun h => .inr ⟨eq.symm, h⟩)
      · exact .inl (.inl gt)
    · intro a b hab
      simp only [decide_eq_true_eq] at hab
      omega
  have down : backups.reverse.Pairwise fun a b => b.createdAt ≤ a.createdAt :=
    List.pairwise_reverse.mpr (up.imp fun h => le_of_lt h)
  refine List.Perm.eq_of_pairwise ?_ sorted down
    ((List.mergeSort_perm _ _).trans (List.reverse_perm backups).symm)
  intro a b ha hb hba hab
  have ha : a ∈ backups := (List.mergeSort_perm _ _).mem_iff.mp ha
  exact up.eq_of_createdAt ha (List.mem_reverse.mp hb) (le_antisymm hab hba)

theorem keptBackups_eq (keep : Nat) (up : Ascending backups) :
    keptBackups keep backups = thin hourOf [] keep (automatic backups).reverse := by
  unfold keptBackups automatic
  rw [newestFirst_of_ascending up, List.filter_reverse, thin_eq, List.append_nil]
  exact congrArg _ (thinned_eq _ _)

theorem mem_thinned_iff (keep : Nat) (up : Ascending backups) :
    b ∈ thin hourOf [] keep (automatic backups).reverse ↔
      b ∈ automatic backups ∧ Stays keep backups b := by
  have down : (automatic backups).reverse.Pairwise fun a b => b.createdAt < a.createdAt :=
    List.pairwise_reverse.mpr (up.sublist List.filter_sublist)
  rw [mem_thin down, List.mem_reverse]
  have reversed : (laterThan TournamentBackup.createdAt b (automatic backups).reverse).length =
      (laterThan TournamentBackup.createdAt b (automatic backups)).length := by
    rw [laterThan, List.filter_reverse, List.length_reverse]
    rfl
  simp only [reversed, List.mem_reverse, Stays]

/-- **What a rotation leaves**: every manual backup, and the automatic ones that stay. -/
theorem mem_rotated (up : Ascending backups) (ids : (backups.map (·.id)).Nodup) :
    b ∈ rotated keep backups ↔
      b ∈ backups ∧ (b.origin = .manual ∨ Stays keep backups b) := by
  rw [rotated, List.mem_filter, decide_eq_true_eq, and_congr_right_iff]
  intro hb
  -- an id names one row of the table
  have named : b.id ∈ (keptBackups keep backups).map (·.id) ↔ b ∈ keptBackups keep backups := by
    refine ⟨fun h => ?_, List.mem_map_of_mem⟩
    obtain ⟨a, ha, same⟩ := List.mem_map.mp h
    have mem : a ∈ automatic backups := by
      rw [keptBackups_eq keep up, mem_thinned_iff keep up] at ha
      exact ha.1
    exact List.inj_on_of_nodup_map ids (List.mem_filter.mp mem).1 hb same ▸ ha
  rw [named, keptBackups_eq keep up, mem_thinned_iff keep up]
  by_cases manual : b.origin = .manual
  · simp [manual]
  · simp [manual, automatic, hb]

/-! ## Every rotation -/

/-- After each backup the table holds what one rotation of all of them would leave. -/
structure Thinned (keep : Nat) (history table : List TournamentBackup) : Prop where
  ascending : Ascending history
  rows : table.Sublist history
  ids : (table.map (·.id)).Nodup
  automatic : (automatic table).reverse = thin hourOf [] keep (automatic history).reverse
  manual : ∀ b ∈ history, b.origin = .manual → b ∈ table

theorem automatic_append_singleton (backups : List TournamentBackup) (b : TournamentBackup) :
    (automatic (backups ++ [b])).reverse =
      if b.origin = .manual then (automatic backups).reverse
      else b :: (automatic backups).reverse := by
  by_cases manual : b.origin = .manual <;> simp [automatic, manual]

theorem thin_automatic_append {history : List TournamentBackup} (b : TournamentBackup)
    (h : (automatic table).reverse = thin hourOf [] keep (automatic history).reverse) :
    thin hourOf [] keep (automatic (table ++ [b])).reverse =
      thin hourOf [] keep (automatic (history ++ [b])).reverse := by
  rw [automatic_append_singleton, automatic_append_singleton, h]
  by_cases manual : b.origin = .manual
  · simp only [manual, ↓reduceIte]
    exact thin_thin (Nat.le_refl keep) (by simp) _
  · simp only [manual, ↓reduceIte]
    cases keep with
    | zero =>
      have tail := @thin_thin _ _ _ hourOf [hourOf b] [] 0 0 (Nat.le_refl 0) (by simp)
        (automatic history).reverse
      simp only [thin] at tail
      simp [thin, firsts, tail]
    | succ keep =>
      have tail := @thin_thin _ _ _ hourOf [hourOf b] [] keep (keep + 1) (Nat.le_succ keep)
        (by simp) (automatic history).reverse
      simp only [thin, tail]

theorem automatic_rotated (up : Ascending backups) (ids : (backups.map (·.id)).Nodup) :
    (automatic (rotated keep backups)).reverse =
      thin hourOf [] keep (automatic backups).reverse := by
  have rows : (automatic (rotated keep backups)).Sublist backups :=
    List.filter_sublist.trans List.filter_sublist
  have one : (automatic (rotated keep backups)).reverse.Pairwise
      fun a b => b.createdAt < a.createdAt := List.pairwise_reverse.mpr (up.sublist rows)
  have down : (automatic backups).reverse.Pairwise fun a b => b.createdAt < a.createdAt :=
    List.pairwise_reverse.mpr (up.sublist List.filter_sublist)
  have other := down.sublist (@thin_sublist _ _ _ hourOf [] keep _)
  have distinct : ∀ {l : List TournamentBackup},
      l.Pairwise (fun a b => b.createdAt < a.createdAt) → l.Nodup :=
    fun h => h.imp (fun {a b} lt same => absurd (same ▸ lt) (lt_irrefl _))
  have perm := (List.perm_ext_iff_of_nodup (distinct one) (distinct other)).mpr (fun b => by
    rw [mem_thinned_iff keep up, List.mem_reverse, automatic, List.mem_filter, mem_rotated up ids,
      automatic, List.mem_filter]
    by_cases manual : b.origin = .manual <;> simp [manual])
  exact perm.eq_of_pairwise (fun a b _ _ h h' => absurd (h.trans h') (lt_irrefl _)) one other

theorem Rotated.thinned {history : List TournamentBackup} (run : Rotated keep history table) :
    Thinned keep history table := by
  induction run with
  | start => exact ⟨.nil, .slnil, .nil, by cases keep <;> rfl, by simp⟩
  | @made history table b run later free ih =>
    have up : Ascending (history ++ [b]) := by
      refine List.pairwise_append.mpr ⟨ih.ascending, List.pairwise_singleton _ _, ?_⟩
      intro a ha c hc
      exact List.mem_singleton.mp hc ▸ later a ha
    have rows : (table ++ [b]).Sublist (history ++ [b]) := ih.rows.append (.refl _)
    have ids : ((table ++ [b]).map (·.id)).Nodup := by
      rw [List.map_append, List.map_singleton, List.nodup_append]
      refine ⟨ih.ids, List.nodup_singleton _, ?_⟩
      rintro a ha c hc rfl
      exact free (List.mem_singleton.mp hc ▸ ha)
    refine ⟨up, List.filter_sublist.trans rows, ids.sublist (List.filter_sublist.map _), ?_, ?_⟩
    · rw [automatic_rotated (up.sublist rows) ids, thin_automatic_append b ih.automatic]
    · intro a ha manual
      rw [mem_rotated (up.sublist rows) ids]
      refine ⟨?_, .inl manual⟩
      rcases List.mem_append.mp ha with old | new
      · exact List.mem_append_left _ (ih.manual a old manual)
      · exact List.mem_append_right _ new

/-- **Rotating after every backup leaves what one rotation of the whole history would**: every
manual backup, the newest `keep` automatic ones, and the newest one of every hour. -/
theorem rotated_keeps {keep : Nat} {history table : List TournamentBackup}
    (run : Rotated keep history table) :
    (∀ b, b ∈ table ↔ b ∈ history ∧ (b.origin = .manual ∨ Stays keep history b)) ∧
      table.Sublist history ∧
      ((history.map (·.id)).Nodup → ∀ b, b ∈ rotated keep history ↔ b ∈ table) := by
  have done := run.thinned
  have left : ∀ b, b ∈ table ↔ b ∈ history ∧ (b.origin = .manual ∨ Stays keep history b) := by
    intro b
    by_cases manual : b.origin = .manual
    · simp only [manual, true_or, and_true]
      exact ⟨fun h => done.rows.subset h, fun h => done.manual b h manual⟩
    · have mem : ∀ l, b ∈ l ↔ b ∈ automatic l := by simp [automatic, manual]
      simp only [manual, false_or]
      rw [mem table, mem history, ← List.mem_reverse, done.automatic,
        mem_thinned_iff keep done.ascending]
  exact ⟨left, done.rows, fun ids b => (mem_rotated done.ascending ids).trans (left b).symm⟩

/-! ## A morning -/

namespace Rehearsal

def morning (id : Uuid) (minute : Int) : TournamentBackup :=
  { id := id, filename := id, snapshot := [], createdAt := minute * 60000000 }

theorem morning_rotated : Rotated 1 [morning "a" 0, morning "b" 5, morning "c" 70]
    (rotated 1 (rotated 1 (rotated 1 [morning "a" 0] ++ [morning "b" 5]) ++ [morning "c" 70])) :=
  .made (morning "c" 70) (.made (morning "b" 5) (.made (morning "a" 0) .start (by simp) (by simp))
    (by decide) (by simp [rotated, morning])) (by decide) (by simp [rotated, morning])

end Rehearsal

open Rehearsal in
theorem rotated_keeps_morning :
    (∀ b, b ∈ rotated 1 (rotated 1 (rotated 1 [morning "a" 0] ++ [morning "b" 5]) ++
        [morning "c" 70]) ↔ b ∈ [morning "a" 0, morning "b" 5, morning "c" 70] ∧
          (b.origin = .manual ∨
            Stays 1 [morning "a" 0, morning "b" 5, morning "c" 70] b)) ∧
      (rotated 1 (rotated 1 (rotated 1 [morning "a" 0] ++ [morning "b" 5]) ++
        [morning "c" 70])).Sublist [morning "a" 0, morning "b" 5, morning "c" 70] :=
  ⟨(rotated_keeps morning_rotated).1, (rotated_keeps morning_rotated).2.1⟩

/-! ## What makes a backup -/

/-- A write over a stored document is one such step. -/
theorem Rotated.write {p : Entries.Platform} {x : Fresh} {s : Store}
    {history : List TournamentBackup} (run : Rotated backupKeep history s.backups)
    (stored : s.data ≠ []) (later : ∀ a ∈ history, a.createdAt < x.instant)
    (free : x.backupId ∉ s.backups.map (·.id)) :
    ∃ b, b.snapshot = s.data ∧ Rotated backupKeep (history ++ [b]) (backedUp p x s).backups := by
  rw [backedUp, if_neg stored]
  exact ⟨_, rfl, .made _ run later free⟩

end Documents
