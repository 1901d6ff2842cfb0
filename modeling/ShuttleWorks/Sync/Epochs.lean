import ShuttleWorks.Sync.Cloud

/-! Invariants of the epoch rows: at most one live epoch for a tournament, rows
in strictly increasing epochs, and every cursor belongs to an epoch. -/

namespace Sync
open Lib

variable {s : Store} {a a' b : TournamentAuthority} {s' : Store}

theorem lt_nextEpoch (h : a ∈ s.authorities.rows) :
    a.epoch < nextEpoch s a.tournamentId := by
  have hm : a.epoch ∈ (s.authorities.rows.filter
      (fun b => b.tournamentId = a.tournamentId)).map TournamentAuthority.epoch :=
    List.mem_map_of_mem (by simpa using h)
  have := List.le_max?_getD_of_mem (k := 0) hm
  unfold nextEpoch Store.maxEpoch
  omega

theorem TournamentAuthority.Becomes.key_eq (h : a.Becomes a') :
    a'.key = a.key := by
  obtain ⟨_, _, _, e, -⟩ := h
  rw [e]
  rfl

theorem TournamentAuthority.Becomes.nodeId_eq (h : a.Becomes a') :
    a'.nodeId = a.nodeId := by
  obtain ⟨_, _, _, e, -⟩ := h
  rw [e]

theorem TournamentAuthority.Becomes.live_before (h : a.Becomes a') :
    a.state.live = true := by
  obtain ⟨_, _, _, -, ⟨h, -⟩ | ⟨h, -⟩⟩ := h
  · simp [h, AuthorityState.live]
  · exact h

theorem mem_put_authority (ha : a ∈ s.authorities.rows) (h : a.Becomes a') :
    b ∈ (s.authorities.put a').rows ↔ b = a' ∨ (b ∈ s.authorities.rows ∧ b ≠ a) := by
  rw [Table.mem_put, h.key_eq]
  constructor
  · rintro (rfl | ⟨hb, hk⟩)
    · exact Or.inl rfl
    · exact Or.inr ⟨hb, fun e => hk (e ▸ rfl)⟩
  · rintro (rfl | ⟨hb, hne⟩)
    · exact Or.inl rfl
    · exact Or.inr ⟨hb, fun hk => hne (Table.eq_of_key_eq hb ha hk)⟩

/-! ## One live epoch -/

def OneLive (s : Store) : Prop :=
  ∀ a ∈ s.authorities.rows, ∀ b ∈ s.authorities.rows,
    a.tournamentId = b.tournamentId → a.state.live → b.state.live → a = b

theorem EpochMove.oneLive (h : EpochMove s s') (hs : OneLive s) : OneLive s' := by
  intro b hb c hc ht hbl hcl
  cases h with
  | opened a kept next free authorities checkpoints =>
    simp only [authorities, List.mem_append, List.mem_singleton] at hb hc
    rcases hb with hb | rfl <;> rcases hc with hc | rfl
    · exact hs b hb c hc ht hbl hcl
    · simp [free hcl b hb ht] at hbl
    · simp [free hbl c hc ht.symm] at hcl
    · rfl
  | moved a a' kept mem becomes authorities checkpoints =>
    have key := becomes.key_eq
    simp only [TournamentAuthority.key, Prod.mk.injEq] at key
    rw [authorities, mem_put_authority mem becomes] at hb hc
    rcases hb with rfl | ⟨hb, hba⟩ <;> rcases hc with rfl | ⟨hc, hca⟩
    · rfl
    · exact absurd (hs a mem c hc (key.1 ▸ ht) becomes.live_before hcl).symm hca
    · exact absurd (hs b hb a mem (ht.trans key.1) hbl becomes.live_before) hba
    · exact hs b hb c hc ht hbl hcl
  | idle kept authorities checkpoints =>
    rw [authorities] at hb hc
    exact hs b hb c hc ht hbl hcl

/-! ## Epochs increase -/

def epochsOf (s : Store) (tournamentId : Uuid) : List Nat :=
  (s.authorities.rows.filter (fun a => a.tournamentId = tournamentId)).map
    TournamentAuthority.epoch

theorem epochsOf_put (ha : a ∈ s.authorities.rows) (h : a.Becomes a') (tournamentId : Uuid) :
    epochsOf { s with authorities := s.authorities.put a' } tournamentId =
      epochsOf s tournamentId := by
  have hhas : s.authorities.Has a'.key := Table.has_iff.mpr ⟨a, ha, h.key_eq.symm⟩
  have same : ∀ x : TournamentAuthority,
      (if x.key = a'.key then a' else x).tournamentId = x.tournamentId ∧
        (if x.key = a'.key then a' else x).epoch = x.epoch := by
    intro x
    split
    · next hx =>
      simp only [TournamentAuthority.key, Prod.mk.injEq] at hx
      exact ⟨hx.1.symm, hx.2.symm⟩
    · exact ⟨rfl, rfl⟩
  simp only [epochsOf, Table.rows_put_of_has hhas, List.filter_map, List.map_map,
    Function.comp_def, same]

theorem EpochMove.epochsOf_eq (h : EpochMove s s') (tournamentId : Uuid) :
    epochsOf s' tournamentId = epochsOf s tournamentId ∨
      ∃ e, (∀ d ∈ epochsOf s tournamentId, d < e) ∧
        epochsOf s' tournamentId = epochsOf s tournamentId ++ [e] := by
  cases h with
  | opened a kept next free authorities checkpoints =>
    by_cases ht : a.tournamentId = tournamentId
    · refine Or.inr ⟨a.epoch, fun d hd => ?_, ?_⟩
      · obtain ⟨b, hb, rfl⟩ := List.mem_map.mp hd
        simp only [List.mem_filter, decide_eq_true_eq] at hb
        have := lt_nextEpoch hb.1
        rw [hb.2, ← ht, ← next] at this
        exact this
      · simp [epochsOf, authorities, ht]
    · left
      simp [epochsOf, authorities, ht]
  | moved a a' kept mem becomes authorities checkpoints =>
    left
    rw [← epochsOf_put mem becomes tournamentId]
    simp [epochsOf, authorities]
  | idle kept authorities checkpoints =>
    left
    simp [epochsOf, authorities]

def Increasing (s : Store) : Prop := ∀ t, (epochsOf s t).Pairwise (· < ·)

theorem EpochMove.increasing (h : EpochMove s s') (hs : Increasing s) :
    Increasing s' := by
  intro t
  rcases h.epochsOf_eq t with e | ⟨e, he, e'⟩
  · rw [e]
    exact hs t
  · rw [e', List.pairwise_append]
    exact ⟨hs t, List.pairwise_singleton _ _, fun d hd x hx => List.mem_singleton.mp hx ▸ he d hd⟩

/-! ## Cursors -/

def CursorsKnown (s : Store) : Prop := ∀ c ∈ s.checkpoints.rows, s.authorities.Has c.key

theorem EpochMove.has (h : EpochMove s s') {k : EpochKey} (hk : s.authorities.Has k) :
    s'.authorities.Has k := by
  obtain ⟨b, hb, rfl⟩ := Table.has_iff.mp hk
  rw [Table.has_iff]
  cases h with
  | opened a kept next free authorities checkpoints =>
    exact ⟨b, by simp [authorities, hb], rfl⟩
  | moved a a' kept mem becomes authorities checkpoints =>
    simp only [authorities, mem_put_authority mem becomes]
    by_cases hba : b = a
    · exact ⟨a', Or.inl rfl, hba ▸ becomes.key_eq⟩
    · exact ⟨b, Or.inr ⟨hb, hba⟩, rfl⟩
  | idle kept authorities checkpoints => exact ⟨b, authorities ▸ hb, rfl⟩

theorem EpochMove.cursorsKnown (h : EpochMove s s') (hs : CursorsKnown s) :
    CursorsKnown s' := by
  intro c hc
  cases h with
  | opened a kept next free authorities checkpoints =>
    rcases checkpoints with e | e
    · exact EpochMove.has (.opened a kept next free authorities (Or.inl e)) (hs c (e ▸ hc))
    · rw [e, List.mem_append, List.mem_singleton] at hc
      rcases hc with hc | rfl
      · exact EpochMove.has (.opened a kept next free authorities (Or.inr e)) (hs c hc)
      · exact Table.has_iff.mpr ⟨a, by simp [authorities], rfl⟩
  | moved a a' kept mem becomes authorities checkpoints =>
    exact EpochMove.has (.moved a a' kept mem becomes authorities checkpoints)
      (hs c (checkpoints ▸ hc))
  | idle kept authorities checkpoints =>
    exact EpochMove.has (.idle kept authorities checkpoints) (hs c (checkpoints ▸ hc))

theorem EpochMove.cloudCursor_eq (h : EpochMove s s') (hs : CursorsKnown s) (tournamentId : Uuid)
    (epoch : Nat) :
    cloudCursor s' tournamentId epoch = cloudCursor s tournamentId epoch := by
  unfold cloudCursor
  cases h with
  | opened a kept next free authorities checkpoints =>
    rcases checkpoints with e | e
    · rw [e]
    · rw [Table.get_of_rows_concat e]
      by_cases hk : (a.tournamentId, a.epoch) = (tournamentId, epoch)
      · have unseen : s.checkpoints.get (tournamentId, epoch) = none := by
          rw [Table.get_eq_none_iff, Table.has_iff]
          rintro ⟨c, hc, hck⟩
          obtain ⟨b, hb, hbk⟩ := Table.has_iff.mp (hs c hc)
          have hba : b.key = (a.tournamentId, a.epoch) := hbk.trans (hck.trans hk.symm)
          simp only [TournamentAuthority.key, Prod.mk.injEq] at hba
          have := lt_nextEpoch hb
          rw [hba.1, ← next, hba.2] at this
          exact Nat.lt_irrefl _ this
        simp only [SyncCheckpoint.key, hk, ↓reduceIte, unseen]
      · simp only [SyncCheckpoint.key, hk, ↓reduceIte]
  | moved a a' kept mem becomes authorities checkpoints => rw [checkpoints]
  | idle kept authorities checkpoints => rw [checkpoints]

/-! ## Granted work -/

/-- An epoch row granted its node the commands of the operations stored for it. -/
def Grants (s : Store) (o : EventOperation) : Prop :=
  ∃ a ∈ s.authorities.rows, a.key = o.epochKey ∧ a.nodeId = o.nodeId ∧
    o.commandType ∈ a.allowedCommandClasses.getD [] ∧ supportsOperationSchema o.schemaVersion

theorem EpochMove.grants (h : EpochMove s s') {o : EventOperation} (ho : Grants s o) :
    Grants s' o := by
  obtain ⟨b, hb, hk, hn, hc, hv⟩ := ho
  cases h with
  | opened a kept next free authorities checkpoints =>
    exact ⟨b, by simp [authorities, hb], hk, hn, hc, hv⟩
  | moved a a' kept mem becomes authorities checkpoints =>
    by_cases hba : b = a
    · subst hba
      refine ⟨a', by simp [authorities, mem_put_authority mem becomes],
        becomes.key_eq.trans hk, becomes.nodeId_eq.trans hn, ?_, hv⟩
      obtain ⟨_, _, _, e, -⟩ := becomes
      rw [e]
      exact hc
    · exact ⟨b, by simp [authorities, mem_put_authority mem becomes, hb, hba], hk, hn, hc, hv⟩
  | idle kept authorities checkpoints => exact ⟨b, authorities ▸ hb, hk, hn, hc, hv⟩

/-! ## Dead epochs -/

theorem EpochMove.mem_of_not_live (h : EpochMove s s') (hb : b ∈ s.authorities.rows)
    (hl : b.state.live = false) : b ∈ s'.authorities.rows := by
  cases h with
  | opened a kept next free authorities checkpoints => simp [authorities, hb]
  | moved a a' kept mem becomes authorities checkpoints =>
    rw [authorities, mem_put_authority mem becomes]
    refine Or.inr ⟨hb, ?_⟩
    rintro rfl
    simp [becomes.live_before] at hl
  | idle kept authorities checkpoints => exact authorities ▸ hb

theorem OneLive.not_live_of_lt (hs : OneLive s) (ha : a ∈ s.authorities.rows)
    (hb : b ∈ s.authorities.rows) (ht : b.tournamentId = a.tournamentId) (hlt : b.epoch < a.epoch)
    (hl : a.state.live) :
    b.state.live = false := by
  by_contra h
  have := hs b hb a ha ht (by simpa using h) hl
  rw [this] at hlt
  exact Nat.lt_irrefl _ hlt

end Sync
