import ShuttleWorks.Lib.Positions
import ShuttleWorks.Sync.Projections

/-! The projection row is what a rebuild computes, and which batches it lets in. -/

namespace Sync
open Lib

section

/-! ## The row and the cursors -/

theorem foldl_last_sequence {os : List OperationEnvelope} {c : Nat}
    (h : os.map OperationEnvelope.sequence = List.range' (c + 1) os.length) :
    os.foldl (fun _ o => o.sequence) c = c + os.length := by
  rw [← foldl_last_range' c os.length, ← h, List.foldl_map]

/-- A tournament's row is of the only epoch that accepted operations, and stands
at its cursor. -/
structure Projected (s : Store) : Prop where
  absent : ∀ t, s.projections.get t = none → ∀ e, cloudCursor s t e = 0
  last : ∀ t p, s.projections.get t = some p → p.lastSequence = cloudCursor s t p.authorityEpoch
  others : ∀ t p, s.projections.get t = some p → ∀ e, e ≠ p.authorityEpoch → cloudCursor s t e = 0
  positive : ∀ t p, s.projections.get t = some p → 0 < p.lastSequence

variable {s s' : Store} {t : Uuid}

theorem Store.Fresh.projected (h : s.Fresh) : Projected s where
  absent t _ e := by simp [cloudCursor, Table.get, h.checkpoints]
  last t p hp := by simp [Table.get, h.projections] at hp
  others t p hp := by simp [Table.get, h.projections] at hp
  positive t p hp := by simp [Table.get, h.projections] at hp

theorem Projected.congr (hp : Projected s) (rows : s'.projections = s.projections)
    (cursors : ∀ t e, cloudCursor s' t e = cloudCursor s t e) : Projected s' := by
  refine ⟨fun t h e => ?_, fun t p h => ?_, fun t p h e he => ?_, fun t p h => ?_⟩
  · rw [cursors]
    exact hp.absent t (rows ▸ h) e
  · rw [cursors]
    exact hp.last t p (rows ▸ h)
  · rw [cursors]
    exact hp.others t p (rows ▸ h) e he
  · exact hp.positive t p (rows ▸ h)

theorem Projected.of_row (hp : Projected s) {e n : Nat} {row : CloudEventProjection}
    (epoch : row.authorityEpoch = e) (cursors : ∀ t' e', cloudCursor s' t' e' =
      cloudCursor s t' e' + if (t, e) = (t', e') then n else 0)
    (rows : ∀ t', s'.projections.get t' = if t = t' then some row else s.projections.get t')
    (last : row.lastSequence = cloudCursor s t e + n) (positive : 0 < row.lastSequence)
    (others : ∀ e', e' ≠ e → cloudCursor s t e' = 0) : Projected s' := by
  refine ⟨fun t' h e' => ?_, fun t' p h => ?_, fun t' p h e' he => ?_, fun t' p h => ?_⟩ <;>
    rw [rows] at h <;> by_cases ht : t = t'
  · simp [ht] at h
  · rw [if_neg ht] at h
    simp [cursors, ht, hp.absent t' h e']
  · subst ht
    rw [if_pos rfl] at h
    cases h
    simp [cursors, epoch, last]
  · rw [if_neg ht] at h
    simp [cursors, ht, hp.last t' p h]
  · subst ht
    rw [if_pos rfl] at h
    cases h
    rw [epoch] at he
    simp [cursors, others e' he, Ne.symm he]
  · rw [if_neg ht] at h
    simp [cursors, ht, hp.others t' p h e' he]
  · rw [if_pos ht] at h
    cases h
    exact positive
  · rw [if_neg ht] at h
    exact hp.positive t' p h

theorem Projected.step {env : Env} (hp : Projected s) {batch : SyncBatchRequest}
    {a : TournamentAuthority} {news : List OperationEnvelope} {r : SyncBatchResponse}
    (effect : Effect s t batch a news s' r)
    (step : ProjectionStep env s t batch.authorityEpoch news s') : Projected s' := by
  have sequences := effect.validated.sequences
  cases step with
  | nothing empty kept =>
    refine hp.congr kept fun t' e' => ?_
    rw [effect.cloudCursor_eq, empty]
    simp
  | updated row d stored epoch folded rows =>
    have cursor := hp.last t row stored
    rw [epoch] at cursor
    have rows' : ∀ t', s'.projections.get t' =
        if t = t' then some { foldedRow row news d with data := storedData row.data d }
        else s.projections.get t' := by
      intro t'
      rw [rows, Table.get_put]
      simp only [foldedRow, Table.key_of_get stored]
    have last : (foldedRow row news d).lastSequence =
        cloudCursor s t batch.authorityEpoch + news.length := by
      rw [← cursor] at sequences ⊢
      exact foldl_last_sequence sequences
    have positive : 0 < (foldedRow row news d).lastSequence := by
      have := hp.positive t row stored
      omega
    refine hp.of_row ?_ effect.cloudCursor_eq rows' last positive ?_
    · exact epoch
    · exact fun e' he => hp.others t row stored e' (epoch ▸ he)
  | created o d only absent folded rows =>
    have zero := hp.absent t absent batch.authorityEpoch
    have scope := effect.validated.inScope o (only ▸ List.mem_cons_self)
    have last : (firstRow o d).lastSequence =
        cloudCursor s t batch.authorityEpoch + news.length := by
      rw [zero] at sequences ⊢
      rw [← foldl_last_sequence sequences, only]
      rfl
    have positive : 0 < (firstRow o d).lastSequence := by
      rw [last, only]
      exact Nat.succ_pos _
    exact hp.of_row scope.2.2 effect.cloudCursor_eq rows last positive
      (fun e' _ => hp.absent t absent e')

theorem Projected.moves (hs : Sound s) (hp : Projected s) (h : EpochMoves s s') :
    Projected s' := by
  refine hp.congr ?_ (fun t e => ?_)
  · induction h with
    | refl => rfl
    | tail _ h ih => exact h.kept.projections.trans ih
  · have both : Sound s' ∧ cloudCursor s' t e = cloudCursor s t e := by
      induction h with
      | refl => exact ⟨hs, rfl⟩
      | tail _ h ih =>
        exact ⟨ih.1.move h, (h.cloudCursor_eq ih.1.cursorsKnown t e).trans ih.2⟩
    exact both.2

theorem Projected.serve {env : Env} (hs : Sound s) (hp : Projected s) (r : Request) :
    Projected (serve env s r) := by
  by_cases hr : ∃ t capability batch, r = .upload t capability batch
  · obtain ⟨t, capability, batch, rfl⟩ := hr
    simp only [Sync.serve]
    rcases ingestBatch_cases env s t capability batch with ⟨q, e, h⟩ | ⟨a, news, s', r, h, acc⟩
    · rw [h]
      exact hp.congr rfl fun _ _ => rfl
    · rw [h]
      exact hp.step acc.effect acc.projectionStep
  · push Not at hr
    exact hp.moves hs (serve_moves env s r hr)

theorem CloudReachable.projected {env : Env} (h : CloudReachable env s) :
    Projected s := by
  have fresh : ∀ s : Store, s.Fresh → Sound s ∧ Projected s := fun _ h => ⟨h.sound, h.projected⟩
  have kept : ∀ s r s', CloudReachable env s → Sound s ∧ Projected s → Serves env s r s' →
      Sound s' ∧ Projected s' := by
    rintro s r _ - ⟨hs, hp⟩ rfl
    exact ⟨hs.serve r, hp.serve hs r⟩
  exact (h.invariant fresh kept).2

/-- The row is absent or of the epoch `e` exactly when no other epoch accepted
an operation. -/
theorem Projected.row_iff (hp : Projected s) (t : Uuid) (e : Nat) :
    (∀ p, s.projections.get t = some p → p.authorityEpoch = e) ↔
      ∀ e', e' ≠ e → cloudCursor s t e' = 0 := by
  constructor
  · intro h e' he
    cases hget : s.projections.get t with
    | none => exact hp.absent t hget e'
    | some p => exact hp.others t p hget e' (h p hget ▸ he)
  · intro h p hget
    by_contra hne
    have last := hp.last t p hget
    have positive := hp.positive t p hget
    rw [h p.authorityEpoch hne] at last
    omega

end

/-! ## When a drained epoch can be returned

The digest reads the one projection row of the tournament and refuses it when it is of another
epoch, so an epoch can be returned exactly when no other epoch accepted an operation. -/

theorem requireTransitionEvidence_eq_ok {reason : String} {confirmation : Bool} {h : HexDigest}
    (given : pyStrip reason ≠ "") (confirmed : confirmation = true) :
    requireTransitionEvidence reason confirmation (some h.val) = .ok (pyStrip reason) := by
  simp only [requireTransitionEvidence, bind_eq_ok, require_eq_ok, Option.mem_some_iff,
    forall_eq']
  exact ⟨(), given, (), confirmed, (), ⟨Or.inl h.property.1, h.property.2⟩, trivial⟩

variable {s : Store}

variable {t : Uuid} {e : Nat}

theorem cloudProjectionDigest_eq_ok {env : Env} (hp : Projected s) :
    (∃ h, cloudProjectionDigest env s t e = .ok h) ↔
      ∀ p, s.projections.get t = some p → p.authorityEpoch = e := by
  unfold cloudProjectionDigest
  cases hget : s.projections.get t with
  | none => simp [ok_bind]
  | some p =>
    constructor
    · rintro ⟨h, hok⟩ q hq
      cases Option.some.inj hq
      simp only [bind_eq_ok, require_eq_ok] at hok
      obtain ⟨_, epoch, -⟩ := hok
      exact epoch
    · intro h
      have epoch := h p rfl
      have last := hp.last t p hget
      rw [epoch] at last
      simp only [bind_eq_ok, require_eq_ok]
      exact ⟨_, (), epoch, (), last, p.data, rfl, rfl⟩

theorem cloudProjectionDigest_hex {env : Env} {h : String}
    (hok : cloudProjectionDigest env s t e = .ok h) : ∃ d : HexDigest, h = d.val := by
  unfold cloudProjectionDigest at hok
  split at hok <;> simp only [bind_eq_ok, Except.ok.injEq] at hok
  · obtain ⟨data, -, rfl⟩ := hok
    exact ⟨env.sha256 _, rfl⟩
  · obtain ⟨_, -, _, -, data, -, rfl⟩ := hok
    exact ⟨env.sha256 _, rfl⟩

theorem insertAuthority_nextEpoch (env : Env) {a : TournamentAuthority}
    (next : a.epoch = nextEpoch s a.tournamentId) (dead : a.state.live = false) :
    ∃ s', s.insertAuthority env a = .ok s' := by
  unfold Store.insertAuthority
  rw [if_neg (by simp [dead])]
  cases hi : s.authorities.insert a with
  | some u => exact ⟨_, rfl⟩
  | none =>
    obtain ⟨b, hb, hk⟩ := Table.has_iff.mp (Table.insert_eq_none.mp hi)
    simp only [TournamentAuthority.key, Prod.mk.injEq] at hk
    have := lt_nextEpoch hb
    rw [hk.1, ← next, hk.2] at this
    exact absurd this (Nat.lt_irrefl _)

/-- **Return.** For the node that holds a drained active epoch, with a reason and
a confirmation, some snapshot hash makes the return succeed if and only if no
other epoch of the tournament accepted an operation. -/
theorem returnToCloud_possible_iff {env : Env} {s : Store} (h : CloudReachable env s) {t n : Uuid}
    {e : Nat} {capability : String} {a : TournamentAuthority} {r : TransitionRequest}
    (holder : requireActiveCapability env s t e n capability = .ok a)
    (given : pyStrip r.reason ≠ "") (confirmed : r.confirmation = true)
    (drained : r.declaredLastSequence = cloudCursor s t e) (token : String) (now : Timestamp) :
    (∃ hash x s', returnToCloud env s t n e capability r hash token now = .ok (x, s')) ↔
      ∀ e', e' ≠ e → acceptedOf s t e' = [] := by
  have cursors : (∀ e', e' ≠ e → acceptedOf s t e' = []) ↔
      ∀ e', e' ≠ e → cloudCursor s t e' = 0 := by
    refine forall₂_congr fun e' _ => ?_
    have length := congrArg List.length ((CloudReachable.sound h).contiguous t e')
    rw [List.length_map, List.length_range'] at length
    rw [← List.length_eq_zero_iff, length]
  rw [cursors, ← (CloudReachable.projected h).row_iff]
  constructor
  · rintro ⟨hash, x, s', hok⟩
    unfold returnToCloud at hok
    simp only [bind_eq_ok, require_eq_ok] at hok
    obtain ⟨_, _, _, _, _, _, d, hd, -⟩ := hok
    exact (cloudProjectionDigest_eq_ok (CloudReachable.projected h)).mp ⟨d, hd⟩
  · intro hrow
    obtain ⟨hash, hd⟩ := (cloudProjectionDigest_eq_ok (CloudReachable.projected h)).mpr hrow
    obtain ⟨d, rfl⟩ := cloudProjectionDigest_hex hd
    let s₁ := retire s a .closed now a.recoveryReason
    let cloud : TournamentAuthority :=
      { tournamentId := t, epoch := nextEpoch s₁ t, nodeId := cloudAuthorityNodeId, state := .cloud,
        checkpointHash := d.val, checkpointSchemaVersion := currentCheckpointSchemaVersion,
        capabilityDigest := capabilityDigest env token, readyAt := some now }
    obtain ⟨s₂, h₂⟩ : ∃ s₂, s₁.insertAuthority env cloud = .ok s₂ :=
      insertAuthority_nextEpoch env rfl rfl
    refine ⟨d.val, ?_⟩
    unfold returnToCloud
    simp only [bind_eq_ok, require_eq_ok, cloudEpoch]
    exact ⟨_, _, _, requireTransitionEvidence_eq_ok given confirmed, a, holder, (), drained, _, hd,
      (), rfl, (cloud, s₂), ⟨s₂, h₂, rfl⟩, rfl⟩

namespace Rehearsal

def finish (declared : Nat) : TransitionRequest := ⟨director, laptop, "Finals are over", declared, true⟩

end Rehearsal

open Rehearsal in
/-- The laptop can return its epoch after its upload. -/
theorem returnToCloud_possible_rehearsal :
    ∃ hash x s', returnToCloud env uploaded eventId laptop 1 laptopCapability (finish 2) hash
      spareCapability now = .ok (x, s') := by
  obtain ⟨a, holder⟩ := exists_ok_of_toOption (x :=
    requireActiveCapability env uploaded eventId 1 laptop laptopCapability) (by decide +kernel)
  have reachable : CloudReachable env uploaded := after_reachable _
  have others : ∀ o ∈ uploaded.operations.rows, o.authorityEpoch = 1 := by decide +kernel
  refine (returnToCloud_possible_iff reachable holder (by decide +kernel) rfl
    (by decide +kernel) _ _).mpr fun e' he => ?_
  rw [acceptedOf, List.filter_eq_nil_iff]
  intro o ho hk
  simp only [EventOperation.epochKey, decide_eq_true_eq, Prod.mk.injEq] at hk
  have epoch := others o ho
  omega

open Rehearsal in
/-- The spare cannot return its drained, empty epoch, with any hash. -/
theorem returnToCloud_impossible_after_handover :
    CloudReachable env afterHandover ∧
    (∃ a, requireActiveCapability env afterHandover eventId 2 spare spareCapability = .ok a) ∧
    cloudCursor afterHandover eventId 2 = 0 ∧
    ∀ hash x s', returnToCloud env afterHandover eventId spare 2 spareCapability (finish 0) hash
      laptopCapability now ≠ .ok (x, s') := by
  have reachable : CloudReachable env afterHandover := after_reachable _
  refine ⟨reachable, exists_ok_of_toOption (by decide +kernel), by decide +kernel, ?_⟩
  intro hash x s' hok
  have refused : ∀ d, cloudProjectionDigest env afterHandover eventId 2 ≠ .ok d := by
    intro d hd
    have epoch := (cloudProjectionDigest_eq_ok (CloudReachable.projected reachable)).mp ⟨d, hd⟩
    exact absurd epoch (by decide +kernel)
  unfold returnToCloud at hok
  simp only [bind_eq_ok, require_eq_ok] at hok
  obtain ⟨_, _, _, _, _, _, d, hd, -⟩ := hok
  exact refused d hd

end Sync
