import ShuttleWorks.Sync.Invariants
import ShuttleWorks.Sync.OperationLog

/-! The projection row against the fold of the accepted operations: what the
session writes back after a batch, in terms of the fold alone. -/

namespace Sync
open Lib

/-! ## The fold -/

def foldOperations (env : Env) (os : List OperationEnvelope) (d : ProjectionData) :
    Except Raised ProjectionData :=
  os.foldlM (fun d o => applyCloudProjectionData o env d) d

@[simp] theorem foldOperations_nil (env : Env) (d : ProjectionData) :
    foldOperations env [] d = .ok d := rfl

theorem foldOperations_cons (env : Env) (o : OperationEnvelope) (os : List OperationEnvelope)
    (d : ProjectionData) : foldOperations env (o :: os) d =
      applyCloudProjectionData o env d >>= foldOperations env os := rfl

variable {os : List OperationEnvelope} {d d' : ProjectionData} {o : OperationEnvelope}
  {base c : ProjectionData} {s' : Store} {e current highest : Nat} {news : List OperationEnvelope}
  {x : Session}

theorem foldOperations_append_eq_ok {env : Env} {ps : List OperationEnvelope} {d'' : ProjectionData}
    (h : foldOperations env os d = .ok d') (h' : foldOperations env ps d' = .ok d'') :
    foldOperations env (os ++ ps) d = .ok d'' := by
  unfold foldOperations at *
  rw [List.foldlM_append, h]
  exact h'

theorem map_bind_map {α β : Type} (x : Except Raised α) (f : α → Except Raised β)
    (g : β → β) : (x >>= f).map g = x >>= fun a => (f a).map g := by
  cases x <;> rfl

def ProjectionData.withCheckpoint (c : Option Json) (d : ProjectionData) : ProjectionData :=
  { d with checkpoint := c }

theorem replaceMatchStates_checkpoint (o : OperationEnvelope) (env : Env) (c : Option Json)
    (d : ProjectionData) : replaceMatchStates o env (d.withCheckpoint c) =
      (replaceMatchStates o env d).map (.withCheckpoint c) := by
  unfold replaceMatchStates
  split
  · split
    · rfl
    · simp only [map_bind_map]
      congr 1
      funext same
      split
      · simp only [map_bind_map]
        rfl
      · rfl
  · rfl

theorem applyCommand_checkpoint (o : OperationEnvelope) (env : Env) (c : Option Json)
    (d : ProjectionData) :
    applyCommand o env (d.withCheckpoint c) = (applyCommand o env d).map (.withCheckpoint c) := by
  unfold applyCommand
  cases projectionCommand o.commandType with
  | matchStateReplace => exact replaceMatchStates_checkpoint o env c d
  | matchStateResetAll | matchStateBulkUpsert | rosterReplace =>
    simp only [map_bind_map]
    rfl
  | _ => rfl

theorem setCompetition_eq (o : OperationEnvelope) (d : ProjectionData) :
    setCompetition o d = { d with normalized := (competitionOf o).or d.normalized } := by
  unfold setCompetition
  cases competitionOf o <;> rfl

theorem applyCloudProjectionData_checkpoint (o : OperationEnvelope) (env : Env) (c : Option Json)
    (d : ProjectionData) : applyCloudProjectionData o env (d.withCheckpoint c) =
      (applyCloudProjectionData o env d).map (.withCheckpoint c) := by
  unfold applyCloudProjectionData
  rw [← applyCommand_checkpoint]
  simp only [setCompetition_eq, ProjectionData.withCheckpoint]

theorem foldOperations_checkpoint {env : Env} (c : Option Json)
    (h : foldOperations env os d = .ok d') :
    foldOperations env os (d.withCheckpoint c) = .ok (d'.withCheckpoint c) := by
  induction os generalizing d with
  | nil =>
    cases h
    rfl
  | cons o os ih =>
    rw [foldOperations_cons, bind_eq_ok] at h
    obtain ⟨b, hb, h⟩ := h
    rw [foldOperations_cons, applyCloudProjectionData_checkpoint, hb]
    exact ih h

theorem applyCommand_keeps {env : Env} (h : applyCommand o env d = .ok d') :
    d'.normalized = d.normalized ∧ d'.checkpoint = d.checkpoint := by
  unfold applyCommand at h
  cases hc : projectionCommand o.commandType with
  | matchStateReplace =>
    simp only [hc, replaceMatchStates] at h
    split at h
    · split at h
      · simp [invalidPayload] at h
      · simp only [bind_eq_ok] at h
        obtain ⟨same, _, h⟩ := h
        split at h
        · simp only [bind_eq_ok] at h
          obtain ⟨_, _, h⟩ := h
          cases h
          exact ⟨rfl, rfl⟩
        · simp [invalidPayload] at h
    · simp [invalidPayload] at h
  | matchStateResetAll | matchStateBulkUpsert =>
    simp only [hc, bind_eq_ok] at h
    obtain ⟨_, _, _, _, h⟩ := h
    cases h
    exact ⟨rfl, rfl⟩
  | rosterReplace =>
    simp only [hc, bind_eq_ok] at h
    obtain ⟨_, _, _, _, _, _, h⟩ := h
    cases h
    exact ⟨rfl, rfl⟩
  | _ =>
    simp only [hc] at h
    cases h
    exact ⟨rfl, rfl⟩

theorem applyCloudProjectionData_normalized {env : Env}
    (h : applyCloudProjectionData o env d = .ok d') :
    d'.normalized = (competitionOf o).or d.normalized ∧ d'.checkpoint = d.checkpoint := by
  have := applyCommand_keeps h
  rwa [setCompetition_eq] at this

/-! ## What a flush writes -/

/-- The loaded document after an operation: it shares the `normalized`
dictionary with the new one, if it has one. -/
def shareCompetition (c : ProjectionData) (o : OperationEnvelope) : ProjectionData :=
  if c.normalized.isSome then setCompetition o c else c

def ProjectionData.withoutCompetition (d : ProjectionData) : ProjectionData :=
  { d with normalized := none }

/-- What is stored when a loaded document `base` becomes `d`: a new competition
slice alone goes unnoticed. -/
def storedData (base d : ProjectionData) : ProjectionData :=
  if base.normalized.isSome ∧ d.withoutCompetition = base.withoutCompetition then base else d

/-- If `d` differs from `base` in the competition slice, it differs elsewhere too. -/
def Noticed (base d : ProjectionData) : Prop :=
  base.normalized.isSome → d.withoutCompetition = base.withoutCompetition →
    d.normalized = base.normalized

theorem storedData_eq_iff : storedData base d = d ↔ Noticed base d := by
  unfold storedData Noticed
  constructor
  · intro h hs hw
    rw [if_pos ⟨hs, hw⟩] at h
    rw [h]
  · intro h
    split
    · next hc =>
      have hn := h hc.1 hc.2
      have hw := hc.2
      simp only [ProjectionData.withoutCompetition] at hw
      cases base
      cases d
      simp_all
    · rfl

theorem foldl_shareCompetition_none (h : c.normalized.isSome = false) :
    os.foldl shareCompetition c = c := by
  induction os with
  | nil => rfl
  | cons o os ih => simpa [shareCompetition, h] using ih

theorem foldl_shareCompetition_some {env : Env} (same : c.normalized = base.normalized)
    (some : c.normalized.isSome = true) (h : foldOperations env os base = .ok d) :
    os.foldl shareCompetition c = { c with normalized := d.normalized } := by
  induction os generalizing c base with
  | nil =>
    cases h
    rw [← same]
    rfl
  | cons o os ih =>
    rw [foldOperations_cons, bind_eq_ok] at h
    obtain ⟨b, hb, h⟩ := h
    have shared : shareCompetition c o = { c with normalized := b.normalized } := by
      rw [shareCompetition, if_pos some, setCompetition_eq,
        (applyCloudProjectionData_normalized hb).1, same]
    have some' : b.normalized.isSome = true := by
      rw [(applyCloudProjectionData_normalized hb).1, ← same]
      cases competitionOf o <;> simp [some]
    have same' : ({ c with normalized := b.normalized } : ProjectionData).normalized =
        b.normalized := rfl
    rw [List.foldl_cons, shared]
    exact ih same' some' h

theorem written_eq_storedData {env : Env} (h : foldOperations env os base = .ok d) :
    (if d = os.foldl shareCompetition base then base else d) = storedData base d := by
  cases hs : base.normalized.isSome with
  | false =>
    rw [foldl_shareCompetition_none hs, storedData]
    split
    · next e => simp [e]
    · simp [hs]
  | true =>
    rw [foldl_shareCompetition_some rfl hs h, storedData]
    have : d = { base with normalized := d.normalized } ↔
        d.withoutCompetition = base.withoutCompetition := by
      cases base
      cases d
      simp [ProjectionData.withoutCompetition]
    simp only [this, hs, true_and]

/-! ## The apply loop -/

/-- A row after operations were folded into it. -/
def foldedRow (row : CloudEventProjection) (os : List OperationEnvelope) (d : ProjectionData) :
    CloudEventProjection :=
  { row with data := d, lastSequence := os.foldl (fun _ o => o.sequence) row.lastSequence }

theorem applyOperations_loaded {env : Env} {t : Uuid} {os : List OperationEnvelope} {s : Store}
    {c : ProjectionData} {row : CloudEventProjection} {pending : List CloudEventProjection}
    {added : List EventOperation} {x : Session}
    (hos : ∀ o ∈ os, o.authorityEpoch = row.authorityEpoch) :
    applyOperations env t ⟨s, some ⟨c, row⟩, pending, added⟩ os = .ok x ↔
      ∃ d, foldOperations env os row.data = .ok d ∧
        x = ⟨s, some ⟨os.foldl shareCompetition c, foldedRow row os d⟩, pending,
          added ++ os.map (.ofEnvelope t)⟩ := by
  induction os generalizing c row added with
  | nil => simp [applyOperations, foldedRow, eq_comm]
  | cons o os ih =>
    have epoch : row.authorityEpoch = o.authorityEpoch := (hos o List.mem_cons_self).symm
    have step : applyCloudProjection env ⟨s, some ⟨c, row⟩, pending, added⟩ o =
        (applyCloudProjectionData o env row.data).map (fun d =>
          ⟨s, some ⟨shareCompetition c o, { row with data := d, lastSequence := o.sequence }⟩,
            pending, added⟩) := by
      have load : getProjection ⟨s, some ⟨c, row⟩, pending, added⟩ o.eventId =
          ⟨s, some ⟨c, row⟩, pending, added⟩ := rfl
      have held : (some ⟨c, row⟩ : Option HeldProjection).filter
          (fun held => held.row.authorityEpoch = o.authorityEpoch) = some ⟨c, row⟩ := by
        simp [epoch]
      simp only [applyCloudProjection, load, held, HeldProjection.fold]
      cases applyCloudProjectionData o env row.data <;> rfl
    rw [applyOperations, step, foldOperations_cons]
    cases hd : applyCloudProjectionData o env row.data with
    | error e => simp [Except.map, bind, Except.bind]
    | ok d =>
      have rest : ∀ p ∈ os, p.authorityEpoch =
          ({ row with data := d, lastSequence := o.sequence } :
            CloudEventProjection).authorityEpoch :=
        fun p hp => hos p (List.mem_cons_of_mem _ hp)
      simp only [Except.map, ok_bind]
      rw [ih rest]
      simp [foldedRow, List.append_assoc]

variable {t : Uuid} {s : Store} {pending : List CloudEventProjection} {added : List EventOperation}

theorem getProjection_loaded :
    getProjection ⟨s, s.loadProjection t, pending, added⟩ t =
      ⟨s, s.loadProjection t, pending, added⟩ := by
  unfold getProjection
  split
  · rfl
  · rfl

theorem applyOperations_load {env : Env} (event : o.eventId = t) :
    applyOperations env t { store := s } (o :: os) =
      applyOperations env t { store := s, loaded := s.loadProjection t } (o :: os) := by
  have load : getProjection { store := s } o.eventId =
      { store := s, loaded := s.loadProjection t } := by
    rw [event]
    rfl
  have again : getProjection { store := s, loaded := s.loadProjection t } o.eventId =
      { store := s, loaded := s.loadProjection t } := by
    rw [event]
    exact getProjection_loaded
  simp only [applyOperations, applyCloudProjection, load, again]

/-- No row of the epoch is stored. -/
def Stray (s : Store) (t : Uuid) (e : Nat) : Prop :=
  ∀ row, s.projections.get t = some row → row.authorityEpoch ≠ e

def ownRow (env : Env) (o : OperationEnvelope) : Except Raised CloudEventProjection :=
  (applyCloudProjectionData o env {}).map (firstRow o)

theorem ownRow_eq_ok {env : Env} {row : CloudEventProjection} (h : ownRow env o = .ok row) :
    ∃ d, applyCloudProjectionData o env {} = .ok d ∧ row = firstRow o d := by
  unfold ownRow at h
  cases folded : applyCloudProjectionData o env {} with
  | error e => simp [folded, Except.map] at h
  | ok d =>
    rw [folded] at h
    cases h
    exact ⟨d, rfl, rfl⟩

/-- Without a row of their epoch, the operations add a row each. -/
theorem applyOperations_stray {env : Env} {e : Nat} (stray : Stray s t e)
    (event : ∀ o ∈ os, o.eventId = t) (epoch : ∀ o ∈ os, o.authorityEpoch = e) {x : Session} :
    applyOperations env t ⟨s, s.loadProjection t, pending, added⟩ os = .ok x ↔
      ∃ rows, os.mapM (ownRow env) = .ok rows ∧
        x = ⟨s, s.loadProjection t, pending ++ rows, added ++ os.map (.ofEnvelope t)⟩ := by
  induction os generalizing pending added with
  | nil => simp [applyOperations, pure, Except.pure, eq_comm]
  | cons o os ih =>
    have none_ : (s.loadProjection t).filter
        (fun held => held.row.authorityEpoch = o.authorityEpoch) = none := by
      rw [Store.loadProjection]
      cases stored : s.projections.get t with
      | none => rfl
      | some row => simp [epoch o List.mem_cons_self, stray row stored]
    have step : applyCloudProjection env ⟨s, s.loadProjection t, pending, added⟩ o =
        (ownRow env o).map (fun row =>
          ⟨s, s.loadProjection t, pending ++ [row], added⟩) := by
      simp only [applyCloudProjection, event o List.mem_cons_self, getProjection_loaded, none_,
        ownRow]
      cases applyCloudProjectionData o env {} <;> rfl
    rw [applyOperations, step, List.mapM_cons]
    cases ownRow env o with
    | error e => simp [Except.map, bind, Except.bind]
    | ok row =>
      simp only [Except.map, ok_bind]
      rw [ih (fun p hp => event p (List.mem_cons_of_mem _ hp))
        (fun p hp => epoch p (List.mem_cons_of_mem _ hp))]
      constructor
      · rintro ⟨rows, hrows, rfl⟩
        exact ⟨row :: rows, by rw [hrows]; rfl, by simp⟩
      · rintro ⟨rows, hrows, rfl⟩
        obtain ⟨rest, hrest, h⟩ := bind_eq_ok.mp hrows
        cases h
        exact ⟨rest, hrest, by simp⟩

/-! ## The row after an accepted batch -/

theorem writeLoaded_folded {env : Env} {row : CloudEventProjection}
    (stored : s.projections.get row.tournamentId = some row)
    (folded : foldOperations env os row.data = .ok d) :
    (writeLoaded s (some ⟨os.foldl shareCompetition row.data, foldedRow row os d⟩)).projections =
      s.projections.put { foldedRow row os d with data := storedData row.data d } := by
  have stored' : s.projections.get (foldedRow row os d).tournamentId = some row := stored
  simp only [writeLoaded, stored']
  exact congrArg (fun x => s.projections.put { foldedRow row os d with data := x })
    (written_eq_storedData folded)

theorem flush_eq_ok {env : Env} {x : Session} {s' : Store} (h : flush env x = .ok s') :
    ∃ s₁, x.pending.foldlM (fun s row => s.insertProjection env row)
        (writeLoaded x.store x.loaded) = .ok s₁ ∧ s'.projections = s₁.projections := by
  unfold flush at h
  obtain ⟨s₁, h₁, h₂⟩ := bind_eq_ok.mp h
  exact ⟨s₁, h₁, (foldlM_insertReceipted h₂).2⟩

/-- Rows of one key go in only if there is but one and none is stored. -/
theorem insertProjections_eq_ok {env : Env} {row : CloudEventProjection} {s' : Store}
    (key : ∀ r ∈ row :: pending, r.tournamentId = t)
    (h : (row :: pending).foldlM (fun s row => s.insertProjection env row) s = .ok s') :
    pending = [] ∧ s.projections.get t = none ∧
      ∀ t', s'.projections.get t' = if t = t' then some row else s.projections.get t' := by
  rw [List.foldlM_cons] at h
  obtain ⟨s₁, h₁, h₂⟩ := bind_eq_ok.mp h
  obtain ⟨u, hu, rfl⟩ := insertProjection_eq_ok h₁
  have own : row.tournamentId = t := key row List.mem_cons_self
  obtain ⟨absent, rows⟩ := Table.insert_eq_some.mp hu
  have get : ∀ t', u.get t' = if t = t' then some row else s.projections.get t' := by
    intro t'
    rw [Table.get_of_rows_concat rows, own]
  have free : s.projections.get t = none := by
    rw [← own]
    exact Table.get_eq_none_iff.mpr absent
  cases pending with
  | nil =>
    cases h₂
    exact ⟨rfl, free, get⟩
  | cons second pending =>
    rw [List.foldlM_cons] at h₂
    obtain ⟨s₂, h₂, -⟩ := bind_eq_ok.mp h₂
    obtain ⟨v, hv, -⟩ := insertProjection_eq_ok h₂
    refine absurd (Table.has_iff.mpr ⟨row, ?_, ?_⟩) (Table.insert_eq_some.mp hv).1
    · exact Table.mem_of_get ((get t).trans (if_pos rfl))
    · rw [own, key second (by simp)]

/-- What an accepted batch did to the projection rows: its new operations were
folded into the row of its epoch, or its only one made the tournament's first row. -/
inductive ProjectionStep (env : Env) (s : Store) (t : Uuid) (e : Nat)
    (news : List OperationEnvelope) (s' : Store) : Prop
  | nothing (empty : news = []) (kept : s'.projections = s.projections)
  | updated (row : CloudEventProjection) (d : ProjectionData)
      (stored : s.projections.get t = some row) (epoch : row.authorityEpoch = e)
      (folded : foldOperations env news row.data = .ok d)
      (rows : s'.projections =
        s.projections.put { foldedRow row news d with data := storedData row.data d })
  | created (o : OperationEnvelope) (d : ProjectionData) (only : news = [o])
      (absent : s.projections.get t = none)
      (folded : applyCloudProjectionData o env {} = .ok d)
      (rows : ∀ t', s'.projections.get t' =
        if t = t' then some (firstRow o d) else s.projections.get t')

theorem projectionStep_of_applied {env : Env} (event : ∀ o ∈ news, o.eventId = t)
    (epoch : ∀ o ∈ news, o.authorityEpoch = e)
    (applied : applyOperations env t { store := s } news = .ok x)
    (committed : commitBatch env x t e current highest = .ok s') :
    ProjectionStep env s t e news s' := by
  obtain ⟨s₁, flushed, rfl⟩ := commitBatch_eq_ok committed
  obtain ⟨s₂, inserted, same⟩ := flush_eq_ok flushed
  cases news with
  | nil =>
    cases applied
    cases inserted
    exact .nothing rfl same
  | cons o os =>
    rw [applyOperations_load (event o List.mem_cons_self)] at applied
    by_cases stray : Stray s t e
    · obtain ⟨rows, made, rfl⟩ := (applyOperations_stray stray event epoch).mp applied
      have keys : ∀ r ∈ rows, r.tournamentId = t := by
        intro r hr
        obtain ⟨p, hp, own⟩ := mapM_mem made r hr
        obtain ⟨d, -, rfl⟩ := ownRow_eq_ok own
        exact event p hp
      rw [List.mapM_cons] at made
      obtain ⟨row, own, made⟩ := bind_eq_ok.mp made
      obtain ⟨rest, others, made⟩ := bind_eq_ok.mp made
      cases made
      obtain ⟨d, folded, rfl⟩ := ownRow_eq_ok own
      obtain ⟨rfl, free, get⟩ := insertProjections_eq_ok keys inserted
      obtain rfl : os = [] := by
        refine List.eq_nil_iff_forall_not_mem.mpr fun p hp => ?_
        obtain ⟨row, hr, -⟩ := mapM_mem_of_mem others p hp
        cases hr
      cases stored : s.projections.get t with
      | some row =>
        have load : s.loadProjection t = some ⟨row.data, row⟩ := by
          rw [Store.loadProjection, stored]
          rfl
        rw [load, writeLoaded, Table.get_put, if_pos (Table.key_of_get stored)] at free
        cases free
      | none =>
        have load : s.loadProjection t = none := by
          rw [Store.loadProjection, stored]
          rfl
        rw [load] at get
        exact .created o d rfl stored folded fun t' => (congrArg (·.get t') same).trans (get t')
    · unfold Stray at stray
      push Not at stray
      obtain ⟨row, stored, rfl⟩ := stray
      have load : s.loadProjection t = some ⟨row.data, row⟩ := by rw [Store.loadProjection, stored]; rfl
      rw [load, applyOperations_loaded epoch] at applied
      obtain ⟨d, folded, rfl⟩ := applied
      cases inserted
      refine .updated row d stored rfl folded (same.trans ?_)
      exact writeLoaded_folded (Table.key_of_get stored ▸ stored) folded

theorem Accepts.projectionStep {env : Env} {capability : String} {batch : SyncBatchRequest}
    {a : TournamentAuthority} {r : SyncBatchResponse}
    (h : Accepts env s t capability batch a news s' r) :
    ProjectionStep env s t batch.authorityEpoch news s' := by
  have scope := h.effect.validated.inScope
  obtain ⟨checkpoint, duplicates, x, s', authority, active, admitted, validated, applied,
    committed⟩ := h
  exact projectionStep_of_applied (fun o ho => (scope o ho).1) (fun o ho => (scope o ho).2.2)
    applied committed

end Sync
