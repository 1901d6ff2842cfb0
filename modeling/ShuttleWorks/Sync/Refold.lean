import ShuttleWorks.Sync.Acceptance

/-! The projection row against a rebuild. Two paths compute a tournament's
document: the fold of every accepted batch into the stored row, and the replay
of the receipted operations of an epoch. They agree as long as every change of
the competition slice is noticed and every instant reads back as it was sent. -/

namespace Sync
open Lib

/-! ## The envelopes of stored operations -/

/-- `column` gives back every instant the fold of `o` reads. -/
def Steady (column : Timestamp → Timestamp) (o : OperationEnvelope) : Prop :=
  column o.acceptedAtNode = o.acceptedAtNode

variable {t : Uuid} {o : OperationEnvelope} {s s' : Store} {a : TournamentAuthority}

theorem envelope_ofEnvelope {column : Timestamp → Timestamp} (event : o.eventId = t)
    (steady : Steady column o) :
    (EventOperation.ofEnvelope t o).envelope column =
      { o with occurredAtLocal := column o.occurredAtLocal } := by
  subst event
  simp only [EventOperation.envelope, EventOperation.ofEnvelope, show column o.acceptedAtNode =
    o.acceptedAtNode from steady]

theorem applyCloudProjectionData_occurredAtLocal (o : OperationEnvelope) (x : Timestamp)
    (env : Env) (d : ProjectionData) :
    applyCloudProjectionData { o with occurredAtLocal := x } env d =
      applyCloudProjectionData o env d := rfl

theorem wellFormed_envelope {column : Timestamp → Timestamp} (event : o.eventId = t)
    (h : o.WellFormed) :
    ((EventOperation.ofEnvelope t o).envelope column).WellFormed := by
  subst event
  exact ⟨h.authorityEpoch, h.sequence, h.commandType, h.aggregateType, h.aggregateId, h.traceparent,
    h.schemaVersion⟩

/-- The document that the stored operations lead to. -/
def foldRows (env : Env) (column : Timestamp → Timestamp) (rows : List EventOperation)
    (d : ProjectionData) : Except Raised ProjectionData :=
  foldOperations env (rows.map (EventOperation.envelope column)) d

theorem foldRows_ofEnvelope {env : Env} {column : Timestamp → Timestamp}
    {os : List OperationEnvelope} (event : ∀ o ∈ os, o.eventId = t)
    (steady : ∀ o ∈ os, Steady column o) (d : ProjectionData) :
    foldRows env column (os.map (.ofEnvelope t)) d = foldOperations env os d := by
  induction os generalizing d with
  | nil => rfl
  | cons o os ih =>
    have first := envelope_ofEnvelope (event o List.mem_cons_self) (steady o List.mem_cons_self)
    have rest := ih (fun p hp => event p (List.mem_cons_of_mem _ hp))
      (fun p hp => steady p (List.mem_cons_of_mem _ hp))
    unfold foldRows at rest ⊢
    simp only [List.map_cons, foldOperations_cons, first,
      applyCloudProjectionData_occurredAtLocal]
    congr 1
    funext d'
    exact rest d'

/-! ## What an upload must be like -/

/-- A change of the competition slice by the new operations changes the stored
document elsewhere too. -/
def CompetitionNoticed (env : Env) (s : Store) (t : Uuid) (batch : SyncBatchRequest) : Prop :=
  ∀ p d, s.projections.get t = some p →
    foldOperations env (newOperations s batch) p.data = .ok d → Noticed p.data d

/-- Instants read back as they were sent, and competition changes are noticed. -/
structure Careful (env : Env) (column : Timestamp → Timestamp) (s : Store) (t : Uuid)
    (batch : SyncBatchRequest) : Prop where
  steady : ∀ o ∈ newOperations s batch, Steady column o
  noticed : CompetitionNoticed env s t batch

/-- Serve a request whose uploads are careful. -/
def ServesCarefully (env : Env) (column : Timestamp → Timestamp) (s : Store) (r : Request)
    (s' : Store) : Prop :=
  Serves env s r s' ∧ ∀ t capability batch, r = .upload t capability batch →
    Careful env column s t batch

/-! ## The invariant -/

/-- Every row is the fold of its epoch's operations, in the order they were stored. -/
structure Refolded (env : Env) (column : Timestamp → Timestamp) (s : Store) : Prop where
  wellFormed : ∀ o ∈ s.operations.rows, (o.envelope column).WellFormed
  folded : ∀ t p, s.projections.get t = some p →
    foldRows env column (acceptedOf s t p.authorityEpoch) {} = .ok p.data

theorem Refolded.congr {env : Env} {column : Timestamp → Timestamp} (hf : Refolded env column s)
    (operations : s'.operations = s.operations) (projections : s'.projections = s.projections) :
    Refolded env column s' where
  wellFormed := by rw [operations]; exact hf.wellFormed
  folded := by
    rw [projections]
    simp only [acceptedOf, operations]
    exact hf.folded

variable {rows : List EventOperation}

theorem foldRows_append_eq_ok {env : Env} {column : Timestamp → Timestamp}
    {rows' : List EventOperation} {d d' d'' : ProjectionData}
    (h : foldRows env column rows d = .ok d') (h' : foldRows env column rows' d' = .ok d'') :
    foldRows env column (rows ++ rows') d = .ok d'' := by
  unfold foldRows at *
  rw [List.map_append]
  exact foldOperations_append_eq_ok h h'

theorem Refolded.step {env : Env} {column : Timestamp → Timestamp} (hs : Sound s) (hp : Projected s)
    (hf : Refolded env column s) {batch : SyncBatchRequest} {news : List OperationEnvelope}
    {r : SyncBatchResponse} (careful : Careful env column s t batch)
    (new : news = newOperations s batch) (effect : Effect s t batch a news s' r)
    (step : ProjectionStep env s t batch.authorityEpoch news s') : Refolded env column s' := by
  have event : ∀ o ∈ news, o.eventId = t := fun o ho => (effect.validated.inScope o ho).1
  have steady : ∀ o ∈ news, Steady column o := fun o ho => careful.steady o (new ▸ ho)
  have noticed := careful.noticed
  have operations : s'.operations.rows = s.operations.rows ++ news.map (.ofEnvelope t) :=
    effect.appended.operations
  -- the row of another tournament keeps its operations
  have elsewhere : ∀ t' p, t ≠ t' → s.projections.get t' = some p →
      foldRows env column (acceptedOf s' t' p.authorityEpoch) {} = .ok p.data := by
    intro t' p hne hget
    rw [effect.acceptedOf_eq, if_neg (by simp [hne]), List.append_nil]
    exact hf.folded t' p hget
  refine ⟨fun o ho => ?_, ?_⟩
  · rw [operations, List.mem_append] at ho
    rcases ho with ho | ho
    · exact hf.wellFormed o ho
    · obtain ⟨q, hq, rfl⟩ := List.mem_map.mp ho
      exact wellFormed_envelope (event q hq)
        (batch.wellFormed q (effect.validated.sublist.subset hq))
  · cases step with
    | nothing empty kept =>
      intro t' p hget
      rw [kept] at hget
      rw [effect.acceptedOf_eq, empty]
      simpa using hf.folded t' p hget
    | updated row d stored epoch folded rows =>
      have kept : storedData row.data d = d :=
        storedData_eq_iff.mpr (noticed row d stored (new ▸ folded))
      intro t' p hget
      have same : row.tournamentId = t := Table.key_of_get stored
      have key : (foldedRow row news d).tournamentId = t := same
      rw [rows, Table.get_put] at hget
      by_cases ht : t = t'
      · subst ht
        rw [if_pos key] at hget
        cases hget
        have rest : foldRows env column (news.map (.ofEnvelope t)) row.data = .ok d :=
          (foldRows_ofEnvelope event steady _).trans folded
        simp only [foldedRow, kept]
        rw [effect.acceptedOf_eq, if_pos (by rw [epoch])]
        exact foldRows_append_eq_ok (hf.folded t row stored) rest
      · rw [if_neg (by rw [key]; exact ht)] at hget
        exact elsewhere t' p ht hget
    | created o d only absent folded rows =>
      have scope := effect.validated.inScope o (only ▸ List.mem_cons_self)
      intro t' p hget
      rw [rows] at hget
      by_cases ht : t = t'
      · subst ht
        rw [if_pos rfl] at hget
        cases hget
        have none_before : acceptedOf s t batch.authorityEpoch = [] := by
          have sequences := hs.contiguous t batch.authorityEpoch
          rw [hp.absent t absent] at sequences
          exact List.map_eq_nil_iff.mp sequences
        simp only [firstRow, scope.2.2]
        rw [effect.acceptedOf_eq, if_pos rfl, none_before, List.nil_append,
          foldRows_ofEnvelope event steady, only, foldOperations_cons, folded]
        rfl
      · rw [if_neg ht] at hget
        exact elsewhere t' p ht hget

theorem Refolded.serve {env : Env} {column : Timestamp → Timestamp} (hs : Sound s)
    (hp : Projected s) (hf : Refolded env column s) {r : Request}
    (careful : ∀ t capability batch, r = .upload t capability batch →
      Careful env column s t batch) : Refolded env column (serve env s r) := by
  by_cases hr : ∃ t capability batch, r = .upload t capability batch
  · obtain ⟨t, capability, batch, rfl⟩ := hr
    simp only [Sync.serve]
    rcases ingestBatch_cases env s t capability batch with ⟨q, e, h⟩ | ⟨a, news, s', r, h, acc⟩
    · rw [h]
      exact hf.congr rfl rfl
    · rw [h]
      exact hf.step hs hp (careful t capability batch rfl) (acc.new hs) acc.effect
        acc.projectionStep
  · push Not at hr
    have kept : ∀ s' : Store, EpochMoves s s' →
        s'.operations = s.operations ∧ s'.projections = s.projections := by
      intro s' h
      induction h with
      | refl => exact ⟨rfl, rfl⟩
      | tail _ h ih => exact ⟨h.kept.operations.trans ih.1, h.kept.projections.trans ih.2⟩
    obtain ⟨operations, projections⟩ := kept _ (serve_moves env s r hr)
    exact hf.congr operations projections

/-- The states of the cloud when every upload is careful. -/
abbrev CarefullyReachable (env : Env) (column : Timestamp → Timestamp) : Store → Prop :=
  Reachable Store.Fresh (ServesCarefully env column)

theorem Sound.operationsOf_eq (hs : Sound s) (t : Uuid) (e : Nat) :
    s.operationsOf (t, e) = acceptedOf s t e := by
  have sequences := hs.contiguous t e
  have sorted : (acceptedOf s t e).Pairwise (fun o p => o.sequence ≤ p.sequence) := by
    rw [← List.pairwise_map (f := EventOperation.sequence) (R := (· ≤ ·)), sequences]
    exact (List.pairwise_lt_range' 1).imp fun h => h.le
  exact List.Pairwise.insertionSort_eq sorted

/-- The replay checks pass on operations numbered from `n` on. -/
theorem foldlM_checkReplay {n : Nat}
    (sequences : rows.map EventOperation.sequence = List.range' n rows.length)
    (checks : ∀ o ∈ rows, o.nodeId = a.nodeId ∧ supportsOperationSchema o.schemaVersion ∧
      o.commandType ∈ a.allowedCommandClasses.getD [] ∧ o.inboxRow ∈ s.inboxOf a.key) :
    rows.foldlM (checkReplay s a) n = .ok (n + rows.length) := by
  induction rows generalizing n with
  | nil => rfl
  | cons o rows ih =>
    simp only [List.map_cons, List.length_cons, List.range'_succ, List.cons.injEq] at sequences
    obtain ⟨node, supported, granted, receipt⟩ := checks o List.mem_cons_self
    have receipted : (s.inboxOf a.key).any
        (fun r => r.operationId = o.operationId ∧ r.sequence = o.sequence) = true :=
      List.any_eq_true.mpr ⟨o.inboxRow, receipt, by simp [EventOperation.inboxRow]⟩
    have step : checkReplay s a n o = .ok (n + 1) := by
      simp only [checkReplay, bind_eq_ok, require_eq_ok]
      exact ⟨(), sequences.1, (), node, (), supported, (), granted, (), receipted, trivial⟩
    have rest := ih sequences.2 fun p hp => checks p (List.mem_cons_of_mem _ hp)
    rw [List.foldlM_cons, step, ok_bind, rest, List.length_cons, Nat.add_right_comm, Nat.add_assoc]

theorem foldlM_replay {env : Env} {column : Timestamp → Timestamp}
    (wellFormed : ∀ o ∈ rows, (o.envelope column).WellFormed) (d : ProjectionData) :
    rows.foldlM (replay env column) d = foldRows env column rows d := by
  induction rows generalizing d with
  | nil => rfl
  | cons o rows ih =>
    have envelope : operationToEnvelope column o = .ok (o.envelope column) := by
      simp [operationToEnvelope, wellFormed o List.mem_cons_self]
    unfold foldRows at ih ⊢
    simp only [List.foldlM_cons, replay, envelope, ok_bind, List.map_cons, foldOperations_cons]
    congr 1
    funext d'
    exact ih (fun p hp => wellFormed p (List.mem_cons_of_mem _ hp)) d'

def CloudEventProjection.onBaseline (p : CloudEventProjection) (b : Json) : CloudEventProjection :=
  { p with data := p.data.withCheckpoint (some b) }

theorem Refolded.rebuild {env : Env} {column : Timestamp → Timestamp} (hs : Sound s)
    (hp : Projected s) (hf : Refolded env column s) {p : CloudEventProjection}
    {checkpoint : JsonObject} (stored : s.projections.get t = some p)
    (authority : s.authorities.get (t, p.authorityEpoch) = some a)
    (valid : validateCheckpoint env checkpoint (some a.checkpointHash) = .ok t)
    (schema : pyEqInt a.checkpointSchemaVersion
      (getD "checkpointSchemaVersion" .null checkpoint)) :
    ∃ s', rebuildCloudProjection env column s checkpoint a.checkpointHash p.authorityEpoch =
      .ok (p.onBaseline (baseline checkpoint a.checkpointHash), s') := by
  have sequences := hs.contiguous t p.authorityEpoch
  have length := congrArg List.length sequences
  rw [List.length_map, List.length_range'] at length
  have key : a.key = (t, p.authorityEpoch) := Table.key_of_get authority
  have checks : ∀ o ∈ acceptedOf s t p.authorityEpoch, o.nodeId = a.nodeId ∧
      supportsOperationSchema o.schemaVersion ∧
      o.commandType ∈ a.allowedCommandClasses.getD [] ∧ o.inboxRow ∈ s.inboxOf a.key := by
    intro o ho
    obtain ⟨ho, hk⟩ := List.mem_filter.mp ho
    have hk : o.epochKey = (t, p.authorityEpoch) := of_decide_eq_true hk
    obtain ⟨b, hb, hbk, node, granted, supported⟩ := hs.granted o ho
    have same : b = a := Table.eq_of_key_eq hb (Table.mem_of_get authority)
      (hbk.trans (hk.trans key.symm))
    subst same
    refine ⟨node.symm, supported, granted, List.mem_filter.mpr ⟨?_, decide_eq_true (hk.trans key.symm)⟩⟩
    rw [hs.receipts]
    exact List.mem_map_of_mem ho
  have replayed := foldlM_checkReplay (n := 1) (by rw [sequences, length]) checks
  have folded := foldOperations_checkpoint (some (baseline checkpoint a.checkpointHash))
    (hf.folded t p stored)
  have refold : (acceptedOf s t p.authorityEpoch).foldlM (replay env column)
      { checkpoint := some (baseline checkpoint a.checkpointHash) } =
        .ok (p.data.withCheckpoint (some (baseline checkpoint a.checkpointHash))) := by
    have wellFormed : ∀ o ∈ acceptedOf s t p.authorityEpoch, (o.envelope column).WellFormed :=
      fun o ho => hf.wellFormed o (List.mem_filter.mp ho).1
    rw [foldlM_replay wellFormed]
    exact folded
  have last := hp.last t p stored
  have id : p.tournamentId = t := Table.key_of_get stored
  have highest : 1 + (acceptedOf s t p.authorityEpoch).length - 1 = p.lastSequence := by omega
  simp only [rebuildCloudProjection, bind_eq_ok, require_eq_ok, found_eq_ok, hs.operationsOf_eq]
  let row := p.onBaseline (baseline checkpoint a.checkpointHash)
  refine ⟨{ s with projections := s.projections.put row }, t, valid, a, authority, (), rfl, (),
    schema, _, replayed, (), by omega, _, refold, ?_⟩
  rw [highest, ← id]
  rfl

theorem CarefullyReachable.upload {env : Env} {column : Timestamp → Timestamp}
    (h : CarefullyReachable env column s) {capability : String} {batch : SyncBatchRequest}
    (careful : Careful env column s t batch) :
    CarefullyReachable env column (serve env s (.upload t capability batch)) := by
  refine .step h ⟨rfl, ?_⟩
  rintro t capability batch ⟨⟩
  exact careful

namespace Rehearsal

def replaceCompetition (sequence : Nat) (id : Uuid) (name : String) : OperationEnvelope :=
  { operation laptop 1 sequence id
      [("players", .arr []), ("bracketPlayers", .arr []),
        ("competition", .obj [("name", .str name)])] with
    commandType := "competition.replace.v1" }

def opened : SyncBatchRequest :=
  batch laptop 1 [replaceCompetition 1 "88888888-8888-4888-8888-888888888888" "Open"]
    Nat.one_pos (by decide) (by decide)

end Rehearsal

end Sync
