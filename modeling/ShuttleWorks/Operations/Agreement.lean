import ShuttleWorks.Operations.Fidelity

/-! The two tables of a match's status agree. Every live write leaves the wire
row at the legacy spelling of the canonical one, a row that is missing standing
for `scheduled`, and the version of a match grows whenever its status changes. -/

namespace Operations
open Lib Sync

/-! ## What the two tables say -/

def LiveStore.wireOf (s : LiveStore) (t : Uuid) (id : String) : WireStatus :=
  ((s.matchStates.get (t, id)).map fun row => row.fields.status).getD .scheduled

def LiveStore.versionOf (s : LiveStore) (t : Uuid) (id : String) : Nat :=
  ((s.matchRows.get (t, id)).map Match.version).getD 0

def AgreeAt (s : LiveStore) (t : Uuid) (id : String) : Prop :=
  s.wireOf t id = canonicalToLegacy (s.statusOf t id)

def Agrees (s : LiveStore) : Prop := ∀ t id, AgreeAt s t id

/-- No version falls, and the version of a match whose status changed grew. -/
def Grows (s s' : LiveStore) : Prop :=
  ∀ t id, s.versionOf t id ≤ s'.versionOf t id ∧
    (s.statusOf t id ≠ s'.statusOf t id → s.versionOf t id < s'.versionOf t id)

theorem Grows.refl (s : LiveStore) : Grows s s :=
  fun _ _ => ⟨Nat.le_refl _, fun h => absurd rfl h⟩

variable {s'' : LiveStore} {m : Match} {r : CommandRequest} {submittedBy : Uuid}

theorem Grows.trans {s s' : LiveStore} (h : Grows s s') (h' : Grows s' s'') : Grows s s'' := by
  intro t id
  obtain ⟨le, lt⟩ := h t id
  obtain ⟨le', lt'⟩ := h' t id
  refine ⟨le.trans le', fun changed => ?_⟩
  by_cases first : s.statusOf t id = s'.statusOf t id
  · have := lt' (first ▸ changed)
    omega
  · have := lt first
    omega

theorem Grows.of_rows {s s' : LiveStore} (h : s'.matchRows = s.matchRows) : Grows s s' := by
  intro t id
  simp [LiveStore.versionOf, LiveStore.statusOf, h]

theorem wireOf_congr {s s' : LiveStore} (h : s'.matchStates = s.matchStates) (t : Uuid)
    (id : String) : s'.wireOf t id = s.wireOf t id := by
  rw [LiveStore.wireOf, LiveStore.wireOf, h]

theorem AgreeAt.congr {s s' : LiveStore} {t : Uuid} {id : String} (h : AgreeAt s t id)
    (status : s'.statusOf t id = s.statusOf t id) (wire : s'.wireOf t id = s.wireOf t id) :
    AgreeAt s' t id := by
  rw [AgreeAt, status, wire]
  exact h

@[simp] theorem canonicalToLegacy_canonical (w : WireStatus) :
    canonicalToLegacy w.canonical = w := by
  cases w <;> rfl

/-! ## One row -/

theorem put_grows (s : LiveStore) (m : Match) (h : s.versionOf m.tournamentId m.id < m.version) :
    Grows s { s with matchRows := s.matchRows.put m } := by
  intro t id
  simp only [LiveStore.versionOf, LiveStore.statusOf, Table.get_put, Match.key, Prod.mk.injEq]
  by_cases same : m.tournamentId = t ∧ m.id = id
  · obtain ⟨rfl, rfl⟩ := same
    simp only [and_self, ↓reduceIte, Option.map_some, Option.getD_some]
    rw [LiveStore.versionOf] at h
    exact ⟨Nat.le_of_lt h, fun _ => h⟩
  · simp [same]

theorem statusOf_put (s : LiveStore) (m : Match) (t : Uuid) (id : String) :
    LiveStore.statusOf { s with matchRows := s.matchRows.put m } t id =
      if m.tournamentId = t ∧ m.id = id then m.status else s.statusOf t id := by
  simp only [LiveStore.statusOf, Table.get_put, Match.key, Prod.mk.injEq]
  split <;> rfl

/-- Setting a status writes one row of `matches` and no wire row. -/
theorem setStatus_spec {s s' : LiveStore} {t : Uuid} {id : String} {status : MatchStatus}
    {expected : Option Nat} (h : s.setStatus t id status expected = .ok (m, s')) :
    Grows s s' ∧ s'.matchStates = s.matchStates ∧
      ∀ t' id', s'.statusOf t' id' = if t = t' ∧ id = id' then status else s.statusOf t' id' := by
  unfold LiveStore.setStatus at h
  split at h
  · next absent =>
    split at h
    · cases h
      refine ⟨put_grows s _ ?_, rfl, fun t' id' => statusOf_put s _ t' id'⟩
      simp [LiveStore.versionOf, absent]
    · cases h
  · next row found =>
    have key : row.tournamentId = t ∧ row.id = id := by
      simpa [Match.key] using Table.key_of_get found
    obtain ⟨rfl, rfl⟩ := key
    split at h
    · cases h
      refine ⟨put_grows s _ ?_, rfl, fun t' id' => statusOf_put s _ t' id'⟩
      simp [LiveStore.versionOf, found]
    · cases h

theorem wireOf_upsertState (s : LiveStore) (t : Uuid) (id : String) (fields : MatchStateFields)
    (t' : Uuid) (id' : String) : (s.upsertState t id fields).2.wireOf t' id' =
      if t = t' ∧ id = id' then fields.status else s.wireOf t' id' := by
  simp only [LiveStore.wireOf, LiveStore.upsertState, Table.get_put, MatchState.key, Prod.mk.injEq]
  split <;> rfl

theorem statusOf_upsertState (s : LiveStore) (t : Uuid) (id : String) (fields : MatchStateFields)
    (t' : Uuid) (id' : String) :
    (s.upsertState t id fields).2.statusOf t' id' = s.statusOf t' id' := rfl

theorem wireOf_mirrorCommandState (s : LiveStore) (t : Uuid) (id : String) (target : MatchStatus)
    (stamp : String) (t' : Uuid) (id' : String) :
    (s.mirrorCommandState t id target stamp).wireOf t' id' =
      if t = t' ∧ id = id' then canonicalToLegacy target else s.wireOf t' id' := by
  unfold LiveStore.mirrorCommandState
  rw [wireOf_upsertState]
  split
  · cases target <;> rfl
  · rfl

theorem wireOf_deleteState (s : LiveStore) (t : Uuid) (id : String) (t' : Uuid) (id' : String) :
    (s.deleteState t id).wireOf t' id' =
      if t = t' ∧ id = id' then .scheduled else s.wireOf t' id' := by
  simp only [LiveStore.wireOf, LiveStore.deleteState, Table.get_erase, Prod.mk.injEq]
  by_cases h : t = t' ∧ id = id'
  · rw [if_pos h, if_pos ⟨h.1.symm, h.2.symm⟩]
    rfl
  · rw [if_neg h, if_neg (fun e => h ⟨e.1.symm, e.2.symm⟩)]

theorem wireOf_resetStates (s : LiveStore) (t t' : Uuid) (id : String) :
    (s.resetStates t).2.wireOf t' id = if t = t' then .scheduled else s.wireOf t' id := by
  have removed : (s.resetStates t).2.matchStates.get (t', id) =
      if t = t' then none else s.matchStates.get (t', id) := by
    ext row
    rw [Table.get_eq_some_iff]
    simp only [LiveStore.resetStates, Table.remove, List.mem_filter, MatchState.key]
    split
    · next same =>
      subst same
      constructor
      · rintro ⟨⟨-, kept⟩, key⟩
        simp only [Prod.mk.injEq] at key
        simp [key.1] at kept
      · intro h
        cases h
    · next other =>
      rw [Table.get_eq_some_iff]
      constructor
      · rintro ⟨⟨hrow, -⟩, key⟩
        exact ⟨hrow, key⟩
      · rintro ⟨hrow, key⟩
        simp only [MatchState.key, Prod.mk.injEq] at key
        refine ⟨⟨hrow, ?_⟩, by simp [key]⟩
        simpa [key.1] using Ne.symm other
  rw [LiveStore.wireOf, removed]
  split <;> rfl

theorem agreeAt_of_written {s s' : LiveStore} {t : Uuid} {id : String} {status : MatchStatus}
    (rows : ∀ t' id', s'.statusOf t' id' = if t = t' ∧ id = id' then status else s.statusOf t' id')
    (states : ∀ t' id', s'.wireOf t' id' =
      if t = t' ∧ id = id' then canonicalToLegacy status else s.wireOf t' id') {t' : Uuid}
    {id' : String} (h : AgreeAt s t' id' ∨ (t = t' ∧ id = id')) : AgreeAt s' t' id' := by
  rw [AgreeAt, rows, states]
  split
  · rfl
  · next other => exact h.resolve_right other

/-! ## Writes that raise no doubt -/

/-- The two tables after a write: versions grew, and what agreed agrees. -/
structure Keeps (s s' : LiveStore) : Prop where
  grows : Grows s s'
  agrees : Agrees s → Agrees s'

theorem Keeps.refl (s : LiveStore) : Keeps s s := ⟨.refl s, id⟩

theorem Keeps.trans {s s' : LiveStore} (h : Keeps s s') (h' : Keeps s' s'') : Keeps s s'' :=
  ⟨h.grows.trans h'.grows, fun a => h'.agrees (h.agrees a)⟩

theorem Keeps.of_tables {s s' : LiveStore} (rows : s'.matchRows = s.matchRows)
    (states : s'.matchStates = s.matchStates) : Keeps s s' :=
  ⟨.of_rows rows, fun h t id =>
    (h t id).congr (by rw [statusOf_congr rows]) (wireOf_congr states t id)⟩

section
variable {c : Settings} {x : Ambient} {t : Uuid} {s s' : LiveStore} {user : Option Uuid}
  {matchId : String} {header : IfMatch} {p : String × MatchStateFields} {response : JsonObject}
  {updates : List (String × MatchStateFields)} {acc acc' : JsonObject × LiveStore}
  {statuses : List (String × MatchStatus)} {action : ResolutionAction}

theorem appendIfEventNode_tables {op : LocalOperation} {what : String}
    (h : appendIfEventNode c s x t op what = .ok s') :
    s'.matchRows = s.matchRows ∧ s'.matchStates = s.matchStates := by
  unfold appendIfEventNode at h
  rw [bind_eq_ok] at h
  obtain ⟨node, -, h⟩ := h
  split at h
  · cases h
    exact ⟨rfl, rfl⟩
  · split at h
    · cases h
      exact ⟨rfl, rfl⟩
    · cases h

theorem putCommand_tables {row : Command} (h : putCommand c s row = .ok s') :
    s'.matchRows = s.matchRows ∧ s'.matchStates = s.matchStates := by
  unfold putCommand at h
  split at h
  · cases h
    exact ⟨rfl, rfl⟩
  · cases h

/-! ## One match -/

theorem updateMatchState_keeps {document : MatchStateDTO} {p : MatchState × Match}
    (h : updateMatchState c x t s user matchId header document = .ok (p, s')) : Keeps s s' := by
  obtain ⟨actorId, seenVersion, h⟩ := updateMatchState_eq_ok h
  unfold MatchStateApplication.update at h
  simp only [bind_eq_ok] at h
  obtain ⟨⟨m, s₁⟩, written, _, -, s₂, appended, h⟩ := h
  cases h
  obtain ⟨grows, states, rows⟩ := setStatus_spec written
  obtain ⟨rows₂, states₂⟩ := appendIfEventNode_tables appended
  refine ⟨grows.trans (.of_rows rows₂), fun agrees t' id' => ?_⟩
  refine @agreeAt_of_written s s' t matchId document.status.canonical (fun t' id' => ?_)
    (fun t' id' => ?_) t' id' (.inl (agrees t' id'))
  · rw [statusOf_congr rows₂, statusOf_upsertState, rows]
  · rw [wireOf_congr states₂, wireOf_upsertState, canonicalToLegacy_canonical, wireOf_congr states]
    rfl

theorem deleteMatchState_keeps (h : deleteMatchState c x t s user matchId header = .ok (m, s')) :
    Keeps s s' := by
  unfold deleteMatchState at h
  simp only [bind_eq_ok] at h
  obtain ⟨_, -, seenVersion, -, actorId, -, h⟩ := h
  unfold MatchStateApplication.delete at h
  simp only [bind_eq_ok] at h
  obtain ⟨⟨m', s₁⟩, written, _, -, s₂, appended, h⟩ := h
  cases h
  obtain ⟨grows, states, rows⟩ := setStatus_spec written
  obtain ⟨rows₂, states₂⟩ := appendIfEventNode_tables appended
  have same : Grows s (s.deleteState t matchId) := .of_rows rfl
  refine ⟨(same.trans grows).trans (.of_rows rows₂), fun agrees t' id' => ?_⟩
  refine @agreeAt_of_written s s' t matchId .scheduled (fun t' id' => ?_) (fun t' id' => ?_) t' id'
    (.inl (agrees t' id'))
  · rw [statusOf_congr rows₂, rows]
    rfl
  · rw [wireOf_congr states₂, wireOf_congr states, wireOf_deleteState]
    rfl

/-! ## Every match -/

theorem foldlM_grows {β γ : Type} {f : β × LiveStore → γ → Except LiveError (β × LiveStore)}
    (hf : ∀ acc a acc', f acc a = .ok acc' →
      Grows acc.2 acc'.2 ∧ acc'.2.matchStates = acc.2.matchStates) {l : List γ}
    {acc acc' : β × LiveStore} (h : l.foldlM f acc = .ok acc') :
    Grows acc.2 acc'.2 ∧ acc'.2.matchStates = acc.2.matchStates := by
  induction l generalizing acc with
  | nil =>
    cases h
    exact ⟨.refl _, rfl⟩
  | cons a l ih =>
    rw [List.foldlM_cons, bind_eq_ok] at h
    obtain ⟨mid, first, rest⟩ := h
    obtain ⟨grows, states⟩ := hf acc a mid first
    obtain ⟨grows', states'⟩ := ih rest
    exact ⟨grows.trans grows', states'.trans states⟩

theorem resetAffected_grows {acc acc' : List Json × LiveStore}
    (h : resetAffected t acc m = .ok acc') :
    Grows acc.2 acc'.2 ∧ acc'.2.matchStates = acc.2.matchStates := by
  unfold resetAffected resetMatch at h
  split at h
  · cases h
    exact ⟨.refl _, rfl⟩
  · rw [bind_eq_ok] at h
    obtain ⟨⟨row, s⟩, written, h⟩ := h
    cases h
    obtain ⟨grows, states, -⟩ := setStatus_spec written
    exact ⟨grows, states⟩

theorem resetAllMatchStates_keeps {idempotencyKey : Option Uuid} {n : Int}
    (h : resetAllMatchStates c x t s user idempotencyKey = .ok (n, s')) : Keeps s s' := by
  unfold resetAllMatchStates at h
  simp only [bind_eq_ok] at h
  obtain ⟨_, -, actorId, -, h⟩ := h
  unfold MatchStateApplication.resetAll at h
  split at h
  · split at h
    · cases h
    · rw [bind_eq_ok] at h
      obtain ⟨_, -, h⟩ := h
      cases h
      exact .refl s
  · simp only [bind_eq_ok] at h
    obtain ⟨⟨affected, s₁⟩, reset, s₂, appended, h⟩ := h
    cases h
    obtain ⟨rows₂, states₂⟩ := appendIfEventNode_tables appended
    obtain ⟨grows, states⟩ := foldlM_grows (fun _ _ _ => resetAffected_grows) reset
    have writes := foldlM_writes (t := t) (e := resetEntries) (fun _ _ _ => resetAffected_writes) reset
    have same : Grows s (s.resetStates t).2 := .of_rows rfl
    refine ⟨(same.trans grows).trans (.of_rows rows₂), fun agrees t' id => ?_⟩
    rw [AgreeAt, statusOf_congr rows₂, wireOf_congr states₂, wireOf_congr states, wireOf_resetStates]
    by_cases mine : t = t'
    · subst mine
      rw [if_pos rfl, writes.board, show (s.resetStates t).2.statusOf t = s.statusOf t from rfl]
      have := marks_reset (s := (s.resetStates t).2) (t := t) id
      rw [show (s.resetStates t).2.statusOf t = s.statusOf t from rfl] at this
      rw [this]
      rfl
    · rw [if_neg mine, writes.others t' (Ne.symm mine)]
      exact agrees t' id

/-! ## Merging and replacing -/

theorem mergeMatch_grows {acc acc' : List Match × LiveStore} (h : mergeMatch t acc p = .ok acc') :
    Grows acc.2 acc'.2 ∧ acc'.2.matchStates = acc.2.matchStates := by
  unfold mergeMatch at h
  rw [bind_eq_ok] at h
  obtain ⟨⟨row, s⟩, written, h⟩ := h
  cases h
  obtain ⟨grows, states, -⟩ := setStatus_spec written
  exact ⟨grows, states⟩

theorem wireOf_foldl_upsertState (ps : List (String × MatchStateFields)) {s : LiveStore}
    {b : Board} (h : ∀ id, s.wireOf t id = canonicalToLegacy (b id)) (id : String) :
    (ps.foldl (fun s p => (s.upsertState t p.1 p.2).2) s).wireOf t id =
      canonicalToLegacy (marks (ps.map fun p => (p.1, p.2.status.canonical)) b id) := by
  induction ps generalizing s b with
  | nil => exact h id
  | cons p ps ih =>
    rw [List.foldl_cons, List.map_cons, marks_cons]
    refine ih (fun id => ?_)
    rw [wireOf_upsertState, Function.update_apply]
    by_cases same : p.1 = id
    · simp [same]
    · simp [same, Ne.symm same, h id]

theorem wireOf_foldl_upsertState_other (ps : List (String × MatchStateFields)) {s : LiveStore}
    {t' : Uuid} (other : t ≠ t') (id : String) :
    (ps.foldl (fun s p => (s.upsertState t p.1 p.2).2) s).wireOf t' id = s.wireOf t' id := by
  induction ps generalizing s with
  | nil => rfl
  | cons p ps ih =>
    rw [List.foldl_cons, ih, wireOf_upsertState, if_neg (fun e => other e.1)]

theorem bulkMerge_keeps {actorId : Uuid} {key : String}
    (h : MatchStateApplication.bulkMerge c x t actorId s updates key = .ok (response, s')) :
    Keeps s s' := by
  unfold MatchStateApplication.bulkMerge at h
  split at h
  · cases h
  · dsimp only at h
    split at h
    · split at h
      · cases h
      · cases h
        exact .refl s
    · simp only [bind_eq_ok] at h
      obtain ⟨⟨rows, s₁⟩, merged, s₂, appended, h⟩ := h
      cases h
      obtain ⟨rows₂, states₂⟩ := appendIfEventNode_tables appended
      obtain ⟨grows, states⟩ := foldlM_grows (fun _ _ _ => mergeMatch_grows) merged
      have writes := foldlM_writes (f := mergeMatch t) (fun _ _ _ h => mergeMatch_writes h) merged
      have upserts := foldl_upsertState_writes s₁ t (updates.insertionSort (fun p q => p.1 ≤ q.1))
      have untouched : Grows s₁ ((updates.insertionSort fun p q => p.1 ≤ q.1).foldl
          (fun s p => (s.upsertState t p.1 p.2).2) s₁) := by
        refine Grows.of_rows ?_
        generalize updates.insertionSort (fun p q => p.1 ≤ q.1) = ps
        clear merged grows states writes upserts appended rows₂ states₂
        induction ps generalizing s₁ with
        | nil => rfl
        | cons p ps ih => exact ih (s₁.upsertState t p.1 p.2).2
      refine ⟨(grows.trans untouched).trans (.of_rows rows₂), fun agrees t' id => ?_⟩
      rw [AgreeAt, statusOf_congr rows₂, wireOf_congr states₂]
      by_cases mine : t = t'
      · subst mine
        have wires := wireOf_foldl_upsertState (t := t)
          (updates.insertionSort fun p q => p.1 ≤ q.1) (s := s₁) (b := s.statusOf t)
          (fun id => by rw [wireOf_congr states]; exact agrees t id) id
        rw [wires, upserts.board, marks_nil, writes.board, ← List.map_eq_flatMap]
      · rw [wireOf_foldl_upsertState_other _ mine, wireOf_congr states,
          upserts.others t' (Ne.symm mine), writes.others t' (Ne.symm mine)]
        exact agrees t' id

theorem importMatchStatesBulk_keeps {states : BulkStates} {key : String}
    (h : importMatchStatesBulk c x t s user states key = .ok (response, s')) : Keeps s s' := by
  unfold importMatchStatesBulk at h
  split at h
  · cases h
    exact .refl s
  · simp only [bind_eq_ok] at h
    obtain ⟨actorId, -, _, -, ⟨_, s₁⟩, merged, h⟩ := h
    cases h
    exact bulkMerge_keeps (valueConflict_eq_ok merged)

theorem resetUnnamed_grows (h : resetUnnamed t statuses acc m = .ok acc') :
    Grows acc.2 acc'.2 ∧ acc'.2.matchStates = acc.2.matchStates := by
  unfold resetUnnamed at h
  split at h
  · rw [bind_eq_ok] at h
    obtain ⟨⟨row, s⟩, written, h⟩ := h
    cases h
    obtain ⟨grows, states, -⟩ := setStatus_spec written
    exact ⟨grows, states⟩
  · cases h
    exact ⟨.refl _, rfl⟩

theorem importMatch_agrees (named : Assoc.get p.1 statuses = some p.2.status.canonical)
    (h : importMatch t statuses acc p = .ok acc') :
    Grows acc.2 acc'.2 ∧ ∀ t' id, AgreeAt acc.2 t' id ∨ (t = t' ∧ p.1 = id) →
      AgreeAt acc'.2 t' id := by
  unfold importMatch at h
  rw [named] at h
  simp only [bind_eq_ok] at h
  obtain ⟨⟨row, s₁⟩, written, h⟩ := h
  cases h
  obtain ⟨grows, states, rows⟩ := setStatus_spec written
  refine ⟨grows, fun t' id agrees => ?_⟩
  have mirrored : ∀ t' id', (s₁.upsertState t p.1 p.2).2.wireOf t' id' =
      if t = t' ∧ p.1 = id' then canonicalToLegacy p.2.status.canonical
      else acc.2.wireOf t' id' := by
    intro t' id'
    rw [wireOf_upsertState, canonicalToLegacy_canonical, wireOf_congr states]
  have stored : ∀ t' id', (s₁.upsertState t p.1 p.2).2.statusOf t' id' =
      if t = t' ∧ p.1 = id' then p.2.status.canonical else acc.2.statusOf t' id' := rows
  exact agreeAt_of_written stored mirrored agrees

theorem foldlM_importMatch_agrees
    (named : ∀ p ∈ updates, Assoc.get p.1 statuses = some p.2.status.canonical)
    (h : updates.foldlM (importMatch t statuses) acc = .ok acc') :
    Grows acc.2 acc'.2 ∧ ∀ t' id, AgreeAt acc.2 t' id ∨ (t = t' ∧ ∃ p ∈ updates, p.1 = id) →
      AgreeAt acc'.2 t' id := by
  induction updates generalizing acc with
  | nil =>
    cases h
    exact ⟨.refl _, fun t' id agrees => agrees.resolve_right (by simp)⟩
  | cons p updates ih =>
    rw [List.foldlM_cons, bind_eq_ok] at h
    obtain ⟨mid, first, rest⟩ := h
    obtain ⟨grows, step⟩ := importMatch_agrees (named p List.mem_cons_self) first
    obtain ⟨grows', later⟩ := ih (fun p hp => named p (List.mem_cons_of_mem _ hp)) rest
    refine ⟨grows.trans grows', fun t' id agrees => later t' id ?_⟩
    rcases agrees with agrees | ⟨mine, q, hq, rfl⟩
    · exact Or.inl (step t' id (Or.inl agrees))
    · rcases List.mem_cons.mp hq with rfl | hq
      · exact Or.inl (step t' _ (Or.inr ⟨mine, rfl⟩))
      · exact Or.inr ⟨mine, q, hq, rfl⟩

theorem MatchStatesUpload.named (u : MatchStatesUpload) :
    ∀ p ∈ u.replacement.updates,
      Assoc.get p.1 u.replacement.statuses = some p.2.status.canonical := by
  intro p hp
  obtain ⟨d, hd, rfl⟩ := List.mem_map.mp hp
  refine Assoc.get_eq_some_of_mem ?_ (List.mem_map.mpr ⟨d, hd, rfl⟩)
  have keys : Assoc.keys u.replacement.statuses = u.matchStates.map fun d => d.matchId.val := by
    simp [Assoc.keys, MatchStatesUpload.replacement, Function.comp_def]
  rw [keys]
  exact u.distinct

theorem importMatchStates_keeps {upload : MatchStatesUpload} {key : String}
    (h : importMatchStates c x t s user upload key = .ok (response, s')) : Keeps s s' := by
  unfold importMatchStates at h
  simp only [bind_eq_ok] at h
  obtain ⟨_, -, actorId, -, h⟩ := h
  have h := valueConflict_eq_ok h
  unfold MatchStateApplication.replaceImport at h
  split at h
  · cases h
  · simp only [bind_eq_ok] at h
    obtain ⟨operationId, -, h⟩ := h
    split at h
    · rw [bind_eq_ok] at h
      obtain ⟨_, -, h⟩ := h
      cases h
      exact .refl s
    · simp only [bind_eq_ok] at h
      obtain ⟨⟨versions₁, s₁⟩, reset, ⟨versions₂, s₂⟩, imported, s₃, appended, h⟩ := h
      cases h
      obtain ⟨rows₃, states₃⟩ := appendIfEventNode_tables appended
      obtain ⟨grows₁, states₁⟩ := foldlM_grows (fun _ _ _ => resetUnnamed_grows) reset
      have writes := foldlM_writes (t := t) (e := unnamedEntries upload.replacement.statuses)
        (fun _ _ _ => resetUnnamed_writes) reset
      have mem : ∀ p, p ∈ upload.replacement.updates.insertionSort (fun p q => p.1 ≤ q.1) ↔
          p ∈ upload.replacement.updates := fun p => List.mem_insertionSort _
      obtain ⟨grows₂, later⟩ := foldlM_importMatch_agrees
        (fun p hp => upload.named p ((mem p).mp hp)) imported
      have same : Grows s (s.resetStates t).2 := .of_rows rfl
      refine ⟨((same.trans grows₁).trans grows₂).trans (.of_rows rows₃), fun agrees t' id => ?_⟩
      refine (later t' id ?_).congr (by rw [statusOf_congr rows₃]) (wireOf_congr states₃ t' id)
      by_cases mine : t = t'
      · subst mine
        cases named : Assoc.get id upload.replacement.statuses with
        | some status =>
          obtain ⟨d, hd, e⟩ := List.mem_map.mp (Assoc.mem_of_get named)
          refine Or.inr ⟨rfl, (d.matchId.val, d.toFields), (mem _).mpr (List.mem_map.mpr ⟨d, hd, rfl⟩), ?_⟩
          exact congrArg Prod.fst e
        | none =>
          -- a match the upload does not name was reset on both sides
          refine Or.inl ?_
          have board := writes.board
          rw [AgreeAt, wireOf_congr states₁, wireOf_resetStates, if_pos rfl, board,
            marks_resetUnnamed named]
          rfl
      · refine Or.inl ((agrees t' id).congr ?_ ?_)
        · rw [writes.others t' (Ne.symm mine)]
          rfl
        · rw [wireOf_congr states₁, wireOf_resetStates, if_neg mine]

/-! ## Commands -/

theorem rejected_keeps (submittedBy : Uuid) (r : CommandRequest) (existing : Option Command)
    (e : Rejection) :
    (rejected c x t submittedBy r s existing e).1.matchRows = s.matchRows ∧
      (rejected c x t submittedBy r s existing e).1.matchStates = s.matchStates := by
  unfold rejected
  split
  · next s' stored => exact putCommand_tables stored
  · exact ⟨rfl, rfl⟩

theorem applyCommandMutation_version {m' : Match} (h : applyCommandMutation r m = .ok m') :
    m'.version = m.version + 1 := by
  unfold applyCommandMutation at h
  simp only [bind_eq_ok] at h
  obtain ⟨status, -, h⟩ := h
  split at h
  · simp only [bind_eq_ok] at h
    obtain ⟨courtId, -, timeSlot, -, h⟩ := h
    cases h
    rfl
  · cases h
    rfl
  · cases h
    rfl

theorem applyCommandTo_keeps {existing : Option Command}
    (found : s.matchRows.get (t, r.matchId.val) = some m) {p : ProcessedCommand}
    (h : applyCommandTo c x t submittedBy r s existing m = .ok (p, s')) : Keeps s s' := by
  unfold applyCommandTo at h
  simp only [bind_eq_ok] at h
  obtain ⟨m', mutated, s₁, stored, s₂, appended, h⟩ := h
  cases h
  obtain ⟨tournament, id, status⟩ := applyCommandMutation_eq_ok mutated
  have version := applyCommandMutation_version mutated
  have key : m.tournamentId = t ∧ m.id = r.matchId.val := by
    simpa [Match.key] using Table.key_of_get found
  obtain ⟨rows₁, states₁⟩ := putCommand_tables stored
  obtain ⟨rows₂, states₂⟩ := appendIfEventNode_tables appended
  have put : Grows s { s with matchRows := s.matchRows.put m' } := by
    refine put_grows s m' ?_
    rw [tournament, id, key.1, key.2, LiveStore.versionOf, found, version]
    exact Nat.lt_succ_self _
  refine ⟨put.trans (.of_rows (rows₂.trans rows₁)), fun agrees t' id' => ?_⟩
  refine @agreeAt_of_written s s' t r.matchId.val r.action.targetStatus (fun t' id' => ?_)
    (fun t' id' => ?_) t' id' (.inl (agrees t' id'))
  · rw [statusOf_congr (rows₂.trans rows₁)]
    have := statusOf_put s m' t' id'
    rw [tournament, id, key.1, key.2, status] at this
    exact this
  · rw [wireOf_congr (states₂.trans states₁), wireOf_mirrorCommandState]
    rfl

theorem processCommand_keeps (submittedBy : Uuid) (r : CommandRequest) :
    Keeps s (processCommand c x t submittedBy r s).1 := by
  refine processCommand_ends (P := fun y => Keeps s y.1) (fun _ _ => .refl s) (fun _ _ => .refl s)
    (fun e _ => ?_) fun m p s' _ valid applied => ?_
  · obtain ⟨rows, states⟩ := rejected_keeps (c := c) (x := x) (t := t) (s := s) submittedBy r _ e
    exact .of_tables rows states
  · exact applyCommandTo_keeps (validateCommand_eq_ok valid) applied

theorem displace_keeps {key : Json} (h : displace x t action s key = .ok s') : Keeps s s' := by
  unfold displace at h
  split at h
  · next id =>
    split at h
    · cases h
      exact .refl s
    · next m found =>
      cases h
      have key : m.tournamentId = t ∧ m.id = id := by
        simpa [Match.key] using Table.key_of_get found
      have kept : (applyResolutionToDisplaced action m).tournamentId = t ∧
          (applyResolutionToDisplaced action m).id = id ∧
          (applyResolutionToDisplaced action m).version = m.version + 1 := by
        cases action <;> exact ⟨key.1, key.2, rfl⟩
      have put := put_grows _ (applyResolutionToDisplaced action m) (by
        rw [kept.1, kept.2.1, kept.2.2, LiveStore.versionOf, found]
        exact Nat.lt_succ_self _)
      refine ⟨put.trans (.of_rows rfl), fun agrees t' id' => ?_⟩
      refine @agreeAt_of_written s _ t id (applyResolutionToDisplaced action m).status
        (fun t' id' => ?_) (fun t' id' => ?_) t' id' (.inl (agrees t' id'))
      · have := statusOf_put s (applyResolutionToDisplaced action m) t' id'
        rw [kept.1, kept.2.1] at this
        exact this
      · rw [wireOf_mirrorCommandState]
        rfl
  · cases h
  · cases h
  · cases h
    exact .refl _

theorem foldlM_displace_keeps {keys : List Json} (h : keys.foldlM (displace x t action) s = .ok s')
    : Keeps s s' := by
  induction keys generalizing s with
  | nil =>
    cases h
    exact .refl _
  | cons key keys ih =>
    rw [List.foldlM_cons, bind_eq_ok] at h
    obtain ⟨mid, first, rest⟩ := h
    exact (displace_keeps first).trans (ih rest)

theorem processResolveCourtCommand_keeps (submittedBy : Uuid) (r : CommandRequest) :
    Keeps s (processResolveCourtCommand c x t submittedBy r s).1 := by
  refine processResolveCourtCommand_ends (P := fun y => Keeps s y.1) (fun _ _ => .refl s)
    (fun _ _ => .refl s) (fun e _ => ?_) fun _ action keys s₁ s₂ _ _ _ displaced stored => ?_
  · obtain ⟨rows, states⟩ := rejected_keeps (c := c) (x := x) (t := t) (s := s) submittedBy r _ e
    exact .of_tables rows states
  · obtain ⟨rows, states⟩ := putCommand_tables stored
    exact (foldlM_displace_keeps displaced).trans (.of_tables rows states)

end

/-! ## Requests -/

theorem serveLive_keeps (c : Settings) (s : LiveStore) (e : LiveEvent) :
    Keeps s (serveLive c s e) := by
  have raised := Keeps.refl s
  obtain ⟨t, x, user, request⟩ := e
  cases request with
  | update => exact rolledBack_cases raised fun _ _ h => updateMatchState_keeps h
  | delete => exact rolledBack_cases raised fun _ _ h => deleteMatchState_keeps h
  | resetAll => exact rolledBack_cases raised fun _ _ h => resetAllMatchStates_keeps h
  | importStates => exact rolledBack_cases raised fun _ _ h => importMatchStates_keeps h
  | importBulk => exact rolledBack_cases raised fun _ _ h => importMatchStatesBulk_keeps h
  | command r =>
    simp only [serveLive, submitCommand]
    split
    · exact raised
    · split
      · split
        · exact processResolveCourtCommand_keeps _ r
        · exact raised
      · exact processCommand_keeps _ r

/-- The request was refused or it failed. -/
def Failed (c : Settings) (s : LiveStore) (e : LiveEvent) : Prop :=
  match e.request with
  | .update matchId header document =>
    (updateMatchState c e.ambient e.tournamentId s e.user matchId header document).toOption = none
  | .delete matchId header =>
    (deleteMatchState c e.ambient e.tournamentId s e.user matchId header).toOption = none
  | .resetAll key =>
    (resetAllMatchStates c e.ambient e.tournamentId s e.user key).toOption = none
  | .importStates upload key =>
    (importMatchStates c e.ambient e.tournamentId s e.user upload key).toOption = none
  | .importBulk states key =>
    (importMatchStatesBulk c e.ambient e.tournamentId s e.user states key).toOption = none
  | .command r => (submitCommand c e.ambient e.tournamentId s e.user r).2.toOption = none

theorem rolledBack_of_failed {α : Type} {s : LiveStore} {r : Except LiveError (α × LiveStore)}
    (h : r.toOption = none) : rolledBack s r = s := by
  cases r with
  | ok p => cases h
  | error e => rfl

theorem processCommand_failed {c : Settings} {x : Ambient} {t : Uuid} {s : LiveStore}
    (h : (processCommand c x t submittedBy r s).2.toOption = none) :
    (processCommand c x t submittedBy r s).1.matchRows = s.matchRows ∧
      (processCommand c x t submittedBy r s).1.matchStates = s.matchStates := by
  revert h
  exact processCommand_ends (P := fun y => y.2.toOption = none → y.1.matchRows = s.matchRows ∧
      y.1.matchStates = s.matchStates) (fun _ _ _ => ⟨rfl, rfl⟩) (fun _ _ _ => ⟨rfl, rfl⟩)
    (fun e _ _ => rejected_keeps submittedBy r _ e) fun _ _ _ _ _ _ h => by cases h

theorem processResolveCourtCommand_failed {c : Settings} {x : Ambient} {t : Uuid} {s : LiveStore}
    (h : (processResolveCourtCommand c x t submittedBy r s).2.toOption = none) :
    (processResolveCourtCommand c x t submittedBy r s).1.matchRows = s.matchRows ∧
      (processResolveCourtCommand c x t submittedBy r s).1.matchStates = s.matchStates := by
  revert h
  exact processResolveCourtCommand_ends (P := fun y => y.2.toOption = none →
      y.1.matchRows = s.matchRows ∧ y.1.matchStates = s.matchStates) (fun _ _ _ => ⟨rfl, rfl⟩)
    (fun _ _ _ => ⟨rfl, rfl⟩) (fun e _ _ => rejected_keeps submittedBy r _ e)
    fun _ _ _ _ _ _ _ _ _ _ h => by cases h

theorem serveLive_failed {c : Settings} {s : LiveStore} {e : LiveEvent} (h : Failed c s e) :
    (serveLive c s e).matchRows = s.matchRows ∧ (serveLive c s e).matchStates = s.matchStates := by
  obtain ⟨t, x, user, request⟩ := e
  have whole : ∀ {s' : LiveStore}, s' = s → s'.matchRows = s.matchRows ∧
      s'.matchStates = s.matchStates := fun e => e ▸ ⟨rfl, rfl⟩
  cases request with
  | update => exact whole (rolledBack_of_failed h)
  | delete => exact whole (rolledBack_of_failed h)
  | resetAll => exact whole (rolledBack_of_failed h)
  | importStates => exact whole (rolledBack_of_failed h)
  | importBulk => exact whole (rolledBack_of_failed h)
  | command r =>
    simp only [Failed, submitCommand] at h
    simp only [serveLive, submitCommand]
    split
    · exact ⟨rfl, rfl⟩
    · next submittedBy =>
      split
      · next resolve =>
        split
        · next shaped =>
          simp only [if_pos resolve, if_pos shaped] at h
          exact processResolveCourtCommand_failed h
        · exact ⟨rfl, rfl⟩
      · next other =>
        simp only [if_neg other] at h
        exact processCommand_failed h

/-- **The two tables agree in every run.** From tables that agree every sequence of live writes,
each answered, refused or failed, comes to tables that agree; a write that fails changes neither
table, no version falls, and the version of a match grows whenever its status changes. -/
theorem tables_agree {c : Settings} {s : LiveStore}
    (run : Reachable Agrees (fun s e s' => s' = serveLive c s e) s) :
    Agrees s ∧ ∀ e, Grows s (serveLive c s e) ∧
      (Failed c s e → (serveLive c s e).matchRows = s.matchRows ∧
        (serveLive c s e).matchStates = s.matchStates) := by
  refine ⟨run.invariant (fun _ h => h) ?_, fun e => ⟨(serveLive_keeps c s e).grows, serveLive_failed⟩⟩
  rintro s e _ - agrees rfl
  exact (serveLive_keeps c s e).agrees agrees

open CourtsideRehearsal Sync.Rehearsal ImportRehearsal in
theorem crowded_agrees : Agrees crowded := by
  intro t id
  have rows : ∀ m ∈ crowded.matchRows.rows, m.status = .scheduled := by decide
  have status : crowded.statusOf t id = .scheduled := by
    unfold LiveStore.statusOf
    cases found : crowded.matchRows.get (t, id) with
    | none => rfl
    | some m => exact rows m (Table.mem_of_get found)
  rw [AgreeAt, status]
  rfl

open CourtsideRehearsal Sync.Rehearsal ImportRehearsal in
theorem tables_agree_called :
    Agrees (serveLive settings crowded call) ∧
      (serveLive settings crowded call).statusOf eventId first = .called :=
  ⟨(tables_agree (c := settings) (.step (a := call) (.init crowded_agrees) rfl)).1, by decide +kernel⟩

open CourtsideRehearsal Sync.Rehearsal ImportRehearsal in
/-- A deletion that succeeds where no wire row is stored: it bumps the version in `matches` and
changes nothing in `match_states`. -/
theorem deletion_changes_one_table :
    let e := event (.delete first (.version 1))
    Agrees crowded ∧ ¬ Failed settings crowded e ∧
      (serveLive settings crowded e).matchRows ≠ crowded.matchRows ∧
      (serveLive settings crowded e).matchStates = crowded.matchStates := by
  refine ⟨crowded_agrees, ?_, ?_, ?_⟩
  · intro failed
    have : (deleteMatchState settings ambient eventId crowded (some director) first
        (.version 1)).toOption.isSome := by decide +kernel
    rw [show (deleteMatchState settings ambient eventId crowded (some director) first
      (.version 1)).toOption = none from failed] at this
    cases this
  · decide +kernel
  · decide +kernel

end Operations
