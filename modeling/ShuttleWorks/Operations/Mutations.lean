import ShuttleWorks.Operations.ImportDigest

/-! The live mutations one by one: what each accepted request does to the board
and to the log of the node. -/

namespace Operations
open Lib Sync

/-- What an accepted write did: nothing that the board of its tournament or the log shows, or one
appended operation that conveys the change of the board. -/
def Recorded (c : Settings) (x : Ambient) (t : Uuid) (s s' : LiveStore) : Prop :=
  s'.sync = s.sync ∧ s'.statusOf t = s.statusOf t ∨
    ∃ n op o, carriesCompetition op.commandType = false ∧
      appendLocalOperation c.env s.sync x.actor t n op x.inputs = .ok (o, s'.sync) ∧
      Conveys c.env op (s.statusOf t) (s'.statusOf t)

def Local (t : Uuid) (s s' : LiveStore) : Prop :=
  ∀ t', t' ≠ t → s'.statusOf t' = s.statusOf t'

theorem Recorded.refl (c : Settings) (x : Ambient) (t : Uuid) (s : LiveStore) :
    Recorded c x t s s ∧ Local t s s :=
  ⟨Or.inl ⟨rfl, rfl⟩, fun _ _ => rfl⟩

theorem Writes.recorded {c : Settings} {x : Ambient} {t : Uuid} {s s₁ s' : LiveStore}
    {es : List (String × MatchStatus)} (writes : Writes t es s s₁) {op : LocalOperation}
    {what : String} (appended : appendIfEventNode c s₁ x t op what = .ok s')
    (node : c.env.deploymentProfile = "event_node")
    (own : carriesCompetition op.commandType = false)
    (conveys : Conveys c.env op (s.statusOf t) (marks es (s.statusOf t))) :
    Recorded c x t s s' ∧ Local t s s' := by
  obtain ⟨rows, ⟨other, -⟩ | ⟨n, o, logged⟩⟩ := appendIfEventNode_eq_ok appended
  · exact absurd node other
  · have board : s'.statusOf t = marks es (s.statusOf t) :=
      (statusOf_congr rows t).trans writes.board
    refine ⟨Or.inr ⟨n, op, o, own, ?_, ?_⟩, fun t' other => ?_⟩
    · rw [← writes.sync]
      exact logged
    · rw [board]
      exact conveys
    · exact (statusOf_congr rows t').trans (writes.others t' other)

variable {α : Type}

theorem hideFailure_eq_ok {r : Except LiveError α} {a : α} (h : hideFailure r = .ok a) :
    r = .ok a := by
  unfold hideFailure at h
  split at h
  · exact h
  · cases h
  · cases h

theorem valueConflict_eq_ok {r : Except LiveError α} {a : α} (h : valueConflict r = .ok a) :
    r = .ok a := by
  unfold valueConflict at h
  split at h
  · cases h
  · exact h

section
variable {c : Settings} {x : Ambient} {t : Uuid} {s s' : LiveStore} {user : Option Uuid}
  {matchId : String} {header : IfMatch} {document : MatchStateDTO} {p : MatchState × Match}
  {m : Match} {response : JsonObject} {r : CommandRequest} {m' : Match} {action : ResolutionAction}

/-! ## One match -/

theorem updateMatchState_eq_ok
    (h : updateMatchState c x t s user matchId header document = .ok (p, s')) :
    ∃ actorId seenVersion, MatchStateApplication.update c x t actorId s matchId document.toFields
      document.status.canonical seenVersion = .ok (p, s') := by
  unfold updateMatchState at h
  simp only [bind_eq_ok] at h
  obtain ⟨_, -, seenVersion, -, actorId, -, h⟩ := h
  split at h
  · simp only [bind_eq_ok] at h
    obtain ⟨_, -, _, -, h⟩ := h
    exact ⟨actorId, seenVersion, hideFailure_eq_ok h⟩
  · simp only [bind_eq_ok] at h
    obtain ⟨_, -, h⟩ := h
    exact ⟨actorId, seenVersion, hideFailure_eq_ok h⟩

theorem updateMatchState_recorded (node : c.env.deploymentProfile = "event_node")
    (h : updateMatchState c x t s user matchId header document = .ok (p, s')) :
    Recorded c x t s s' ∧ Local t s s' := by
  obtain ⟨actorId, seenVersion, h⟩ := updateMatchState_eq_ok h
  unfold MatchStateApplication.update at h
  simp only [bind_eq_ok] at h
  obtain ⟨⟨m, s₁⟩, written, _, -, s₂, appended, h⟩ := h
  cases h
  have writes := (setStatus_writes written).1.trans
    (upsertState_writes s₁ t matchId document.toFields)
  have status : Assoc.get "status" (Assoc.merge
      [("status", .str document.status.canonical.value)] document.toFields.toJson) =
        some (.str document.status.text) := rfl
  exact writes.recorded appended node rfl (conveys_matchState rfl status (legacyToCanonical_text _))

theorem deleteMatchState_recorded (node : c.env.deploymentProfile = "event_node")
    (h : deleteMatchState c x t s user matchId header = .ok (m, s')) :
    Recorded c x t s s' ∧ Local t s s' := by
  unfold deleteMatchState at h
  simp only [bind_eq_ok] at h
  obtain ⟨_, -, seenVersion, -, actorId, -, h⟩ := h
  unfold MatchStateApplication.delete at h
  simp only [bind_eq_ok] at h
  obtain ⟨⟨m', s₁⟩, written, _, -, s₂, appended, h⟩ := h
  cases h
  have removed : Writes t [] s (s.deleteState t matchId) := .of_rows rfl rfl
  refine (removed.trans (setStatus_writes written).1).recorded appended node rfl ?_
  exact conveys_matchState rfl rfl (legacyToCanonical_value .scheduled)

/-! ## Several matches -/

theorem resetAllMatchStates_recorded (node : c.env.deploymentProfile = "event_node")
    {idempotencyKey : Option Uuid} {n : Int}
    (h : resetAllMatchStates c x t s user idempotencyKey = .ok (n, s')) :
    Recorded c x t s s' ∧ Local t s s' := by
  unfold resetAllMatchStates at h
  simp only [bind_eq_ok] at h
  obtain ⟨_, -, actorId, -, h⟩ := h
  unfold MatchStateApplication.resetAll at h
  split at h
  · split at h
    · cases h
    · simp only [bind_eq_ok] at h
      obtain ⟨cleared, -, h⟩ := h
      cases h
      exact Recorded.refl c x t s
  · simp only [bind_eq_ok] at h
    obtain ⟨⟨affected, s₁⟩, reset, s₂, appended, h⟩ := h
    cases h
    have rows : (s.resetStates t).2.listForTournament t = s.listForTournament t := rfl
    rw [rows] at reset
    have writes := (resetStates_writes s t).trans
      (foldlM_writes (f := resetAffected t) (fun _ _ _ h => resetAffected_writes h) reset)
    obtain ⟨versions, ids, logged⟩ := resetAffected_affected reset
    refine writes.recorded appended node rfl ?_
    have scheduled : marks ([] ++ (s.listForTournament t).flatMap resetEntries) (s.statusOf t) =
        fun _ => .scheduled := by
      funext id
      exact marks_reset id
    rw [scheduled]
    refine @conveys_resetAll _ _ _ versions rfl ?_ fun id => ?_
    · rw [logged]
      rfl
    · by_cases already : s.statusOf t id = .scheduled
      · exact Or.inl already
      · obtain ⟨m, hm, rfl, -⟩ := exists_row_of_statusOf_ne already
        rw [ids]
        exact Or.inr (List.mem_map_of_mem hm)

theorem bulkMerge_recorded (node : c.env.deploymentProfile = "event_node") {actorId : Uuid}
    {updates : List (String × MatchStateFields)} {key : String}
    (h : MatchStateApplication.bulkMerge c x t actorId s updates key = .ok (response, s')) :
    Recorded c x t s s' ∧ Local t s s' := by
  unfold MatchStateApplication.bulkMerge at h
  split at h
  · cases h
  · dsimp only at h
    split at h
    · split at h
      · cases h
      · cases h
        exact Recorded.refl c x t s
    · simp only [bind_eq_ok] at h
      obtain ⟨⟨rows, s₁⟩, merged, s₂, appended, h⟩ := h
      cases h
      have writes := (foldlM_writes (f := mergeMatch t) (fun _ _ _ h => mergeMatch_writes h)
        merged).trans
          (foldl_upsertState_writes s₁ t (updates.insertionSort (fun p q => p.1 ≤ q.1)))
      refine writes.recorded appended node rfl ?_
      rw [List.append_nil, ← List.map_eq_flatMap]
      exact conveys_bulkUpsert rfl rfl rfl

theorem importMatchStatesBulk_recorded (node : c.env.deploymentProfile = "event_node")
    {states : BulkStates} {key : String}
    (h : importMatchStatesBulk c x t s user states key = .ok (response, s')) :
    Recorded c x t s s' ∧ Local t s s' := by
  unfold importMatchStatesBulk at h
  split at h
  · cases h
    exact Recorded.refl c x t s
  · simp only [bind_eq_ok] at h
    obtain ⟨actorId, -, _, -, ⟨_, s₁⟩, merged, h⟩ := h
    cases h
    exact bulkMerge_recorded node (valueConflict_eq_ok merged)

theorem importMatchStates_recorded (node : c.env.deploymentProfile = "event_node")
    {upload : MatchStatesUpload} {key : String}
    (h : importMatchStates c x t s user upload key = .ok (response, s'))
    (plain : s' ≠ s → upload.Plain) : Recorded c x t s s' ∧ Local t s s' := by
  unfold importMatchStates at h
  simp only [bind_eq_ok] at h
  obtain ⟨_, -, actorId, -, h⟩ := h
  have h := valueConflict_eq_ok h
  rcases replaceImport_eq_ok h with rfl | ⟨versions, s₁, op, appended, command, payload, writes⟩
  · exact Recorded.refl c x t _
  · by_cases same : s' = s
    · rw [same]
      exact Recorded.refl c x t s
    · refine writes.recorded appended node (by rw [command]; rfl) ?_
      rw [marks_import]
      exact conveys_replace command payload (plain same)

/-! ## Commands -/

theorem putCommand_eq_ok {c : Settings} {s s' : LiveStore} {row : Command}
    (h : putCommand c s row = .ok s') : s'.sync = s.sync ∧ s'.matchRows = s.matchRows := by
  unfold putCommand at h
  split at h
  · cases h
    exact ⟨rfl, rfl⟩
  · cases h

theorem validateCommandMatch_eq_ok {found : Option Match}
    (h : validateCommandMatch t r found = .ok m) : found = some m := by
  unfold validateCommandMatch at h
  split at h
  · cases h
  · split at h
    · cases h
    · cases h
      rfl

theorem rejected_recorded (submittedBy : Uuid) (r : CommandRequest) (existing : Option Command)
    (e : Rejection) :
    Recorded c x t s (rejected c x t submittedBy r s existing e).1 ∧
      Local t s (rejected c x t submittedBy r s existing e).1 := by
  unfold rejected
  split
  · next s' stored =>
    obtain ⟨sync, rows⟩ := putCommand_eq_ok stored
    exact ⟨Or.inl ⟨sync, statusOf_congr rows t⟩, fun t' _ => statusOf_congr rows t'⟩
  · exact Recorded.refl c x t s

theorem applyCommandMutation_eq_ok (h : applyCommandMutation r m = .ok m') :
    m'.tournamentId = m.tournamentId ∧ m'.id = m.id ∧ m'.status = r.action.targetStatus := by
  unfold applyCommandMutation at h
  simp only [bind_eq_ok] at h
  obtain ⟨status, checked, h⟩ := h
  have target : status = r.action.targetStatus := transitionMatch_eq_ok checked
  split at h
  · simp only [bind_eq_ok] at h
    obtain ⟨courtId, -, timeSlot, -, h⟩ := h
    cases h
    exact ⟨rfl, rfl, target⟩
  · cases h
    exact ⟨rfl, rfl, target⟩
  · cases h
    exact ⟨rfl, rfl, target⟩

theorem applyCommandTo_recorded (node : c.env.deploymentProfile = "event_node") {submittedBy : Uuid}
    {existing : Option Command} (found : s.matchRows.get (t, r.matchId.val) = some m)
    {p : ProcessedCommand} (h : applyCommandTo c x t submittedBy r s existing m = .ok (p, s')) :
    Recorded c x t s s' ∧ Local t s s' := by
  unfold applyCommandTo at h
  simp only [bind_eq_ok] at h
  obtain ⟨m', mutated, s₁, stored, s₂, appended, h⟩ := h
  cases h
  obtain ⟨tournament, id, status⟩ := applyCommandMutation_eq_ok mutated
  have key : m.tournamentId = t ∧ m.id = r.matchId.val := by
    have := Table.key_of_get found
    simpa [Match.key] using this
  obtain ⟨sync, rows⟩ := putCommand_eq_ok stored
  have writes := ((put_writes s m' (tournament.trans key.1)).trans
    (mirrorCommandState_writes _ t r.matchId.val r.action.targetStatus x.inputs.now)).trans
      (Writes.of_rows sync rows)
  refine writes.recorded appended node rfl ?_
  rw [id, key.2]
  exact conveys_matchState rfl rfl (legacyToCanonical_value m'.status)

theorem validateCommand_eq_ok (h : validateCommand t r s = .ok m) :
    s.matchRows.get (t, r.matchId.val) = some m := by
  unfold validateCommand at h
  simp only [bind_eq_ok] at h
  obtain ⟨m', found, _, -, _, -, _, -, _, -, h⟩ := h
  cases h
  exact validateCommandMatch_eq_ok found

theorem processCommand_recorded (node : c.env.deploymentProfile = "event_node")
    (submittedBy : Uuid) (r : CommandRequest) :
    Recorded c x t s (processCommand c x t submittedBy r s).1 ∧
      Local t s (processCommand c x t submittedBy r s).1 := by
  exact processCommand_ends (P := fun y => Recorded c x t s y.1 ∧ Local t s y.1)
    (fun _ _ => Recorded.refl c x t s) (fun _ _ => Recorded.refl c x t s)
    (fun e _ => rejected_recorded submittedBy r _ e)
    fun _ _ _ _ valid applied => applyCommandTo_recorded node (validateCommand_eq_ok valid) applied

/-! ## Resolving a court -/

/-- The accepted resolution leaves the status of every match it displaces as it is. -/
def Unmoved (t : Uuid) (s : LiveStore) (r : CommandRequest) : Prop :=
  ∀ chosen action keys, validateResolution t r s = .ok (chosen, action, keys) →
    ∀ id, Json.str id ∈ keys → ∀ m, s.matchRows.get (t, id) = some m →
      (applyResolutionToDisplaced action m).status = m.status

theorem applyResolutionToDisplaced_status (action : ResolutionAction)
    (same : m.status = m'.status) :
    (applyResolutionToDisplaced action m).status = (applyResolutionToDisplaced action m').status := by
  cases action
  · simp only [applyResolutionToDisplaced, same]
  · rfl
  · rfl

/-- From one store to another neither the log nor the status of a row changed. -/
structure Unchanged (s s' : LiveStore) : Prop where
  sync : s'.sync = s.sync
  status : ∀ key, (s'.matchRows.get key).map Match.status = (s.matchRows.get key).map Match.status

theorem Unchanged.statusOf {s s' : LiveStore} (h : Unchanged s s') (t : Uuid) :
    s'.statusOf t = s.statusOf t := by
  funext id
  simp only [LiveStore.statusOf, h.status]

theorem displace_unchanged {key : Json} (h : displace x t action s key = .ok s')
    (unmoved : ∀ id, key = .str id → ∀ m, s.matchRows.get (t, id) = some m →
      (applyResolutionToDisplaced action m).status = m.status) : Unchanged s s' := by
  unfold displace at h
  split at h
  · next id =>
    split at h
    · cases h
      exact ⟨rfl, fun _ => rfl⟩
    · next m found =>
      cases h
      refine ⟨rfl, fun k => ?_⟩
      have keyed : (applyResolutionToDisplaced action m).key = (t, id) := by
        have key : m.key = (t, id) := Table.key_of_get found
        cases action <;> exact key
      show ((s.matchRows.put (applyResolutionToDisplaced action m)).get k).map Match.status = _
      rw [Table.get_put, keyed]
      split
      · next same =>
        rw [← same, found]
        exact congrArg some (unmoved id rfl m found)
      · rfl
  · cases h
  · cases h
  · cases h
    exact ⟨rfl, fun _ => rfl⟩

theorem foldlM_displace_unchanged {keys : List Json} {s s' : LiveStore}
    (h : keys.foldlM (displace x t action) s = .ok s')
    (unmoved : ∀ id, Json.str id ∈ keys → ∀ m, s.matchRows.get (t, id) = some m →
      (applyResolutionToDisplaced action m).status = m.status) : Unchanged s s' := by
  induction keys generalizing s with
  | nil =>
    cases h
    exact ⟨rfl, fun _ => rfl⟩
  | cons key keys ih =>
    rw [List.foldlM_cons, bind_eq_ok] at h
    obtain ⟨mid, first, rest⟩ := h
    have step := displace_unchanged first fun id same => unmoved id (by simp [same])
    have later := ih rest fun id hid m found => by
      have status := step.status (t, id)
      rw [found] at status
      obtain ⟨m₀, found₀, same⟩ := Option.map_eq_some_iff.mp status.symm
      rw [applyResolutionToDisplaced_status action same.symm, ← same]
      exact unmoved id (List.mem_cons_of_mem _ hid) m₀ found₀
    exact ⟨later.sync.trans step.sync, fun k => (later.status k).trans (step.status k)⟩

theorem processResolveCourtCommand_recorded (submittedBy : Uuid) (r : CommandRequest)
    (unmoved : replayExistingCommand t r s (s.commands.get r.id) = none → Unmoved t s r) :
    Recorded c x t s (processResolveCourtCommand c x t submittedBy r s).1 ∧
      Local t s (processResolveCourtCommand c x t submittedBy r s).1 := by
  refine processResolveCourtCommand_ends (P := fun y => Recorded c x t s y.1 ∧ Local t s y.1)
    (fun _ _ => Recorded.refl c x t s) (fun _ _ => Recorded.refl c x t s)
    (fun e _ => rejected_recorded submittedBy r _ e)
    fun chosen action keys s₁ s₂ _ fresh valid displaced stored => ?_
  have same := foldlM_displace_unchanged displaced (unmoved fresh chosen action keys valid)
  obtain ⟨sync, rows⟩ := putCommand_eq_ok stored
  exact ⟨Or.inl ⟨sync.trans same.sync, (statusOf_congr rows t).trans (same.statusOf t)⟩,
    fun t' _ => (statusOf_congr rows t').trans (same.statusOf t')⟩

end

end Operations
