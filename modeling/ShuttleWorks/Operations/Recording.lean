import ShuttleWorks.Operations.Board

/-! What the log says of a live write. A view of the event shows a board when it
reads back the status of every match; an operation conveys a change of the board
when applying it to a view of the one gives a view of the other. Every accepted
mutation but the resolution of a court appends an operation that conveys what it
did to the tables. -/

namespace Operations
open Lib Sync

/-! ## Views -/

def rowStatus (row : JsonObject) : Option MatchStatus :=
  match Assoc.get "status" row with
  | some (.str text) => legacyToCanonical text
  | _ => none

def shown (states : Section) (id : String) : Option MatchStatus :=
  ((Assoc.get id states).map rowStatus).getD (some .scheduled)

def Shows (d : ProjectionData) (b : Board) : Prop := ∀ id, shown d.matchStates id = some (b id)

theorem rowStatus_of_get {row : JsonObject} {t : String}
    (h : Assoc.get "status" row = some (.str t)) : rowStatus row = legacyToCanonical t := by
  rw [rowStatus, h]

theorem shown_set (states : Section) (id id' : String) (row : JsonObject) :
    shown (Assoc.set id row states) id' = if id = id' then rowStatus row else shown states id' := by
  simp only [shown, Assoc.get_set]
  by_cases h : id = id'
  · simp [h]
  · simp [h]

theorem setCompetition_matchStates (o : OperationEnvelope) (d : ProjectionData) :
    (setCompetition o d).matchStates = d.matchStates := by
  unfold setCompetition
  split <;> rfl

variable {b : Board} {op : LocalOperation} {γ : Type} {t : Uuid}

theorem Shows.competition {d : ProjectionData} (h : Shows d b) (o : OperationEnvelope) :
    Shows (setCompetition o d) b := by
  unfold Shows
  rw [setCompetition_matchStates]
  exact h

/-- Applied to any view of the one board, an operation of this kind gives a view of the other. -/
def Conveys (env : Env) (op : LocalOperation) (b b' : Board) : Prop :=
  ∀ (o : OperationEnvelope) (d : ProjectionData), o.commandType = op.commandType →
    o.aggregateId = op.aggregateId → o.payload = op.payload → Shows d b →
    ∃ d', applyCloudProjectionData o env d = .ok d' ∧ Shows d' b'

/-! ## One match -/

theorem conveys_matchState {env : Env} {status : MatchStatus} {text : String}
    (command : projectionCommand op.commandType = .matchState)
    (payload : Assoc.get "status" op.payload = some (.str text))
    (reads : legacyToCanonical text = some status) :
    Conveys env op b (marks [(op.aggregateId, status)] b) := by
  intro o d hc ha hp shows
  refine ⟨{ setCompetition o d with
    matchStates := setAggregate o (setCompetition o d).matchStates o.payload }, ?_, fun id => ?_⟩
  · simp only [applyCloudProjectionData, applyCommand, hc, command]
  · have stored : Assoc.get "status" (Assoc.merge o.payload (receipt o)) = some (.str text) := by
      rw [Assoc.get_merge_of_not_mem (by simp [receipt, Assoc.keys]), hp, payload]
    rw [setAggregate, shown_set, rowStatus_of_get stored, setCompetition_matchStates, shows id, ha,
      reads, marks_cons, marks_nil, Function.update_apply]
    by_cases h : op.aggregateId = id
    · rw [if_pos h, if_pos h.symm]
    · rw [if_neg h, if_neg (Ne.symm h)]

/-! ## Several matches -/

theorem foldlM_set {f : Section → γ → Except Raised Section} {k : γ → String} {r : γ → JsonObject}
    {l : List γ} (step : ∀ a ∈ l, ∀ states, f states a = .ok (Assoc.set (k a) (r a) states))
    (states : Section) :
    l.foldlM f states = .ok (Assoc.merge states (l.map (fun a => (k a, r a)))) := by
  induction l generalizing states with
  | nil => rfl
  | cons a l ih =>
    rw [List.foldlM_cons, step a List.mem_cons_self, ok_bind,
      ih (fun x hx => step x (List.mem_cons_of_mem _ hx))]
    rfl

theorem shown_merge {k : γ → String} {r : γ → JsonObject} {m : γ → MatchStatus} {l : List γ}
    (reads : ∀ a ∈ l, rowStatus (r a) = some (m a)) {states : Section}
    (shows : ∀ id, shown states id = some (b id)) (id : String) :
    shown (Assoc.merge states (l.map (fun a => (k a, r a)))) id =
      some (marks (l.map (fun a => (k a, m a))) b id) := by
  induction l generalizing states b with
  | nil => exact shows id
  | cons a l ih =>
    rw [List.map_cons, List.map_cons, Assoc.merge_cons, marks_cons]
    refine ih (fun x hx => reads x (List.mem_cons_of_mem _ hx)) fun id' => ?_
    rw [shown_set, reads a List.mem_cons_self, shows, Function.update_apply]
    by_cases h : k a = id'
    · rw [if_pos h, if_pos h.symm]
    · rw [if_neg h, if_neg (Ne.symm h)]

theorem get_merge_versionReceipt (o : OperationEnvelope) (row : JsonObject) (version : Json)
    {key : String} (h : key ∉ ["version", "operationId", "sequence", "acceptedAtNode"]) :
    Assoc.get key (Assoc.merge row (versionReceipt o version)) = Assoc.get key row :=
  Assoc.get_merge_of_not_mem h row

def resetEntry (v : String × Nat) : Json :=
  .obj [("matchId", .str v.1), ("status", .str MatchStatus.scheduled.value), ("version", .int v.2)]

theorem conveys_resetAll {env : Env} {op : LocalOperation} {b : Board}
    {versions : List (String × Nat)}
    (command : projectionCommand op.commandType = .matchStateResetAll)
    (affected : getD "affectedMatches" (.arr []) op.payload = .arr (versions.map resetEntry))
    (all : ∀ id, b id = .scheduled ∨ id ∈ versions.map Prod.fst) :
    Conveys env op b (fun _ => .scheduled) := by
  intro o d hc ha hp shows
  let row (v : String × Nat) : JsonObject :=
    [("status", .str "scheduled"), ("deleted", .bool true)] ++ versionReceipt o (.int v.2)
  have folded := foldlM_set (f := fun states v => resetState o env states (resetEntry v))
    (r := row) (l := versions) (fun v _ states => rfl) (setCompetition o d).matchStates
  have reads : ∀ v ∈ versions, rowStatus (row v) = some .scheduled := fun v _ => by
    rw [rowStatus_of_get (t := "scheduled") rfl]
    decide
  refine ⟨{ setCompetition o d with
    matchStates := Assoc.merge (setCompetition o d).matchStates (versions.map (fun v => (v.1, row v))) },
    ?_, fun id => (shown_merge reads (shows.competition o) id).trans ?_⟩
  · simp only [applyCloudProjectionData, applyCommand, hc, command, hp, affected, pyIter, ok_bind,
      List.foldlM_map, folded]
    rfl
  · congr 1
    refine marks_of_same (fun p hp => ?_) ((all id).imp_right fun named => ?_)
    · obtain ⟨v, -, rfl⟩ := List.mem_map.mp hp
      rfl
    · obtain ⟨v, hv, rfl⟩ := List.mem_map.mp named
      exact ⟨(v.1, .scheduled), List.mem_map_of_mem hv, rfl⟩

theorem conveys_bulkUpsert {env : Env} {updates : List (String × MatchStateFields)}
    {versions : JsonObject} (command : projectionCommand op.commandType = .matchStateBulkUpsert)
    (sent : getD "updates" (.obj []) op.payload =
      .obj (updates.map (fun p => (p.1, .obj p.2.toJson))))
    (resulting : getD "resultingVersions" (.obj []) op.payload = .obj versions) :
    Conveys env op b (marks (updates.map (fun p => (p.1, p.2.status.canonical))) b) := by
  intro o d hc ha hp shows
  let row (p : String × MatchStateFields) : JsonObject :=
    Assoc.merge p.2.toJson (versionReceipt o (getD p.1 .null versions))
  have folded := foldlM_set
    (f := fun states (p : String × MatchStateFields) =>
      Sync.upsertState o states (p.1, .obj p.2.toJson))
    (r := row) (l := updates)
    (fun p _ states => by simp only [Sync.upsertState, hp, resulting, pyDictAttr, ok_bind]; rfl)
    (setCompetition o d).matchStates
  have reads : ∀ p ∈ updates, rowStatus (row p) = some p.2.status.canonical := fun p _ => by
    have stored : Assoc.get "status" (row p) = some (.str p.2.status.text) := by
      rw [get_merge_versionReceipt o _ _ (by decide)]
      rfl
    rw [rowStatus_of_get stored, legacyToCanonical_text]
  refine ⟨{ setCompetition o d with
    matchStates := Assoc.merge (setCompetition o d).matchStates (updates.map (fun p => (p.1, row p))) },
    ?_, shown_merge reads (shows.competition o)⟩
  simp only [applyCloudProjectionData, applyCommand, hc, command, hp, sent, pyDictAttr, ok_bind,
    List.foldlM_map, folded]

/-! ## Appending -/

theorem appendLocalOperation_records {env : Env} {s s' : Store} {actor : Option TransitionActor}
    {n : Uuid} {inputs : AppendInputs} {o : EventOperation}
    (h : appendLocalOperation env s actor t n op inputs = .ok (o, s'))
    (own : carriesCompetition op.commandType = false) :
    o.commandType = op.commandType ∧ o.aggregateId = op.aggregateId ∧ o.payload = op.payload := by
  unfold appendLocalOperation at h
  simp only [bind_eq_ok, own] at h
  obtain ⟨⟨a, s₁⟩, -, ⟨q, s₂⟩, -, s₃, -, h⟩ := h
  split at h
  · cases h
  · simp only [Except.ok.injEq, Prod.mk.injEq] at h
    obtain ⟨rfl, -⟩ := h
    exact ⟨rfl, rfl, rfl⟩

theorem appendIfEventNode_eq_ok {c : Settings} {s s' : LiveStore} {x : Ambient} {what : String}
    (h : appendIfEventNode c s x t op what = .ok s') :
    s'.matchRows = s.matchRows ∧
      (c.env.deploymentProfile ≠ "event_node" ∧ s'.sync = s.sync ∨
        ∃ n o, appendLocalOperation c.env s.sync x.actor t n op x.inputs = .ok (o, s'.sync)) := by
  unfold appendIfEventNode at h
  rw [bind_eq_ok] at h
  obtain ⟨node, identity, h⟩ := h
  unfold eventNodeId at identity
  split at identity
  · next other =>
    cases identity
    cases h
    exact ⟨rfl, Or.inl ⟨other, rfl⟩⟩
  · split at identity
    · next n _ =>
      cases identity
      dsimp only at h
      split at h
      · next o sync appended =>
        cases h
        exact ⟨rfl, Or.inr ⟨n, o, appended⟩⟩
      · cases h
    · cases identity

end Operations
