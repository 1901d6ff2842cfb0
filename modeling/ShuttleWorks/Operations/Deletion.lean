import ShuttleWorks.Operations.Agreement

/-! Deleting a match state as the operator's override. The route promises to bypass
the transition guard, the deletion goes through it: a match that is finished or
retired keeps its row and its status. -/

namespace Operations
open Lib Sync

/-- The graph a match follows; one that was never written follows the first. -/
def LiveStore.machineVersionOf (s : LiveStore) (t : Uuid) (id : String) : Nat :=
  ((s.matchRows.get (t, id)).map Match.machineVersion).getD 1

/-! ## The guard -/

variable {current : MatchStatus}

theorem assertValidTransition_eq_ok_iff {id : String} {next : MatchStatus} {u : Unit} :
    assertValidTransition id current next = .ok u ↔ next ∈ matchMachine.targets current := by
  unfold assertValidTransition
  split
  · next valid => exact ⟨fun _ => valid, fun _ => rfl⟩
  · next invalid =>
    refine ⟨fun h => ?_, fun valid => absurd valid invalid⟩
    cases h

theorem matchMachine_edge (current target : MatchStatus)
    (h : target ∈ matchMachine.targets current) :
    ∃ t, matchMachine.transitions.find? (fun t => current ∈ t.fromStates ∧ t.target = target) =
      some t ∧ matchMachine.edge current t.event = .ok t ∧ t.actor = "operator" := by
  cases current <;> cases target <;> first
    | exact absurd h (by decide)
    | (refine ⟨_, rfl, ?_, ?_⟩ <;> rfl)

theorem transitionMatch_eq_ok_iff {id : String} {version : Nat} {target s : MatchStatus} :
    transitionMatch id version current target = .ok s ↔
      s = target ∧ (current = target ∨
        target ∈ matchMachine.targets current ∧ version = matchMachine.version) := by
  unfold transitionMatch
  split
  · next same =>
    subst same
    simp [eq_comm]
  · next moves =>
    simp only [moves, false_or, bind_eq_ok, assertValidTransition_eq_ok_iff]
    by_cases valid : target ∈ matchMachine.targets current
    · obtain ⟨t, chosen, edge, operator⟩ := matchMachine_edge current target valid
      have reaches := List.find?_some chosen
      simp only [decide_eq_true_eq] at reaches
      simp only [chosen, valid, true_and, Machine.apply, exists_const]
      by_cases graph : version = matchMachine.version
      · rw [if_neg (not_not.mpr graph), edge, ok_bind, if_neg (not_not.mpr operator), reaches.2]
        simp [graph, eq_comm]
      · rw [if_pos graph]
        simp [graph]
    · simp [valid]

/-- The statuses from which a match can be put back to `scheduled`. -/
theorem scheduled_reachable (current : MatchStatus) :
    (current = .scheduled ∨ .scheduled ∈ matchMachine.targets current) ↔
      current ≠ .finished ∧ current ≠ .retired := by
  cases current <;> decide

/-! ## One deletion -/

/-- The operation a deletion is logged as. -/
def deletionOperation (actorId : Uuid) (matchId : String) (expectedVersion : Nat) :
    LocalOperation where
  actorId := actorId
  commandType := "match_state.delete.v1"
  aggregateType := "match"
  aggregateId := matchId
  payload := [("status", .str MatchStatus.scheduled.value), ("deleted", .bool true)]
  expectedVersion := some expectedVersion

theorem appendIfEventNode_of_log {c : Settings} {x : Ambient} {t : Uuid} {op : LocalOperation}
    {what : String} {s₁ s₁' : LiveStore} (h : appendIfEventNode c s₁ x t op what = .ok s₁')
    (s₂ : LiveStore) (log : s₂.sync = s₁.sync) :
    appendIfEventNode c s₂ x t op what = .ok { s₂ with sync := s₁'.sync } := by
  unfold appendIfEventNode at h ⊢
  rw [bind_eq_ok] at h ⊢
  obtain ⟨node, identity, h⟩ := h
  refine ⟨node, identity, ?_⟩
  split at h
  · cases h
    rw [← log]
  · rw [log]
    split at h
    · next appended =>
      cases h
      rfl
    · cases h

/-- With the version it is at, a match is set to `scheduled`. -/
theorem setStatus_current (s : LiveStore) (t : Uuid) (id : String) (status : MatchStatus) :
    ∃ m, s.setStatus t id status (some (s.versionOf t id)) =
        .ok (m, { s with matchRows := s.matchRows.put m }) ∧
      m.key = (t, id) ∧ m.status = status ∧ m.machineVersion = s.machineVersionOf t id := by
  unfold LiveStore.setStatus LiveStore.versionOf LiveStore.machineVersionOf
  cases found : s.matchRows.get (t, id) with
  | none => exact ⟨_, rfl, rfl, rfl, rfl⟩
  | some row =>
    have key := Table.key_of_get found
    simp only [Option.map_some, Option.getD_some, Option.mem_def, Option.some.injEq, forall_eq',
      if_true]
    exact ⟨_, rfl, key, rfl, rfl⟩

section
variable (c : Settings) (x : Ambient) (t : Uuid) (s : LiveStore) (user : Option Uuid)
  (matchId : String)

/-- The deletion went through: the wire row is gone, and the match is scheduled and
free to follow its graph again. -/
structure Deleted (s' : LiveStore) (row : Match) : Prop where
  removed : s'.matchStates.get (t, matchId) = none
  stored : s'.matchRows.get (t, matchId) = some row
  scheduled : row.status = .scheduled
  open_again : ∀ target ∈ matchMachine.targets .scheduled,
    transitionMatch matchId row.machineVersion row.status target = .ok target

/-- The override: a deletion with the current version goes through, one with any other
header is refused and changes nothing. -/
structure Overrides : Prop where
  current : ∃ row s', deleteMatchState c x t s user matchId (.version (s.versionOf t matchId)) =
    .ok (row, s') ∧ Deleted t matchId s' row
  stale : ∀ header, header ≠ .version (s.versionOf t matchId) →
    (∃ e, deleteMatchState c x t s user matchId header = .error e) ∧
      rolledBack s (deleteMatchState c x t s user matchId header) = s

/-- A match the guard lets go, in a tournament that is there, asked for by a user the log
can name. -/
structure Deletable : Prop where
  tournament : s.sync.tournaments.Has t
  unfinished : s.statusOf t matchId ≠ .finished
  unretired : s.statusOf t matchId ≠ .retired
  graph : s.machineVersionOf t matchId = matchMachine.version
  logged : ∃ actorId s', user = some actorId ∧ appendIfEventNode c s x t
    (deletionOperation actorId matchId (s.versionOf t matchId)) = .ok s'

theorem delete_eq (actorId : Uuid) :
    ∃ m : Match, m.key = (t, matchId) ∧ m.status = .scheduled ∧
      m.machineVersion = s.machineVersionOf t matchId ∧
      MatchStateApplication.delete c x t actorId s matchId (s.versionOf t matchId) = (do
        let _ ← transitionMatch matchId (s.machineVersionOf t matchId) (s.statusOf t matchId)
          .scheduled
        let s' ← appendIfEventNode c
          { s.deleteState t matchId with matchRows := s.matchRows.put m } x t
          (deletionOperation actorId matchId (s.versionOf t matchId))
        .ok (m, s')) := by
  obtain ⟨m, written, key, scheduled, graph⟩ :=
    setStatus_current (s.deleteState t matchId) t matchId .scheduled
  refine ⟨m, key, scheduled, graph, ?_⟩
  unfold MatchStateApplication.delete
  have current : (s.deleteState t matchId).versionOf t matchId = s.versionOf t matchId := rfl
  rw [current] at written
  simp only [written, ok_bind]
  rfl

end

section
variable {c : Settings} {x : Ambient} {t : Uuid} {s s' : LiveStore} {user : Option Uuid}
  {matchId : String} {header : IfMatch}

theorem enforceIfMatch_eq_ok_iff {n : Nat} :
    enforceIfMatch t s matchId header = .ok n ↔
      header = .version (s.versionOf t matchId) ∧ n = s.versionOf t matchId := by
  cases header with
  | missing => simp [enforceIfMatch]
  | unreadable raw => simp [enforceIfMatch]
  | version v =>
    simp only [enforceIfMatch, LiveStore.versionOf, IfMatch.version.injEq]
    split
    · next same => simp [same, eq_comm]
    · next other => simp [other]

theorem deleteMatchState_eq_ok {row : Match}
    (h : deleteMatchState c x t s user matchId header = .ok (row, s')) :
    s.sync.tournaments.Has t ∧ header = .version (s.versionOf t matchId) ∧
      ∃ actorId, user = some actorId ∧
        MatchStateApplication.delete c x t actorId s matchId (s.versionOf t matchId) =
          .ok (row, s') := by
  unfold deleteMatchState at h
  simp only [bind_eq_ok, enforceIfMatch_eq_ok_iff] at h
  obtain ⟨_, there, _, ⟨rfl, rfl⟩, actorId, asked, h⟩ := h
  unfold ensureTournament at there
  unfold requireActor at asked
  split at there
  · next has =>
    split at asked
    · cases asked
      exact ⟨has, rfl, actorId, rfl, h⟩
    · cases asked
  · cases there

theorem deleteMatchState_stale (h : header ≠ .version (s.versionOf t matchId)) :
    ∃ e, deleteMatchState c x t s user matchId header = .error e := by
  cases answer : deleteMatchState c x t s user matchId header with
  | error e => exact ⟨e, rfl⟩
  | ok p =>
    obtain ⟨row, s'⟩ := p
    obtain ⟨-, current, -⟩ := deleteMatchState_eq_ok answer
    exact absurd current h

theorem Deletable.deleted (h : Deletable c x t s user matchId) :
    ∃ row s', deleteMatchState c x t s user matchId (.version (s.versionOf t matchId)) =
      .ok (row, s') ∧ Deleted t matchId s' row := by
  obtain ⟨actorId, logged, rfl, appended⟩ := h.logged
  obtain ⟨m, key, scheduled, graph, written⟩ := delete_eq c x t s matchId actorId
  have allowed : transitionMatch matchId (s.machineVersionOf t matchId) (s.statusOf t matchId)
      .scheduled = .ok .scheduled := by
    rw [transitionMatch_eq_ok_iff]
    refine ⟨rfl, ?_⟩
    rcases (scheduled_reachable _).mpr ⟨h.unfinished, h.unretired⟩ with same | edge
    · exact .inl same
    · exact .inr ⟨edge, h.graph⟩
  have late := appendIfEventNode_of_log appended
    { s.deleteState t matchId with matchRows := s.matchRows.put m } rfl
  rw [allowed, ok_bind, late, ok_bind] at written
  refine ⟨m, { s.deleteState t matchId with
    matchRows := s.matchRows.put m
    sync := logged.sync }, ?_, ?_, ?_, scheduled, ?_⟩
  · unfold deleteMatchState
    have there : ensureTournament t s = .ok () := if_pos h.tournament
    have version : enforceIfMatch t s matchId (.version (s.versionOf t matchId)) =
        .ok (s.versionOf t matchId) := enforceIfMatch_eq_ok_iff.mpr ⟨rfl, rfl⟩
    simp only [there, version, ok_bind, requireActor]
    exact written
  · exact (Table.get_erase _ _ _).trans (if_pos rfl)
  · rw [← key]
    exact Table.get_put_self _ _
  · intro target edge
    rw [scheduled, transitionMatch_eq_ok_iff]
    exact ⟨rfl, .inr ⟨edge, graph.trans h.graph⟩⟩

theorem deletable_of_deleted {row : Match}
    (h : deleteMatchState c x t s user matchId (.version (s.versionOf t matchId)) = .ok (row, s'))
    (deleted : Deleted t matchId s' row) : Deletable c x t s user matchId := by
  obtain ⟨there, -, actorId, rfl, through⟩ := deleteMatchState_eq_ok h
  obtain ⟨m, key, scheduled, graph, written⟩ := delete_eq c x t s matchId actorId
  rw [written] at through
  simp only [bind_eq_ok, transitionMatch_eq_ok_iff] at through
  obtain ⟨_, ⟨-, moves⟩, s₁, appended, through⟩ := through
  cases through
  have reachable : s.statusOf t matchId = .scheduled ∨
      .scheduled ∈ matchMachine.targets (s.statusOf t matchId) := moves.imp_right And.left
  obtain ⟨unfinished, unretired⟩ := (scheduled_reachable _).mp reachable
  refine ⟨there, unfinished, unretired, ?_, actorId, _, rfl,
    appendIfEventNode_of_log appended s rfl⟩
  have called := deleted.open_again .called (by decide)
  rw [transitionMatch_eq_ok_iff, scheduled] at called
  rcases called with ⟨-, same | ⟨-, version⟩⟩
  · cases same
  · exact graph.symm.trans version

/-- **The override works on a match that is not over.** A deletion with the current version
removes the wire row and puts the match back to `scheduled`, open to its ordinary transitions,
exactly where the match is neither finished nor retired, follows the graph the machine has, and
the tournament, the user and the log are there to take it; any other header changes nothing. -/
theorem deletion_overrides_iff (c : Settings) (x : Ambient) (t : Uuid) (s : LiveStore)
    (user : Option Uuid) (matchId : String) :
    Overrides c x t s user matchId ↔ Deletable c x t s user matchId := by
  constructor
  · rintro ⟨⟨row, s', answer, deleted⟩, -⟩
    exact deletable_of_deleted answer deleted
  · intro h
    refine ⟨h.deleted, fun header stale => ?_⟩
    obtain ⟨e, refused⟩ := deleteMatchState_stale stale
    refine ⟨⟨e, refused⟩, ?_⟩
    rw [refused]
    rfl

end

open CourtsideRehearsal Sync.Rehearsal ImportRehearsal in
/-- A finished match under the version it is at: the guard refuses the deletion, and the match
stays finished. -/
theorem finished_match_stays :
    let s : LiveStore := { crowded with matchRows :=
      ⟨[{ tournamentId := eventId, id := first, status := .finished, version := 4 }], by decide⟩ }
    s.sync.tournaments.Has eventId ∧ s.versionOf eventId first = 4 ∧
      (∃ e, deleteMatchState settings ambient eventId s (some director) first (.version 4) =
        .error (.conflict e)) ∧
      ¬ Overrides settings ambient eventId s (some director) first := by
  refine ⟨by decide +kernel, by decide +kernel, ?_, fun overrides => ?_⟩
  · exact ⟨_, rfl⟩
  · obtain ⟨row, s', answer, -⟩ := overrides.current
    cases answer

end Operations
