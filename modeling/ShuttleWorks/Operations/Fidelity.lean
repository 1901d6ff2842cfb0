import ShuttleWorks.Operations.Mutations

/-! The operation log tells the same story as the tables. In every run of live
requests the operations of the live epoch, folded in sequence order, show the
status of every match, as long as no accepted resolution of a court moves a
displaced match and no accepted import has a text beyond plain ASCII. -/

namespace Operations
open Lib Sync

/-! ## Requests -/

inductive LiveRequest
  | update (matchId : String) (header : IfMatch) (document : MatchStateDTO)
  | delete (matchId : String) (header : IfMatch)
  | resetAll (idempotencyKey : Option Uuid)
  | importStates (upload : MatchStatesUpload) (idempotencyKey : String)
  | importBulk (states : BulkStates) (idempotencyKey : String)
  | command (r : CommandRequest)

structure LiveEvent where
  tournamentId : Uuid
  ambient : Ambient
  user : Option Uuid
  request : LiveRequest

def rolledBack {α : Type} (s : LiveStore) : Except LiveError (α × LiveStore) → LiveStore
  | .ok p => p.2
  | .error _ => s

/-- The store a request leaves behind. -/
def serveLive (c : Settings) (s : LiveStore) (e : LiveEvent) : LiveStore :=
  match e.request with
  | .update matchId header document =>
    rolledBack s (updateMatchState c e.ambient e.tournamentId s e.user matchId header document)
  | .delete matchId header =>
    rolledBack s (deleteMatchState c e.ambient e.tournamentId s e.user matchId header)
  | .resetAll key => rolledBack s (resetAllMatchStates c e.ambient e.tournamentId s e.user key)
  | .importStates upload key =>
    rolledBack s (importMatchStates c e.ambient e.tournamentId s e.user upload key)
  | .importBulk states key =>
    rolledBack s (importMatchStatesBulk c e.ambient e.tournamentId s e.user states key)
  | .command r => (submitCommand c e.ambient e.tournamentId s e.user r).1

def importId (c : Settings) (t : Uuid) (key : String) : Uuid :=
  c.uuid5 ("shuttleworks:match-state-replace:" ++ t ++ ":" ++ key)

/-- The log can tell of the request: an import is plain or repeats an earlier one, a resolution
leaves every displaced match in its status or repeats an earlier one. -/
def Carried (c : Settings) (s : LiveStore) (e : LiveEvent) : Prop :=
  match e.request with
  | .importStates upload key =>
    upload.Plain ∨ s.sync.operations.Has (importId c e.tournamentId key)
  | .command r => r.action = .resolveCourt →
    replayExistingCommand e.tournamentId r s (s.commands.get r.id) = none →
      Unmoved e.tournamentId s r
  | _ => True

variable {s : LiveStore} {c : Settings} {x : Ambient} {t : Uuid} {e : LiveEvent} {s' : Store}
  {a : TournamentAuthority} {n : Uuid} {actor : Option TransitionActor} {op : LocalOperation}
  {o : EventOperation} {base : ProjectionData}

theorem rolledBack_cases {α : Type} {r : Except LiveError (α × LiveStore)} {P : LiveStore → Prop}
    (raised : P s) (returned : ∀ a s', r = .ok (a, s') → P s') :
    P (rolledBack s r) := by
  cases r with
  | ok p => exact returned p.1 p.2 rfl
  | error e => exact raised

theorem importMatchStates_used {s' : LiveStore} {user : Option Uuid} {upload : MatchStatesUpload}
    {key : String} {response : JsonObject} (node : c.env.deploymentProfile = "event_node")
    (used : s.sync.operations.Has (importId c t key))
    (h : importMatchStates c x t s user upload key = .ok (response, s')) : s' = s := by
  unfold importMatchStates at h
  simp only [bind_eq_ok] at h
  obtain ⟨_, -, actorId, -, h⟩ := h
  have h := valueConflict_eq_ok h
  unfold MatchStateApplication.replaceImport at h
  split at h
  · cases h
  · simp only [bind_eq_ok] at h
    obtain ⟨operationId, identity, h⟩ := h
    have known : ∃ existing, operationId.bind s.sync.operations.get = some existing := by
      unfold importOperationId at identity
      simp only [bind_eq_ok] at identity
      obtain ⟨n, hn, identity⟩ := identity
      unfold eventNodeId at hn
      rw [if_neg (not_not.mpr node)] at hn
      split at hn
      · cases hn
        dsimp only at identity
        split at identity
        · cases identity
        · cases identity
          exact Option.ne_none_iff_exists'.mp fun none => (Table.get_eq_none_iff.mp none) used
      · cases hn
    obtain ⟨existing, found⟩ := known
    rw [found] at h
    simp only [bind_eq_ok] at h
    obtain ⟨replayed, -, h⟩ := h
    cases h
    rfl

/-- **One request.** What it changes on the board, the log tells. -/
theorem serveLive_recorded (node : c.env.deploymentProfile = "event_node")
    (carried : Carried c s e) :
    Recorded c e.ambient e.tournamentId s (serveLive c s e) ∧
      Local e.tournamentId s (serveLive c s e) := by
  have raised := Recorded.refl c e.ambient e.tournamentId s
  obtain ⟨t, x, user, request⟩ := e
  cases request with
  | update => exact rolledBack_cases raised fun _ _ h => updateMatchState_recorded node h
  | delete => exact rolledBack_cases raised fun _ _ h => deleteMatchState_recorded node h
  | resetAll => exact rolledBack_cases raised fun _ _ h => resetAllMatchStates_recorded node h
  | importStates upload key =>
    refine rolledBack_cases raised fun _ _ h => importMatchStates_recorded node h fun changed => ?_
    exact carried.resolve_right fun used => changed (importMatchStates_used node used h)
  | importBulk => exact rolledBack_cases raised fun _ _ h => importMatchStatesBulk_recorded node h
  | command r =>
    simp only [serveLive, submitCommand]
    split
    · exact raised
    · split
      · next resolve =>
        split
        · exact processResolveCourtCommand_recorded _ r (carried resolve)
        · exact raised
      · exact processCommand_recorded node _ r

/-! ## The live epoch -/

def liveEpoch (s : Store) (t : Uuid) : Nat :=
  ((activeAuthority s t).map TournamentAuthority.epoch).getD (nextEpoch s t)

theorem liveEpoch_congr {s : Store} (h : s'.authorities = s.authorities) (t : Uuid) :
    liveEpoch s' t = liveEpoch s t := by
  simp only [liveEpoch, activeAuthority, nextEpoch, Store.maxEpoch, h]

theorem liveEpoch_of_other {s : Store} (rows : s'.authorities.rows = s.authorities.rows ++ [a])
    (other : a.tournamentId ≠ t) :
    liveEpoch s' t = liveEpoch s t := by
  have live : s'.authorities.rows.filter (fun a => a.tournamentId = t ∧ a.state.live) =
      s.authorities.rows.filter (fun a => a.tournamentId = t ∧ a.state.live) := by
    simp [rows, List.filter_append, other]
  have mine : s'.authorities.rows.filter (fun a => a.tournamentId = t) =
      s.authorities.rows.filter (fun a => a.tournamentId = t) := by
    simp [rows, List.filter_append, other]
  simp only [liveEpoch, activeAuthority, nextEpoch, Store.maxEpoch, live, mine]

theorem activeAuthority_of_first {s : Store}
    (rows : s'.authorities.rows = s.authorities.rows ++ [a]) (live : a.state.live = true)
    (none : activeAuthority s a.tournamentId = none) :
    activeAuthority s' a.tournamentId = some a := by
  have empty : s.authorities.rows.filter
      (fun b => b.tournamentId = a.tournamentId ∧ b.state.live) = [] := by
    unfold activeAuthority at none
    rw [List.head?_eq_none_iff] at none
    exact List.perm_nil.mp (none ▸ (List.perm_insertionSort _ _).symm)
  have one : s'.authorities.rows.filter
      (fun b => b.tournamentId = a.tournamentId ∧ b.state.live) = [a] := by
    rw [rows, List.filter_append, empty, List.filter_singleton]
    simp [live]
  simp only [activeAuthority, one, List.insertionSort, List.foldr, List.orderedInsert,
    List.head?_cons]

theorem liveEpoch_of_first {s : Store} (rows : s'.authorities.rows = s.authorities.rows ++ [a])
    (tournament : a.tournamentId = t) (live : a.state.live = true)
    (none : activeAuthority s t = none) (next : a.epoch = nextEpoch s t) :
    liveEpoch s' t = liveEpoch s t := by
  subst tournament
  rw [liveEpoch, liveEpoch, none, activeAuthority_of_first rows live none]
  exact next

theorem ensureLocalAuthority_epoch {env : Env} {s : Store} {checkpoint : JsonObject}
    {token : String} {now : Timestamp}
    (h : ensureLocalAuthority env s actor t n checkpoint token now = .ok (a, s')) :
    a.epoch = liveEpoch s t ∧ ∀ t', liveEpoch s' t' = liveEpoch s t' := by
  unfold ensureLocalAuthority at h
  cases ha : activeAuthority s t with
  | some active =>
    simp only [ha, bind_eq_ok, require_eq_ok] at h
    obtain ⟨_, _, h⟩ := h
    cases h
    exact ⟨by rw [liveEpoch, ha]; rfl, fun _ => rfl⟩
  | none =>
    simp only [ha, bind_eq_ok] at h
    obtain ⟨tournament, _, device, _, grant, _, s₁, h₁, h⟩ := h
    cases h
    obtain ⟨-, u, rows, rfl⟩ := insertAuthority_eq_ok h₁
    obtain ⟨q, hq⟩ := ensureOperationSequence_eq { s with authorities := u } t (nextEpoch s t)
    rw [hq]
    refine ⟨by rw [liveEpoch, ha]; rfl, fun t' => ?_⟩
    by_cases same : t' = t
    · subst same
      exact liveEpoch_of_first rows rfl rfl ha rfl
    · exact liveEpoch_of_other rows (Ne.symm same)

theorem appendLocalOperation_epoch {env : Env} {s : Store} {inputs : AppendInputs}
    (h : appendLocalOperation env s actor t n op inputs = .ok (o, s')) :
    o.authorityEpoch = liveEpoch s t ∧ ∀ t', liveEpoch s' t' = liveEpoch s t' := by
  unfold appendLocalOperation at h
  simp only [bind_eq_ok] at h
  obtain ⟨⟨a, s₁⟩, h₁, ⟨q, s₂⟩, h₂, s₃, h₃, h⟩ := h
  obtain ⟨epoch, kept⟩ := ensureLocalAuthority_epoch h₁
  have authorities : s₂.authorities = s₁.authorities := by
    unfold allocateOperationSequence at h₂
    simp only [bind_eq_ok, found_eq_ok] at h₂
    obtain ⟨row, -, h₂⟩ := h₂
    obtain ⟨u, hu⟩ := ensureOperationSequence_eq s₁ t a.epoch
    cases h₂
    rw [hu]
  obtain ⟨u, -, rfl⟩ := insertOperation_eq_ok h₃
  split at h
  · cases h
  · simp only [Except.ok.injEq, Prod.mk.injEq] at h
    obtain ⟨rfl, rfl⟩ := h
    exact ⟨epoch, fun t' => (liveEpoch_congr authorities t').trans (kept t')⟩

/-! ## Runs -/

/-- The epoch's log is empty and what it builds on shows the board. -/
structure LiveStart (t : Uuid) (base : ProjectionData) (s : LiveStore) : Prop where
  log : acceptedOf s.sync t (liveEpoch s.sync t) = []
  next : nextSequenceOf s.sync t (liveEpoch s.sync t) = 1
  shows : Shows base (s.statusOf t)

/-- The log of the live epoch is numbered from 1 and its fold shows the board. -/
structure Faithful (c : Settings) (t : Uuid) (base : ProjectionData) (s : LiveStore) : Prop where
  numbered : (acceptedOf s.sync t (liveEpoch s.sync t)).map EventOperation.sequence =
    List.range' 1 (acceptedOf s.sync t (liveEpoch s.sync t)).length
  next : nextSequenceOf s.sync t (liveEpoch s.sync t) =
    (acceptedOf s.sync t (liveEpoch s.sync t)).length + 1
  folded : ∀ column : Timestamp → Timestamp, ∃ d, foldOperations c.env
    ((acceptedOf s.sync t (liveEpoch s.sync t)).map (EventOperation.envelope column)) base = .ok d ∧
      Shows d (s.statusOf t)

theorem LiveStart.faithful (h : LiveStart t base s) : Faithful c t base s where
  numbered := by simp [h.log]
  next := by simp [h.log, h.next]
  folded column := ⟨base, by simp [h.log], h.shows⟩

theorem Faithful.congr {s' : LiveStore} (h : Faithful c t base s)
    (epoch : liveEpoch s'.sync t = liveEpoch s.sync t)
    (log : acceptedOf s'.sync t (liveEpoch s.sync t) = acceptedOf s.sync t (liveEpoch s.sync t))
    (next : nextSequenceOf s'.sync t (liveEpoch s.sync t) =
      nextSequenceOf s.sync t (liveEpoch s.sync t)) (board : s'.statusOf t = s.statusOf t) :
    Faithful c t base s' where
  numbered := by
    rw [epoch, log]
    exact h.numbered
  next := by
    rw [epoch, log, next]
    exact h.next
  folded := by
    rw [epoch, log, board]
    exact h.folded

theorem Faithful.append {s' : LiveStore} (h : Faithful c t base s)
    (own : carriesCompetition op.commandType = false)
    (appended : appendLocalOperation c.env s.sync x.actor t n op x.inputs = .ok (o, s'.sync))
    (conveys : Conveys c.env op (s.statusOf t) (s'.statusOf t)) : Faithful c t base s' := by
  obtain ⟨epoch, kept⟩ := appendLocalOperation_epoch appended
  obtain ⟨tournament, -, -, sequence, rows, -, next⟩ := appendLocalOperation_eq_ok appended
  obtain ⟨commandType, aggregateId, payload⟩ := appendLocalOperation_records appended own
  have log : acceptedOf s'.sync t (liveEpoch s.sync t) =
      acceptedOf s.sync t (liveEpoch s.sync t) ++ [o] := by
    simp [acceptedOf, rows, List.filter_append, EventOperation.epochKey, tournament, epoch]
  refine ⟨?_, ?_, fun column => ?_⟩
  · rw [kept t, log, List.map_append, List.map_singleton, h.numbered, sequence, epoch, h.next,
      List.length_append, List.length_singleton, List.range'_concat]
    simp [Nat.add_comm]
  · rw [kept t, next, epoch, log, if_pos rfl, h.next, List.length_append, List.length_singleton]
  · obtain ⟨d, folded, shows⟩ := h.folded column
    obtain ⟨d', applied, shows'⟩ := conveys (o.envelope column) d commandType aggregateId payload shows
    refine ⟨d', ?_, shows'⟩
    rw [kept t, log, List.map_append, List.map_singleton]
    refine foldOperations_append_eq_ok folded ?_
    rw [foldOperations_cons, applied]
    rfl

theorem Faithful.other {t' : Uuid} {s' : LiveStore} (h : Faithful c t base s) (other : t ≠ t')
    (recorded : Recorded c x t' s s') (kept : Local t' s s') : Faithful c t base s' := by
  rcases recorded with ⟨sync, -⟩ | ⟨n, op, o, -, appended, -⟩
  · exact h.congr (by rw [sync]) (by rw [sync]) (by rw [sync]) (kept t other)
  · obtain ⟨-, epoch⟩ := appendLocalOperation_epoch appended
    obtain ⟨tournament, -, -, -, rows, -, next⟩ := appendLocalOperation_eq_ok appended
    refine h.congr (epoch t) ?_ ?_ (kept t other)
    · simp [acceptedOf, rows, List.filter_append, EventOperation.epochKey, tournament, Ne.symm other]
    · rw [next, if_neg (fun same => other (Prod.mk.inj same).1.symm)]
      rfl

def CarriedStep (c : Settings) (s : LiveStore) (e : LiveEvent) (s' : LiveStore) : Prop :=
  Carried c s e ∧ s' = serveLive c s e

theorem Faithful.step (node : c.env.deploymentProfile = "event_node") {s' : LiveStore}
    (h : Faithful c t base s) (step : CarriedStep c s e s') :
    Faithful c t base s' := by
  obtain ⟨carried, rfl⟩ := step
  obtain ⟨recorded, kept⟩ := serveLive_recorded node carried
  by_cases same : t = e.tournamentId
  · subst same
    rcases recorded with ⟨sync, board⟩ | ⟨n, op, o, own, appended, conveys⟩
    · exact h.congr (by rw [sync]) (by rw [sync]) (by rw [sync]) board
    · exact h.append own appended conveys
  · exact h.other same recorded kept

theorem Faithful.operationsOf (h : Faithful c t base s) :
    s.sync.operationsOf (t, liveEpoch s.sync t) =
      acceptedOf s.sync t (liveEpoch s.sync t) := by
  refine List.Pairwise.insertionSort_eq ?_
  have sorted : ((acceptedOf s.sync t (liveEpoch s.sync t)).map EventOperation.sequence).Pairwise
      (· < ·) := by
    rw [h.numbered]
    exact List.pairwise_lt_range'
  exact (List.pairwise_map.mp sorted).imp fun lt => Nat.le_of_lt lt

/-- **The log tells what the tables show.** In every run of requests that the log can tell of, the
operations of the live epoch, folded in sequence order, show the status of every match. -/
theorem log_shows_board {c : Settings} (node : c.env.deploymentProfile = "event_node") {t : Uuid}
    {base : ProjectionData} {s : LiveStore}
    (run : Reachable (LiveStart t base) (CarriedStep c) s) (column : Timestamp → Timestamp) :
    ∃ d, foldOperations c.env ((s.sync.operationsOf (t, liveEpoch s.sync t)).map
      (EventOperation.envelope column)) base = .ok d ∧ Shows d (s.statusOf t) := by
  have faithful : Faithful c t base s :=
    run.invariant (fun _ start => start.faithful) fun _ _ _ _ h step => h.step node step
  rw [faithful.operationsOf]
  exact faithful.folded column

namespace CourtsideRehearsal

open Sync.Rehearsal (eventId director)
open ImportRehearsal (settings ambient)

def first : String := "MS1-R1-M1"

theorem first_bounded : 1 ≤ first.length ∧ first.length ≤ 100 := by decide
def second : String := "MS1-R1-M2"

def crowded : LiveStore :=
  { ImportRehearsal.courtside with
    matchRows := ⟨[{ tournamentId := eventId, id := first, courtId := some 1 },
      { tournamentId := eventId, id := second, courtId := some 1 }], by decide⟩ }

def event (request : LiveRequest) : LiveEvent := ⟨eventId, ambient, some director, request⟩

def call : LiveEvent :=
  event (.update first (.version 1) { matchId := ⟨first, first_bounded⟩, status := .called })

def resolveRequest : CommandRequest where
  id := "99999999-9999-4999-8999-999999999999"
  matchId := ⟨first, first_bounded⟩
  action := .resolveCourt
  payload := some [("action", .str "keep_and_finish"), ("displacedMatchKeys", .arr [.str second])]
  seenVersion := 1

def resolve : LiveEvent := event (.command resolveRequest)

theorem crowded_start : LiveStart eventId {} crowded where
  log := by decide
  next := by decide
  shows id := by
    have rows : ∀ m ∈ crowded.matchRows.rows, m.status = .scheduled := by decide
    show some MatchStatus.scheduled = some (crowded.statusOf eventId id)
    unfold LiveStore.statusOf
    cases found : crowded.matchRows.get (eventId, id) with
    | none => rfl
    | some m => exact congrArg some (rows m (Table.mem_of_get found)).symm

end CourtsideRehearsal

open CourtsideRehearsal Sync.Rehearsal ImportRehearsal in
theorem log_shows_board_called :
    let s := serveLive settings crowded call
    s.statusOf eventId first = .called ∧
      ∃ d, foldOperations settings.env ((s.sync.operationsOf (eventId, liveEpoch s.sync eventId)).map
        (EventOperation.envelope id)) {} = .ok d ∧ Shows d (s.statusOf eventId) := by
  refine ⟨by decide +kernel, ?_⟩
  exact log_shows_board (c := settings) (t := eventId) rfl
    (.step (a := call) (.init crowded_start) ⟨trivial, rfl⟩) id

open CourtsideRehearsal Sync.Rehearsal ImportRehearsal in
/-- An accepted resolution that finishes a displaced match: the log stays empty, and its fold shows
the match as scheduled. -/
theorem resolution_missing_from_log :
    let s := serveLive settings crowded resolve
    LiveStart eventId {} crowded ∧
      ((submitCommand settings ambient eventId crowded (some director) resolveRequest).2.toOption).isSome ∧
      s.statusOf eventId second = .finished ∧
      s.sync.operationsOf (eventId, liveEpoch s.sync eventId) = [] ∧
      ¬ ∃ d, foldOperations settings.env ((s.sync.operationsOf (eventId,
        liveEpoch s.sync eventId)).map (EventOperation.envelope id)) {} = .ok d ∧
          Shows d (s.statusOf eventId) := by
  have finished : (serveLive settings crowded resolve).statusOf eventId second = .finished := by
    decide +kernel
  have empty : (serveLive settings crowded resolve).sync.operationsOf (eventId,
      liveEpoch (serveLive settings crowded resolve).sync eventId) = [] := by decide +kernel
  refine ⟨crowded_start, by decide +kernel, finished, empty, ?_⟩
  rintro ⟨d, folded, shows⟩
  rw [empty] at folded
  cases folded
  have scheduled := shows second
  rw [finished] at scheduled
  exact absurd scheduled (by decide)

end Operations
