import ShuttleWorks.Console.Addressing
import ShuttleWorks.Operations.Idempotency

/-! The command queue of one tournament against its server: presses, flushes and reconnect drains
on one side, `process_command` on the other, requests and answers lost or late in between. -/

namespace Console
open Lib Sync Operations

/-! ## The server's side -/

/-- What is constant in a run: the server's settings, the tournament and the operator. -/
structure Desk where
  settings : Settings
  tid : Uuid
  user : Uuid

def CommandRequestBody.parse (body : CommandRequestBody) : Option CommandRequest :=
  if h : 1 ≤ body.matchId.length ∧ body.matchId.length ≤ 100 then
    some ⟨body.id, ⟨body.matchId, h⟩, body.action, some body.payload, body.seenVersion⟩
  else none

/-- The answer of the server as `apiClient.submitCommand` classifies it. -/
def submitResult : Except LiveError ProcessedCommand → SubmitResult CommandOk
  | .ok p => .ok ⟨p.matchRow.status, p.matchRow.version, p.matchRow.courtId, p.matchRow.timeSlot⟩
  | .error (.conflict e) =>
    if e.currentVersion.isSome ∨ e.seenVersion.isSome then .staleVersion e.message
    else .conflict e.message
  | .error _ => .networkError "submit failed"

/-- The server processes a request at the moment `x`. -/
def Desk.serve (d : Desk) (x : Ambient) (s : LiveStore) (r : Uuid × CommandRequestBody) :
    LiveStore × Except LiveError ProcessedCommand :=
  match r.2.parse with
  | none => (s, .error (.http 422 "VALIDATION_ERROR" "match_id"))
  | some request => submitCommand d.settings x r.1 s (some d.user) request

/-- What an accepted command makes of the match rows; `none` when a check refuses it. -/
def Desk.effect (d : Desk) (x : Ambient) (s : LiveStore) (r : CommandRequest) : Option LiveStore :=
  if r.action = .resolveCourt then
    if payloadTruthy r "displacedMatchKeys" ∧ payloadTruthy r "action" then
      match validateResolution d.tid r s with
      | .ok (_, action, keys) => (keys.foldlM (displace x d.tid action) s).toOption
      | .error _ => none
    else none
  else
    match validateCommand d.tid r s with
    | .ok m =>
      (applyCommandMutation r m).toOption.map
        (fun m => { s with matchRows := s.matchRows.put m })
    | .error _ => none

/-! ## The console and the network -/

/-- A press: what the operator does, and what a cold read of the version gives (`none` when it
throws). -/
structure Press where
  id : Uuid
  matchId : String
  action : MatchAction
  payload : JsonObject
  createdAt : Nat
  coldRead : Option Nat
  ambient : Ambient

/-- A command as it was issued, and the state that it and the commands before it lead to. -/
structure Issued where
  command : QueuedCommand
  after : LiveStore

/-- Where the first `k` issued commands lead when they are applied in order. -/
def goalAt (first : LiveStore) (issued : List Issued) : Nat → LiveStore
  | 0 => first
  | k + 1 => (issued[k]?.map Issued.after).getD first

structure World where
  lane : Lane CommandBody CommandOk
  /-- `canonicalVersionsByMatchId`. -/
  versions : List (String × Nat) := []
  server : LiveStore
  /-- Answers the server gave, each to a command id. -/
  answers : List (Uuid × SubmitResult CommandOk) := []
  /-- The commands issued, oldest first, and the ids in the order the server applied them. -/
  issued : List Issued := []
  applied : List Uuid := []

def World.goal (w : World) (first : LiveStore) : LiveStore :=
  goalAt first w.issued w.issued.length

def World.seenVersion (w : World) (p : Press) : Nat :=
  match Assoc.get p.matchId w.versions with
  | some version => version
  | none => p.coldRead.getD 0

def World.command (w : World) (d : Desk) (p : Press) : QueuedCommand where
  id := p.id
  tournamentId := d.tid
  matchId := p.matchId
  seenVersion := w.seenVersion p
  createdAt := p.createdAt
  body := ⟨p.action, p.payload⟩

inductive WorldMove
  | press (p : Press)
  | flush
  | send (i : Nat)
  /-- The server processes the `n`-th request made, whether or not its answer arrives. -/
  | deliver (n : Nat) (x : Ambient)
  /-- A flush receives the `n`-th answer given. -/
  | receive (i n : Nat)
  | fail (i : Nat)
  | close (i : Nat)
  /-- The press behind a flush handles its outcome; a refetch may give the version. -/
  | finish (i : Nat) (id : Uuid) (matchId : String) (refetched : Option Nat)
  | reload

/-- The version cache after the outcome of a press. -/
def settleVersion (versions : List (String × Nat)) (matchId : String) (refetched : Option Nat) :
    Option (SubmitResult CommandOk) → List (String × Nat)
  | some (.ok r) => Assoc.set matchId r.matchVersion versions
  | some (.staleVersion _) | some (.conflict _) =>
    match refetched with
    | some version => Assoc.set matchId version versions
    | none => versions
  | _ => versions

def World.step (d : Desk) (first : LiveStore) (w : World) : WorldMove → World
  | .press p =>
    let command := w.command d p
    let goal := w.goal first
    let request := (submitFn d.tid { command with seenVersion := goal.versionOf d.tid p.matchId }).2
    { w with
      lane := w.lane.step (.press d.tid command)
      versions := Assoc.set p.matchId command.seenVersion w.versions
      issued := w.issued ++
        [⟨command, (request.parse.bind (d.effect p.ambient goal)).getD goal⟩] }
  | .flush => { w with lane := w.lane.step (.flush d.tid) }
  | .send i => { w with lane := w.lane.step (.send i) }
  | .deliver n x =>
    match w.lane.requests[n]? with
    | none => w
    | some (tid, command) =>
      let (server, answer) := d.serve x w.server (submitFn tid command)
      { w with
        server := server
        answers := w.answers ++ [(command.id, submitResult answer)]
        applied := match answer with
          | .ok ⟨_, _, false⟩ => w.applied ++ [command.id]
          | _ => w.applied }
  | .receive i n =>
    match w.lane.flushes[i]?, w.answers[n]? with
    | some ⟨_, _, some command, _⟩, some (id, result) =>
      if id = command.id then { w with lane := w.lane.step (.settle i result) } else w
    | _, _ => w
  | .fail i => { w with lane := w.lane.step (.settle i (.networkError "Network Error")) }
  | .close i => { w with lane := w.lane.step (.close i) }
  | .finish i id matchId refetched =>
    match w.lane.flushes[i]? with
    | some ⟨_, [], none, outcomes⟩ =>
      { w with
        lane := w.lane.step (.close i)
        versions := settleVersion w.versions matchId refetched (Assoc.get id outcomes) }
    | _ => w
  | .reload => { w with versions := [] }

/-- A press is legal: a new id, and an action the checks accept in the state that the commands before
it lead to. -/
def World.Legal (d : Desk) (first : LiveStore) (w : World) : WorldMove → Prop
  | .press p =>
    let goal := w.goal first
    let request := (submitFn d.tid
      { w.command d p with seenVersion := goal.versionOf d.tid p.matchId }).2
    w.server.commands.get p.id = none ∧ (∀ e ∈ w.issued, e.command.id ≠ p.id) ∧
      (request.parse.bind (d.effect p.ambient goal)).isSome
  | _ => True

/-- The command at `i` is sent when no command issued before it is pending. -/
def World.InOrder (w : World) (id : Uuid) : Prop :=
  ∀ e ∈ w.issued.takeWhile (fun e => e.command.id ≠ id),
    ∀ row ∈ w.lane.rows.get e.command.id, row.status ≠ .pending

/-- A press is stamped with the version that the commands before it lead to, and no flush goes on
past a command that is still pending. -/
def World.Orderly (d : Desk) (first : LiveStore) (w : World) : WorldMove → Prop
  | .press p => w.seenVersion p = (w.goal first).versionOf d.tid p.matchId
  | .send i =>
    ∀ f ∈ w.lane.flushes[i]?, ∀ command ∈ f.todo.head?, f.awaiting = none → w.InOrder command.id
  | _ => True

instance (d : Desk) (first : LiveStore) (w : World) (m : WorldMove) : Decidable (w.Legal d first m) :=
  match m with
  | .press _ => inferInstanceAs (Decidable (_ ∧ _ ∧ _))
  | .flush | .send _ | .deliver .. | .receive .. | .fail _ | .close _ | .finish .. | .reload =>
    .isTrue trivial

instance (w : World) (id : Uuid) : Decidable (w.InOrder id) :=
  inferInstanceAs (Decidable (∀ e ∈ w.issued.takeWhile (fun e => e.command.id ≠ id),
    ∀ row ∈ w.lane.rows.get e.command.id, row.status ≠ .pending))

instance (d : Desk) (first : LiveStore) (w : World) (m : WorldMove) :
    Decidable (w.Orderly d first m) :=
  match m with
  | .press p =>
    inferInstanceAs (Decidable (w.seenVersion p = (w.goal first).versionOf d.tid p.matchId))
  | .send i => inferInstanceAs (Decidable (∀ f ∈ w.lane.flushes[i]?, ∀ command ∈ f.todo.head?,
      f.awaiting = none → w.InOrder command.id))
  | .flush | .deliver .. | .receive .. | .fail _ | .close _ | .finish .. | .reload =>
    .isTrue trivial

/-! ## The checks read the match rows and the documents -/

/-- The stores agree on what the checks of a command read. -/
structure SameRows (s s' : LiveStore) : Prop where
  rows : s.matchRows = s'.matchRows
  documents : s.documents = s'.documents

variable {x : Ambient} {action : ResolutionAction} {s₁ : LiveStore} {m : Match}

section
variable {t : Uuid} {r : CommandRequest} {s s' : LiveStore} {u : Uuid} {c : Settings}

theorem validateCommand_congr (h : SameRows s s') :
    validateCommand t r s = validateCommand t r s' := by
  obtain ⟨rows, documents⟩ := h
  cases s
  cases s'
  cases rows
  cases documents
  rfl

theorem validateResolution_congr (h : SameRows s s') :
    validateResolution t r s = validateResolution t r s' := by
  simp only [validateResolution, h.rows]

theorem displace_congr (x' : Ambient) {key : Json} (h : SameRows s s')
    (done : displace x t action s key = .ok s₁) :
    ∃ s₂, displace x' t action s' key = .ok s₂ ∧ SameRows s₁ s₂ := by
  cases key with
  | str id =>
    simp only [displace, ← h.rows] at done ⊢
    split at done
    · cases done
      exact ⟨s', rfl, h⟩
    · cases done
      exact ⟨_, rfl, ⟨rfl, h.documents⟩⟩
  | arr => cases done
  | obj => cases done
  | null | bool | int | float =>
    cases done
    exact ⟨s', rfl, h⟩

theorem foldlM_displace_congr (x' : Ambient) {keys : List Json} (h : SameRows s s')
    (done : keys.foldlM (displace x t action) s = .ok s₁) :
    ∃ s₂, keys.foldlM (displace x' t action) s' = .ok s₂ ∧ SameRows s₁ s₂ := by
  induction keys generalizing s s' with
  | nil =>
    cases done
    exact ⟨s', rfl, h⟩
  | cons key keys ih =>
    rw [List.foldlM_cons, bind_eq_ok] at done
    obtain ⟨mid, head, rest⟩ := done
    obtain ⟨mid', head', same⟩ := displace_congr x' h head
    obtain ⟨s₂, rest', same'⟩ := ih same rest
    exact ⟨s₂, by rw [List.foldlM_cons, head']; exact rest', same'⟩

/-! ## Applying a command -/

theorem putCommand_cases (c : Settings) (s : LiveStore) (row : Command) :
    putCommand c s row = .ok { s with commands := s.commands.put row } ∨
      ∃ e, putCommand c s row = .error (.sync e) := by
  unfold putCommand
  split
  · exact .inl rfl
  · exact .inr ⟨_, rfl⟩

theorem appendIfEventNode_cases (c : Settings) (s : LiveStore) (x : Ambient) (t : Uuid)
    (op : LocalOperation) (what : String) :
    (∃ sync, appendIfEventNode c s x t op what = .ok { s with sync := sync }) ∨
      ∃ e, appendIfEventNode c s x t op what = .error e ∧ ∀ k, e ≠ .conflict k := by
  unfold appendIfEventNode
  cases node : eventNodeId c what with
  | error e =>
    refine .inr ⟨e, rfl, fun k same => ?_⟩
    subst same
    unfold eventNodeId at node
    split at node
    · cases node
    · split at node <;> cases node
  | ok nodeId =>
    cases nodeId with
    | none => exact .inl ⟨s.sync, rfl⟩
    | some nodeId =>
      simp only [ok_bind]
      split
      · exact .inl ⟨_, rfl⟩
      · exact .inr ⟨_, rfl, nofun⟩

/-- The outcome of a fresh command that passes its checks: applied, with the rows `s₁` says, or
failed without a conflict. -/
inductive Accepted (r : CommandRequest) (s s₁ : LiveStore) :
    LiveStore × Except LiveError ProcessedCommand → Prop
  | applied {p : ProcessedCommand} {s₂ : LiveStore} {row : Command} : p.isReplay = false →
      SameRows s₁ s₂ → row.id = r.id → row.appliedAt ≠ none →
      s₂.commands = s.commands.put row → Accepted r s s₁ (s₂, .ok p)
  | failed {e : LiveError} : (∀ k, e ≠ .conflict k) → Accepted r s s₁ (s, .error e)

theorem appliedCommand_appliedAt {existing : Option Command} :
    (appliedCommand x t u r existing).appliedAt ≠ none := nofun

theorem appliedCommand_id :
    (appliedCommand x t u r (s.commands.get r.id)).id = r.id :=
  commandRow_id

theorem applyCommandTo_accepted {m' : Match} (mutated : applyCommandMutation r m = .ok m')
    (same : SameRows s₁ { s with matchRows := s.matchRows.put m' }) :
    Accepted r s s₁ (committedCommand s (applyCommandTo c x t u r s (s.commands.get r.id) m)) := by
  unfold applyCommandTo
  simp only [mutated, ok_bind]
  rcases putCommand_cases c ({ s with matchRows := s.matchRows.put m' }.mirrorCommandState t
    r.matchId.val r.action.targetStatus x.inputs.now)
      (appliedCommand x t u r (s.commands.get r.id)) with stored | ⟨e, stored⟩
  · rw [stored, ok_bind]
    rcases appendIfEventNode_cases c _ x t (commandOperation u r m') "commands" with
      ⟨sync, appended⟩ | ⟨e, appended, failed⟩
    · rw [appended, ok_bind]
      exact .applied rfl ⟨same.rows, same.documents⟩
        appliedCommand_id appliedCommand_appliedAt rfl
    · rw [appended]
      exact .failed failed
  · rw [stored]
    exact .failed nofun

theorem applyResolution_accepted {chosen : Match} {keys : List Json} {s₂ : LiveStore}
    (displaced : keys.foldlM (displace x t action) s = .ok s₂) (same : SameRows s₁ s₂) :
    Accepted r s s₁
      (committedCommand s (applyResolution c x t u r s (s.commands.get r.id) chosen action keys)) := by
  have kept : s₂.commands = s.commands := foldlM_displace_commands displaced
  unfold applyResolution displaceAll
  simp only [displaced, ok_bind]
  by_cases once : (firstStates t s keys).Nodup
  case neg =>
    rw [if_neg once]
    exact .failed nofun
  rw [if_pos once, ok_bind]
  rcases putCommand_cases c s₂ (appliedCommand x t u r (s.commands.get r.id)) with
    stored | ⟨e, stored⟩
  · rw [stored, ok_bind]
    exact .applied rfl ⟨same.rows, same.documents⟩
      appliedCommand_id appliedCommand_appliedAt (by rw [kept])
  · rw [stored]
    exact .failed nofun

end

/-- A command the checks accept on `s` is accepted wherever the rows are the same and its id is
new. -/
theorem Desk.effect_accepted (d : Desk) {x' : Ambient} {s s' : LiveStore} {r : CommandRequest}
    (effect : d.effect x s r = some s₁) (same : SameRows s s')
    (fresh : s'.commands.get r.id = none) :
    Accepted r s' s₁ (submitCommand d.settings x' d.tid s' (some d.user) r) := by
  unfold Desk.effect at effect
  unfold submitCommand
  dsimp only
  split at effect
  · next resolve =>
    rw [if_pos resolve]
    split at effect
    · next shaped =>
      rw [if_pos shaped]
      split at effect
      · next chosen action keys valid =>
        cases displaced : keys.foldlM (displace x d.tid action) s with
        | error e =>
          rw [displaced] at effect
          cases effect
        | ok s₁' =>
          rw [displaced] at effect
          cases effect
          obtain ⟨s₂, displaced', same'⟩ := foldlM_displace_congr x' same displaced
          unfold processResolveCourtCommand
          rw [validateResolution_congr same] at valid
          simp only [fresh, replayExistingCommand, valid]
          have accepted : Accepted r s' s₁ (committedCommand s' (applyResolution d.settings x'
              d.tid d.user r s' (s'.commands.get r.id) chosen action keys)) :=
            applyResolution_accepted displaced' same'
          rwa [fresh] at accepted
      · cases effect
    · cases effect
  · next other =>
    rw [if_neg other]
    split at effect
    · next m valid =>
      cases mutated : applyCommandMutation r m with
      | error e =>
        rw [mutated] at effect
        cases effect
      | ok m' =>
        rw [mutated] at effect
        cases effect
        unfold processCommand
        rw [validateCommand_congr same] at valid
        simp only [fresh, replayExistingCommand, valid]
        have accepted : Accepted r s' { s with matchRows := s.matchRows.put m' }
            (committedCommand s' (applyCommandTo d.settings x' d.tid d.user r s'
              (s'.commands.get r.id) m)) :=
          applyCommandTo_accepted mutated ⟨by rw [same.rows], same.documents⟩
        rwa [fresh] at accepted
    · cases effect

theorem Desk.replayed (d : Desk) {s : LiveStore} {r : CommandRequest} {row : Command}
    (stored : s.commands.get r.id = some row) (applied : row.appliedAt ≠ none)
    (found : s.matchRows.get (d.tid, r.matchId.val) = some m) (shaped : r.action = .resolveCourt →
      payloadTruthy r "displacedMatchKeys" ∧ payloadTruthy r "action") :
    submitCommand d.settings x d.tid s (some d.user) r = (s, .ok ⟨m, row, true⟩) := by
  have replay : replayExistingCommand d.tid r s (some row) = some (.ok ⟨m, row, true⟩) := by
    rw [replayExistingCommand, if_pos applied, found]
  unfold submitCommand
  dsimp only
  split
  · next resolve =>
    rw [if_pos (shaped resolve)]
    unfold processResolveCourtCommand
    simp only [stored, replay]
  · unfold processCommand
    simp only [stored, replay]

def HasMatch (s : LiveStore) (t : Uuid) (id : String) : Prop := ∃ m, s.matchRows.get (t, id) = some m

theorem hasMatch_put {s : LiveStore} {t : Uuid} {id : String} (h : HasMatch s t id) (m : Match) :
    HasMatch { s with matchRows := s.matchRows.put m } t id := by
  obtain ⟨m', found⟩ := h
  by_cases same : m.key = (t, id)
  · exact ⟨m, by rw [Table.get_put, if_pos same]⟩
  · exact ⟨m', by rw [Table.get_put, if_neg same, found]⟩

theorem displace_hasMatch {t : Uuid} {key : Json} {s s' : LiveStore} {t' : Uuid} {id : String}
    (h : HasMatch s t' id) (done : displace x t action s key = .ok s') : HasMatch s' t' id := by
  unfold displace at done
  split at done
  · split at done
    · cases done
      exact h
    · cases done
      exact hasMatch_put h _
  · cases done
  · cases done
  · cases done
    exact h

theorem Desk.effect_spec {d : Desk} {s : LiveStore} {r : CommandRequest}
    (effect : d.effect x s r = some s₁) :
    HasMatch s d.tid r.matchId.val ∧ (∀ id, HasMatch s d.tid id → HasMatch s₁ d.tid id) ∧
      (r.action = .resolveCourt →
        payloadTruthy r "displacedMatchKeys" ∧ payloadTruthy r "action") := by
  unfold Desk.effect at effect
  split at effect
  · split at effect
    · next shaped =>
      split at effect
      · next chosen action keys valid =>
        unfold validateResolution at valid
        simp only [bind_eq_ok] at valid
        obtain ⟨m, checked, -⟩ := valid
        cases displaced : keys.foldlM (displace x d.tid action) s with
        | error e =>
          rw [displaced] at effect
          cases effect
        | ok s' =>
          rw [displaced] at effect
          cases effect
          refine ⟨⟨m, validateCommandMatch_eq_ok checked⟩, fun id h => ?_, fun _ => shaped⟩
          exact foldlM_keeps (I := fun s => HasMatch s d.tid id)
            (fun _ _ _ => displace_hasMatch) h displaced
      · cases effect
    · cases effect
  · next other =>
    split at effect
    · next m valid =>
      obtain ⟨m', -, rfl⟩ := Option.map_eq_some_iff.mp effect
      exact ⟨⟨m, validateCommand_eq_ok valid⟩, fun id h => hasMatch_put h m',
        fun resolve => absurd resolve other⟩
    · cases effect

end Console
