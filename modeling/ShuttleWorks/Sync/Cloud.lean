import ShuttleWorks.Lib.Transition
import ShuttleWorks.Sync.Ingestion
import ShuttleWorks.Sync.Transfer

/-! The cloud as a state machine: one step serves one request to its end. The
authority transitions are compositions of a few moves of epoch rows. -/

namespace Sync
open Lib

/-- What a client can ask of the cloud. -/
inductive Request
  | enrollDevice (tournamentId nodeId : Uuid) (label publicKey : String) (actorId : Uuid)
  | revokeDevice (tournamentId nodeId : Uuid) (reason : String) (confirmation : Bool)
      (now : Timestamp)
  | beginCheckout (actor : Option TransitionActor) (tournamentId nodeId : Uuid)
      (schemaVersion : Nat) (checkpoint : JsonObject) (token : String)
  | markReady (tournamentId nodeId : Uuid) (authorityEpoch : Nat) (capability : String)
      (checkpointHash : String) (readyProof : Option String) (now : Timestamp)
  | returnToCloud (tournamentId nodeId : Uuid) (authorityEpoch : Nat) (capability : String)
      (r : TransitionRequest) (snapshotHash token : String) (now : Timestamp)
  | plannedTransfer (tournamentId nodeId newNodeId : Uuid) (authorityEpoch : Nat)
      (capability : String) (r : TransitionRequest) (handoffHash token : String) (now : Timestamp)
  | recoverLostNode (tournamentId newNodeId : Uuid) (authorityEpoch : Nat) (r : TransitionRequest)
      (backupSequence : Nat) (backupHash : String) (recoveryCheckpoint : JsonObject)
      (token : String) (now : Timestamp)
  | ensureLocalAuthority (actor : Option TransitionActor) (tournamentId nodeId : Uuid)
      (checkpoint : JsonObject) (token : String) (now : Timestamp)
  | upload (tournamentId : Uuid) (capability : String) (batch : SyncBatchRequest)

def committed {α : Type} (s : Store) : Except Raised (α × Store) → Store
  | .ok (_, s') => s'
  | .error _ => s

def serve (env : Env) (s : Store) : Request → Store
  | .enrollDevice t n label key actor => committed s (enrollDevice env s t n label key actor)
  | .revokeDevice t n reason confirmation now =>
    committed s (revokeDevice s t n reason confirmation now)
  | .beginCheckout actor t n version checkpoint token =>
    committed s (beginCheckout env s actor t n version checkpoint token)
  | .markReady t n e capability hash proof now =>
    committed s (markReady env s t n e capability hash proof now)
  | .returnToCloud t n e capability r hash token now =>
    committed s (returnToCloud env s t n e capability r hash token now)
  | .plannedTransfer t n n' e capability r hash token now =>
    committed s (plannedTransfer env s t n n' e capability r hash token now)
  | .recoverLostNode t n e r backup hash checkpoint token now =>
    committed s (recoverLostNode env s t n e r backup hash checkpoint token now)
  | .ensureLocalAuthority actor t n checkpoint token now =>
    committed s (ensureLocalAuthority env s actor t n checkpoint token now)
  | .upload t capability batch => (ingestBatch env s t capability batch).1

/-- A database in which no epoch was ever granted. -/
structure Store.Fresh (s : Store) : Prop where
  authorities : s.authorities.rows = []
  operations : s.operations.rows = []
  inbox : s.inbox.rows = []
  checkpoints : s.checkpoints.rows = []
  projections : s.projections.rows = []

def Serves (env : Env) (s : Store) (r : Request) (s' : Store) : Prop := serve env s r = s'

/-- The states of the cloud. -/
abbrev CloudReachable (env : Env) : Store → Prop := Reachable Store.Fresh (Serves env)

/-- What is reachable stays reachable after any further requests. -/
abbrev CloudRun (env : Env) : Store → List Request → Store → Prop := Run (Serves env)

/-! ## Moves of epoch rows -/

/-- The tables no authority transition touches. -/
structure Kept (s s' : Store) : Prop where
  operations : s'.operations = s.operations
  inbox : s'.inbox = s.inbox
  projections : s'.projections = s.projections
  quarantine : s'.quarantine = s.quarantine
  tournaments : s'.tournaments = s.tournaments

/-- An epoch row changes its state and the evidence of the change, nothing else:
a prepared epoch becomes active, a live epoch is closed or recovered. -/
def TournamentAuthority.Becomes (a a' : TournamentAuthority) : Prop :=
  ∃ ready closed reason, a' = { a with
      state := a'.state, readyAt := ready, closedAt := closed, recoveryReason := reason } ∧
    (a.state = .preparing ∧ a'.state = .active ∨
      a.state.live ∧ (a'.state = .closed ∨ a'.state = .recovered))

inductive EpochMove (s s' : Store) : Prop
  /-- A row at the next epoch; a live one only where no epoch is live. -/
  | opened (a : TournamentAuthority) (kept : Kept s s')
      (next : a.epoch = nextEpoch s a.tournamentId)
      (free : a.state.live → ∀ b ∈ s.authorities.rows,
        b.tournamentId = a.tournamentId → b.state.live = false)
      (authorities : s'.authorities.rows = s.authorities.rows ++ [a])
      (checkpoints : s'.checkpoints = s.checkpoints ∨
        s'.checkpoints.rows = s.checkpoints.rows ++ [⟨a.tournamentId, a.epoch, 0⟩])
  | moved (a a' : TournamentAuthority) (kept : Kept s s') (mem : a ∈ s.authorities.rows)
      (becomes : a.Becomes a') (authorities : s'.authorities = s.authorities.put a')
      (checkpoints : s'.checkpoints = s.checkpoints)
  | idle (kept : Kept s s') (authorities : s'.authorities = s.authorities)
      (checkpoints : s'.checkpoints = s.checkpoints)

variable {s s' : Store} {a : TournamentAuthority} {s₁ : Store} {t n : Uuid} {token : String}
  {actor : Option TransitionActor} {e : Nat} {capability hash : String} {x : TournamentAuthority}
  {r : TransitionRequest}

theorem EpochMove.kept (h : EpochMove s s') : Kept s s' := by
  cases h <;> assumption

/-- Any number of moves. -/
abbrev EpochMoves : Store → Store → Prop := Relation.ReflTransGen EpochMove

theorem insertAuthority_eq_ok {env : Env} (h : s.insertAuthority env a = .ok s') :
    (a.state.live → ∀ b ∈ s.authorities.rows,
      b.tournamentId = a.tournamentId → b.state.live = false) ∧
    ∃ u, u.rows = s.authorities.rows ++ [a] ∧ s' = { s with authorities := u } := by
  unfold Store.insertAuthority at h
  split at h
  · cases h
  · next hn =>
    cases hi : s.authorities.insert a with
    | none => simp [hi] at h
    | some u =>
      rw [hi] at h
      cases h
      refine ⟨fun hl b hb ht => ?_, u, (Table.insert_eq_some.mp hi).2, rfl⟩
      by_contra hb'
      exact hn ⟨hl, b, hb, ht, by simpa using hb'⟩

theorem insertCheckpoint_eq_ok {env : Env} {c : SyncCheckpoint}
    (h : s.insertCheckpoint env c = .ok s') :
    ∃ u, u.rows = s.checkpoints.rows ++ [c] ∧ s' = { s with checkpoints := u } := by
  unfold Store.insertCheckpoint at h
  cases hi : s.checkpoints.insert c with
  | none => simp [hi] at h
  | some u =>
    rw [hi] at h
    cases h
    exact ⟨u, (Table.insert_eq_some.mp hi).2, rfl⟩

theorem ensureOperationSequence_eq (s : Store) (tournamentId : Uuid) (epoch : Nat) :
    ∃ q, ensureOperationSequence s tournamentId epoch = { s with operationSequences := q } := by
  unfold ensureOperationSequence
  split
  · exact ⟨s.operationSequences, rfl⟩
  · exact ⟨_, rfl⟩

theorem opened_with_cursor {env : Env} {s₂ : Store} (next : a.epoch = nextEpoch s a.tournamentId)
    (h₁ : s.insertAuthority env a = .ok s₁)
    (h₂ : (ensureOperationSequence s₁ a.tournamentId a.epoch).insertCheckpoint env
      ⟨a.tournamentId, a.epoch, 0⟩ = .ok s₂) : EpochMove s s₂ := by
  obtain ⟨free, u, hu, rfl⟩ := insertAuthority_eq_ok h₁
  obtain ⟨q, hq⟩ := ensureOperationSequence_eq { s with authorities := u } a.tournamentId a.epoch
  rw [hq] at h₂
  obtain ⟨c, hc, rfl⟩ := insertCheckpoint_eq_ok h₂
  exact .opened a ⟨rfl, rfl, rfl, rfl, rfl⟩ next free hu (Or.inr hc)

theorem opened_without_cursor {env : Env} (next : a.epoch = nextEpoch s a.tournamentId)
    (h₁ : s.insertAuthority env a = .ok s₁) :
    EpochMove s s₁ := by
  obtain ⟨free, u, hu, rfl⟩ := insertAuthority_eq_ok h₁
  exact .opened a ⟨rfl, rfl, rfl, rfl, rfl⟩ next free hu (Or.inl rfl)

theorem appendTransition_move (s : Store) (t : AuthorityTransition) :
    EpochMove s (appendTransition s t) :=
  .idle ⟨rfl, rfl, rfl, rfl, rfl⟩ rfl rfl

theorem ensureOperationSequence_move (s : Store) (tournamentId : Uuid) (epoch : Nat) :
    EpochMove s (ensureOperationSequence s tournamentId epoch) := by
  obtain ⟨q, hq⟩ := ensureOperationSequence_eq s tournamentId epoch
  rw [hq]
  exact .idle ⟨rfl, rfl, rfl, rfl, rfl⟩ rfl rfl

theorem retire_move (mem : a ∈ s.authorities.rows) (live : a.state.live) {state : AuthorityState}
    (h : state = .closed ∨ state = .recovered) (now : Timestamp) (reason : Option String) :
    EpochMove s (retire s a state now reason) :=
  .moved a _ ⟨rfl, rfl, rfl, rfl, rfl⟩ mem ⟨_, _, _, rfl, Or.inr ⟨live, h⟩⟩ rfl rfl

/-! ## Each transition is a run of moves -/

theorem beginCheckout_moves {env : Env} {version : Nat} {checkpoint : JsonObject}
    {x : TournamentAuthority × String × JsonObject}
    (h : beginCheckout env s actor t n version checkpoint token = .ok (x, s')) :
    EpochMoves s s' := by
  unfold beginCheckout at h
  simp only [bind_eq_ok, require_eq_ok] at h
  obtain ⟨_, _, tournament, _, device, _, h⟩ := h
  cases ha : activeAuthority s t with
  | some active => simp [ha, alreadyGranted] at h
  | none =>
    simp only [ha, bind_eq_ok] at h
    obtain ⟨grant, _, h⟩ := h
    simp only [translateRace] at h
    split at h
    · next r hr =>
      cases h
      simp only [bind_eq_ok] at hr
      obtain ⟨s₁, h₁, s₂, h₂, h₃⟩ := hr
      cases h₃
      exact .trans (.single (opened_with_cursor rfl h₁ h₂)) (.single (appendTransition_move _ _))
    · split at h <;> simp [alreadyGranted] at h

theorem markReady_moves {env : Env} {proof : Option String} {now : Timestamp}
    (h : markReady env s t n e capability hash proof now = .ok (x, s')) :
    EpochMoves s s' := by
  unfold markReady at h
  simp only [bind_eq_ok, require_eq_ok, found_eq_ok] at h
  obtain ⟨a, ha, _, _, _, _, tournament, _, _, _, h⟩ := h
  split at h
  · cases h
    exact .refl
  · simp only [bind_eq_ok, require_eq_ok] at h
    obtain ⟨_, hp, h⟩ := h
    cases h
    exact .single (.moved a _ ⟨rfl, rfl, rfl, rfl, rfl⟩ (Table.mem_of_get ha)
      ⟨_, _, _, rfl, Or.inl ⟨hp, rfl⟩⟩ rfl rfl)

theorem requireActiveCapability_eq_ok {env : Env}
    (h : requireActiveCapability env s t e n capability = .ok a) :
    s.authorities.get (t, e) = some a ∧ a.state = .active ∧ a.nodeId = n ∧
      capabilityMatches env a capability ∧
      ∃ tournament device, getTournament s t = .ok tournament ∧
        enrolledDevice env s tournament n = .ok device := by
  unfold requireActiveCapability at h
  simp only [bind_eq_ok, require_eq_ok, found_eq_ok] at h
  obtain ⟨b, hb, _, hs, _, hn, tournament, ht, device, hd, h⟩ := h
  cases h
  exact ⟨hb, hs, hn.1, hn.2, tournament, device, ht, hd⟩

theorem cloudEpoch_move {env : Env} {now : Timestamp}
    (h : cloudEpoch env s t (nextEpoch s t) hash token now = .ok (a, s')) : EpochMove s s' := by
  unfold cloudEpoch at h
  simp only [bind_eq_ok] at h
  obtain ⟨s₁, h₁, h⟩ := h
  cases h
  exact opened_without_cursor rfl h₁

theorem preparingEpoch_move {env : Env} {x : TournamentAuthority × String}
    (h : preparingEpoch env s t (nextEpoch s t) n hash token = .ok (x, s')) : EpochMove s s' := by
  unfold preparingEpoch at h
  simp only [bind_eq_ok] at h
  obtain ⟨tournament, _, device, _, grant, _, s₁, h₁, s₂, h₂, h⟩ := h
  cases h
  exact opened_with_cursor rfl h₁ h₂

theorem returnToCloud_moves {env : Env} {now : Timestamp}
    {x : TournamentAuthority × TournamentAuthority}
    (h : returnToCloud env s t n e capability r hash token now = .ok (x, s')) :
    EpochMoves s s' := by
  unfold returnToCloud at h
  simp only [bind_eq_ok, require_eq_ok] at h
  obtain ⟨reason, _, a, ha, _, _, expected, _, _, _, ⟨cloud, s₂⟩, h₂, h⟩ := h
  cases h
  obtain ⟨hget, hactive, -⟩ := requireActiveCapability_eq_ok ha
  have live : a.state.live := by simp [hactive, AuthorityState.live]
  exact .trans (.single (retire_move (Table.mem_of_get hget) live (Or.inl rfl) _ _))
    (.trans (.single (cloudEpoch_move h₂)) (.single (appendTransition_move _ _)))

theorem plannedTransfer_moves {env : Env} {n' : Uuid} {now : Timestamp}
    {x : TournamentAuthority × TournamentAuthority × String}
    (h : plannedTransfer env s t n n' e capability r hash token now = .ok (x, s')) :
    EpochMoves s s' := by
  unfold plannedTransfer at h
  simp only [bind_eq_ok, require_eq_ok] at h
  obtain ⟨reason, _, _, _, a, ha, _, _, ⟨⟨b, cap⟩, s₂⟩, h₂, h⟩ := h
  cases h
  obtain ⟨hget, hactive, -⟩ := requireActiveCapability_eq_ok ha
  have live : a.state.live := by simp [hactive, AuthorityState.live]
  exact .trans (.single (retire_move (Table.mem_of_get hget) live (Or.inl rfl) _ _))
    (.trans (.single (preparingEpoch_move h₂)) (.single (appendTransition_move _ _)))

theorem activeAuthority_eq_some (h : activeAuthority s t = some a) :
    a ∈ s.authorities.rows ∧ a.tournamentId = t ∧ a.state.live := by
  have hm := List.mem_of_mem_head? h
  rw [List.mem_insertionSort, List.mem_filter] at hm
  simpa using hm

theorem recoverLostNode_moves {env : Env} {backup : Nat} {checkpoint : JsonObject} {now : Timestamp}
    {x : TournamentAuthority × TournamentAuthority × String}
    (h : recoverLostNode env s t n e r backup hash checkpoint token now = .ok (x, s')) :
    EpochMoves s s' := by
  unfold recoverLostNode at h
  simp only [bind_eq_ok, require_eq_ok, found_eq_ok] at h
  obtain ⟨reason, _, _, _, a, ha, _, _, _, _, _, _, _, _, _, _, t', _, _, _, h⟩ := h
  split at h
  · simp only [bind_eq_ok, require_eq_ok] at h
    obtain ⟨_, _, _, _, ⟨⟨b, cap⟩, s₂⟩, h₂, h⟩ := h
    cases h
    obtain ⟨mem, -, live⟩ := activeAuthority_eq_some ha
    exact .trans (.single (retire_move mem live (Or.inr rfl) _ _))
      (.trans (.single (preparingEpoch_move h₂)) (.single (appendTransition_move _ _)))
  · simp at h

theorem ensureLocalAuthority_moves {env : Env} {checkpoint : JsonObject} {now : Timestamp}
    (h : ensureLocalAuthority env s actor t n checkpoint token now = .ok (x, s')) :
    EpochMoves s s' := by
  unfold ensureLocalAuthority at h
  cases ha : activeAuthority s t with
  | some active =>
    simp only [ha, bind_eq_ok, require_eq_ok] at h
    obtain ⟨_, _, h⟩ := h
    cases h
    exact .refl
  | none =>
    simp only [ha, bind_eq_ok] at h
    obtain ⟨tournament, _, device, _, grant, _, s₁, h₁, h⟩ := h
    cases h
    exact .trans (.single (opened_without_cursor rfl h₁))
      (.trans (.single (ensureOperationSequence_move _ _ _)) (.single (appendTransition_move _ _)))

theorem committed_moves {α : Type} {r : Except Raised (α × Store)}
    (h : ∀ x s', r = .ok (x, s') → EpochMoves s s') : EpochMoves s (committed s r) := by
  match r, h with
  | .ok (x, s'), h => exact h x s' rfl
  | .error _, _ => exact .refl

theorem serve_moves (env : Env) (s : Store) (r : Request)
    (hr : ∀ t capability batch, r ≠ .upload t capability batch) : EpochMoves s (serve env s r) := by
  cases r with
  | upload t capability batch => exact absurd rfl (hr t capability batch)
  | enrollDevice t n label key actor =>
    refine committed_moves fun x s' h => .single ?_
    unfold enrollDevice at h
    simp only [bind_eq_ok, require_eq_ok] at h
    obtain ⟨_, _, _, _, _, _, _, _, _, _, h⟩ := h
    cases h
    exact .idle ⟨rfl, rfl, rfl, rfl, rfl⟩ rfl rfl
  | revokeDevice t n reason confirmation now =>
    refine committed_moves fun x s' h => .single ?_
    unfold revokeDevice at h
    simp only [bind_eq_ok] at h
    obtain ⟨_, _, h⟩ := h
    split at h
    · simp only [bind_eq_ok, require_eq_ok] at h
      obtain ⟨_, _, h⟩ := h
      split at h <;> cases h <;> exact .idle ⟨rfl, rfl, rfl, rfl, rfl⟩ rfl rfl
    · simp at h
  | beginCheckout => exact committed_moves fun x s' h => beginCheckout_moves h
  | markReady => exact committed_moves fun x s' h => markReady_moves h
  | returnToCloud => exact committed_moves fun x s' h => returnToCloud_moves h
  | plannedTransfer => exact committed_moves fun x s' h => plannedTransfer_moves h
  | recoverLostNode => exact committed_moves fun x s' h => recoverLostNode_moves h
  | ensureLocalAuthority => exact committed_moves fun x s' h => ensureLocalAuthority_moves h

/-! ## A rehearsal

One event, a laptop that checks it out, and a spare that takes over. -/

namespace Rehearsal

def eventId : Uuid := "11111111-1111-4111-8111-111111111111"
def laptop : Uuid := "22222222-2222-4222-8222-222222222222"
def spare : Uuid := "33333333-3333-4333-8333-333333333333"
def director : Uuid := "44444444-4444-4444-8444-444444444444"

def laptopCapability : String := "venue-laptop-capability-0123456789abcdef"
def spareCapability : String := "spare-laptop-capability-0123456789abcdef"
def now : Timestamp := "2026-05-02T09:00:00+00:00"

def env : Env where
  environment := "local"
  deploymentProfile := "local"
  sha256 text :=
    if text = laptopCapability then
      ⟨"5af9f8145c9c0e8555b23995b8a8c32e536196e415d4c60f1d4e4af9d99cf63c", by decide +kernel⟩
    else if text = spareCapability then
      ⟨"051241f05bb5e591105c7c9f2ac425a778bfc7ec65393417bdd43c8acd2efce4", by decide +kernel⟩
    else ⟨"e3b0c44298fc1c149afbf4c8996fb92427ae41e4649b934ca495991b7852b855", by decide +kernel⟩
  privateSigningKey := .ok ⟨"bootstrap", id⟩
  publicKeyFingerprint := .ok
  verifies _ _ _ := true
  reprContainer _ := "{}"
  uniqueViolation := id

theorem hosted : ([⟨eventId, none⟩].map Tournament.id).Nodup := by decide

def venue : Store := { tournaments := ⟨[⟨eventId, none⟩], hosted⟩ }

def checkpoint : JsonObject :=
  [("checkpointSchemaVersion", .int 1), ("tournamentId", .str eventId), ("stateVersion", .int 0),
    ("normalized", .obj (checkpointCollections.map (fun c => (c, .arr []))))]

def handoffHash : String := checkpointDigest env checkpoint

def operation (node : Uuid) (epoch sequence : Nat) (id : Uuid) (payload : JsonObject) :
    OperationEnvelope where
  operationId := id
  eventId := eventId
  nodeId := node
  authorityEpoch := epoch
  sequence := sequence
  actorId := director
  commandType := "match.command.v1"
  aggregateType := "match"
  aggregateId := "MS1-R1-M1"
  expectedVersion := none
  payload := payload
  occurredAtLocal := now
  acceptedAtNode := now
  traceparent := none
  schemaVersion := 1

def call : OperationEnvelope :=
  operation laptop 1 1 "55555555-5555-4555-8555-555555555555" [("status", .str "called")]

def start : OperationEnvelope :=
  operation laptop 1 2 "66666666-6666-4666-8666-666666666666" [("status", .str "playing")]

def batch (node : Uuid) (epoch : Nat) (operations : List OperationEnvelope)
    (epoch_pos : 1 ≤ epoch) (length : 1 ≤ operations.length ∧ operations.length ≤ 250)
    (wellFormed : ∀ o ∈ operations, o.WellFormed) : SyncBatchRequest :=
  ⟨node, epoch, operations, epoch_pos, length, wellFormed⟩

def firstUpload : SyncBatchRequest :=
  batch laptop 1 [call] Nat.one_pos (by decide) (by decide)

def upload : SyncBatchRequest :=
  batch laptop 1 [call, start] Nat.one_pos (by decide) (by decide)

def checkedOut : List Request :=
  [.beginCheckout none eventId laptop 1 checkpoint laptopCapability,
    .markReady eventId laptop 1 laptopCapability handoffHash none now]

def handedOver (declared : Nat) : List Request :=
  [.plannedTransfer eventId laptop spare 1 laptopCapability
      ⟨director, laptop, "Battery", declared, true⟩ handoffHash spareCapability now,
    .markReady eventId spare 2 spareCapability handoffHash none now]

def after (requests : List Request) : Store := requests.foldl (serve env) venue

def uploads : List Request :=
  [.upload eventId laptopCapability firstUpload, .upload eventId laptopCapability upload]

def uploaded : Store := after (checkedOut ++ uploads)

def afterHandover : Store := after (checkedOut ++ uploads ++ handedOver 2)

theorem foldl_reachable {env : Env} (h : CloudReachable env s) (requests : List Request) :
    CloudReachable env (requests.foldl (serve env) s) := by
  induction requests generalizing s with
  | nil => exact h
  | cons r rs ih => exact ih (.step h rfl)

theorem after_reachable (requests : List Request) : CloudReachable env (after requests) :=
  foldl_reachable (.init ⟨rfl, rfl, rfl, rfl, rfl⟩) requests

end Rehearsal

end Sync
