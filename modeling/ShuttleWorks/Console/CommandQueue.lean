import ShuttleWorks.Operations.Commands

/-! The console's two persistent queues of operator commands and their flushes. A queue is one
browser-wide store; a flush sends what was pending when it began, one command at a time, on behalf
of the page that started it. -/

namespace Console
open Lib Sync Operations

/-! ## Stored commands -/

inductive CommandStatus
  | pending
  | applied
  | rejected
  | conflict
  deriving DecidableEq

/-- The columns both queues share, around a body of their own. -/
structure Queued (β : Type) where
  id : Uuid
  tournamentId : Uuid
  matchId : String
  seenVersion : Nat
  /-- `Date.now()` of the press; the order of a flush. -/
  createdAt : Nat
  attempts : Nat := 0
  status : CommandStatus := .pending
  rejectionReason : Option String := none
  body : β
  deriving DecidableEq

structure CommandBody where
  action : MatchAction
  payload : JsonObject
  deriving DecidableEq

abbrev QueuedCommand := Queued CommandBody

inductive WinnerSide
  | a
  | b
  deriving DecidableEq

inductive ResultReason
  | walkover
  | retired
  | forfeit
  deriving DecidableEq

structure BracketResultBody where
  correction : Bool := false
  winnerSide : WinnerSide
  finishedAtSlot : Option Int := none
  walkover : Bool := false
  reason : Option ResultReason := none
  score : Option JsonObject := none
  deriving DecidableEq

abbrev BracketResultCommand := Queued BracketResultBody

/-- What a 200 says of the match after a command. -/
structure CommandOk where
  matchStatus : MatchStatus
  matchVersion : Nat
  courtId : Option Int
  timeSlot : Option Int
  deriving DecidableEq

/-- A server answer; `ρ` is what a 200 carries. -/
inductive SubmitResult (ρ : Type)
  | ok (response : ρ)
  | staleVersion (message : String)
  | conflict (message : String)
  | networkError (message : String)
  deriving DecidableEq

/-! ## The store -/

section
variable {β ρ : Type}

abbrev CommandStore (β : Type) := Table (Queued.id (β := β))

def enqueue (rows : CommandStore β) (command : Queued β) : CommandStore β :=
  if rows.Has command.id then rows else rows.put command

def getAll (rows : CommandStore β) : List (Queued β) :=
  rows.rows.insertionSort (fun a b => a.id ≤ b.id)

def getPending (rows : CommandStore β) : List (Queued β) :=
  ((getAll rows).filter (fun c => c.status = .pending)).insertionSort
    (fun a b => a.createdAt ≤ b.createdAt)

def rewrite (rows : CommandStore β) (id : Uuid) (f : Queued β → Queued β) : CommandStore β :=
  match rows.get id with
  | none => rows
  | some row => rows.put { f row with id := id }

def markApplied (rows : CommandStore β) (id : Uuid) : CommandStore β :=
  rewrite rows id (fun row => { row with status := .applied })

def markRejected (rows : CommandStore β) (id : Uuid) (status : CommandStatus) (reason : String) :
    CommandStore β :=
  rewrite rows id (fun row => { row with status := status, rejectionReason := some reason })

def markRetryable (rows : CommandStore β) (id : Uuid) : CommandStore β :=
  rewrite rows id (fun row => { row with attempts := row.attempts + 1 })

/-- What a flush writes for the answer it got. -/
def markResult (rows : CommandStore β) (id : Uuid) : SubmitResult ρ → CommandStore β
  | .ok _ => markApplied rows id
  | .staleVersion message => markRejected rows id .rejected message
  | .conflict message => markRejected rows id .conflict message
  | .networkError _ => markRetryable rows id

/-! ## Flushes -/

/-- A flush under way: the workspace of the page that started it, what is left to send and the
command it waits for. -/
structure Flush (β ρ : Type) where
  tid : Uuid
  todo : List (Queued β)
  awaiting : Option (Queued β) := none
  outcomes : List (Uuid × SubmitResult ρ) := []
  deriving DecidableEq

/-- One queue, the flushes under way on it and the requests they made, each with the tournament it
was addressed to. -/
structure Lane (β ρ : Type) where
  rows : CommandStore β
  flushes : List (Flush β ρ) := []
  requests : List (Uuid × Queued β) := []

inductive LaneMove (β ρ : Type)
  /-- An operator's press in the workspace `tid`. -/
  | press (tid : Uuid) (command : Queued β)
  /-- A flush by a page of the workspace `tid`: after a press, on load, on `online`. -/
  | flush (tid : Uuid)
  | send (i : Nat)
  | settle (i : Nat) (result : SubmitResult ρ)
  /-- The page of a flush goes away. -/
  | close (i : Nat)

/-- The row a press stores: the page's workspace, pending, not tried yet. -/
def pressed (tid : Uuid) (command : Queued β) : Queued β :=
  { command with tournamentId := tid, attempts := 0, status := .pending, rejectionReason := none }

def Lane.step (lane : Lane β ρ) : LaneMove β ρ → Lane β ρ
  | .press tid command => { lane with rows := enqueue lane.rows (pressed tid command) }
  | .flush tid => { lane with flushes := lane.flushes ++ [⟨tid, getPending lane.rows, none, []⟩] }
  | .send i =>
    match lane.flushes[i]? with
    | some ⟨tid, command :: todo, none, outcomes⟩ =>
      { lane with
        flushes := lane.flushes.set i ⟨tid, todo, some command, outcomes⟩
        requests := lane.requests ++ [(tid, command)] }
    | _ => lane
  | .settle i result =>
    match lane.flushes[i]? with
    | some ⟨tid, todo, some command, outcomes⟩ =>
      { lane with
        rows := markResult lane.rows command.id result
        flushes := lane.flushes.set i ⟨tid, todo, none, outcomes ++ [(command.id, result)]⟩ }
    | _ => lane
  | .close i => { lane with flushes := lane.flushes.eraseIdx i }

/-! ## Rows and flushes -/

theorem mem_getPending {rows : CommandStore β} {c : Queued β} :
    c ∈ getPending rows ↔ c ∈ rows.rows ∧ c.status = .pending := by
  simp [getPending, getAll]

theorem get_rewrite (rows : CommandStore β) (id : Uuid) (f : Queued β → Queued β) (id' : Uuid) :
    (rewrite rows id f).get id' =
      if id = id' then (rows.get id).map (fun row => { f row with id := id })
      else rows.get id' := by
  unfold rewrite
  split
  · next absent =>
    split
    · next same => rw [← same, absent, Option.map_none]
    · rfl
  · next row found =>
    rw [Table.get_put]
    split
    · next same => rw [found, Option.map_some]
    · rfl

end

end Console
