import ShuttleWorks.Console.CommandQueue
import ShuttleWorks.Lib.Transition

/-! Where queued commands are sent. A request goes to the workspace of the page whose flush makes
it; the tournament recorded in the command is never read. -/

namespace Console
open Lib Sync Operations

/-! ## Requests -/

/-- The body of `POST /tournaments/{tid}/commands`. -/
structure CommandRequestBody where
  id : Uuid
  matchId : String
  action : MatchAction
  payload : JsonObject
  seenVersion : Nat
  deriving DecidableEq

/-- `submitFn` of `useCommandQueue`, on a page of the workspace `tid`. -/
def submitFn (tid : Uuid) (cmd : QueuedCommand) : Uuid × CommandRequestBody :=
  (tid, ⟨cmd.id, cmd.matchId, cmd.body.action, cmd.body.payload, cmd.seenVersion⟩)

/-- The body of `POST /tournaments/{tid}/bracket/commands`. -/
structure BracketRequestBody where
  id : Uuid
  kind : String
  playUnitId : String
  winnerSide : WinnerSide
  seenVersion : Nat
  finishedAtSlot : Option Int
  score : Option JsonObject
  walkover : Bool
  reason : Option ResultReason
  deriving DecidableEq

/-- `submitFn` of `useBracketResultQueue`. -/
def bracketSubmitFn (tid : Uuid) (cmd : BracketResultCommand) : Uuid × BracketRequestBody :=
  (tid, ⟨cmd.id, if cmd.body.correction then "correct_result" else "record_result", cmd.matchId,
    cmd.body.winnerSide, cmd.seenVersion, cmd.body.finishedAtSlot, cmd.body.score,
    cmd.body.walkover, cmd.body.reason⟩)

/-! ## Lanes -/

section
variable {β ρ : Type}

def LaneMove.AtHome (lane : Lane β ρ) : LaneMove β ρ → Prop
  | .flush tid => ∀ row ∈ lane.rows.rows, row.status = .pending → row.tournamentId = tid
  | _ => True

instance (lane : Lane β ρ) (m : LaneMove β ρ) : Decidable (m.AtHome lane) :=
  match m with
  | .flush tid => inferInstanceAs (Decidable (∀ row ∈ lane.rows.rows, row.status = .pending →
      row.tournamentId = tid))
  | .press .. | .send _ | .settle .. | .close _ => .isTrue trivial

/-- Every request went to the tournament of its command, and the flushes under way keep to it. -/
structure Addressed (lane : Lane β ρ) : Prop where
  requests : ∀ r ∈ lane.requests, r.1 = r.2.tournamentId
  flushes : ∀ f ∈ lane.flushes, ∀ c ∈ f.todo, c.tournamentId = f.tid

theorem Addressed.empty (rows : CommandStore β) : Addressed (⟨rows, [], []⟩ : Lane β ρ) :=
  ⟨fun _ sent => absurd sent List.not_mem_nil, fun _ open_ => absurd open_ List.not_mem_nil⟩

theorem Addressed.step {lane : Lane β ρ} (h : Addressed lane) {m : LaneMove β ρ}
    (home : m.AtHome lane) : Addressed (lane.step m) := by
  cases m with
  | press tid command => exact ⟨h.requests, h.flushes⟩
  | flush tid =>
    refine ⟨h.requests, fun f hf c hc => ?_⟩
    rcases List.mem_append.mp hf with hf | hf
    · exact h.flushes f hf c hc
    · cases List.mem_singleton.mp hf
      obtain ⟨stored, pending⟩ := mem_getPending.mp hc
      exact home c stored pending
  | send i =>
    simp only [Lane.step]
    split
    · next tid command todo outcomes found =>
      have mine := h.flushes _ (List.mem_of_getElem? found)
      refine ⟨fun r hr => ?_, fun f hf c hc => ?_⟩
      · rcases List.mem_append.mp hr with hr | hr
        · exact h.requests r hr
        · rw [List.mem_singleton.mp hr]
          exact (mine command List.mem_cons_self).symm
      · rcases List.mem_or_eq_of_mem_set hf with hf | rfl
        · exact h.flushes f hf c hc
        · exact mine c (List.mem_cons_of_mem _ hc)
    · exact h
  | settle i result =>
    simp only [Lane.step]
    split
    · next tid todo command outcomes found =>
      refine ⟨h.requests, fun f hf c hc => ?_⟩
      rcases List.mem_or_eq_of_mem_set hf with hf | rfl
      · exact h.flushes f hf c hc
      · exact h.flushes _ (List.mem_of_getElem? found) c hc
    · exact h
  | close i =>
    exact ⟨h.requests, fun f hf => h.flushes f (List.mem_of_mem_eraseIdx hf)⟩

end

/-! ## The browser -/

/-- The queues of one browser, shared by all its pages. -/
structure Browser where
  commands : Lane CommandBody CommandOk
  results : Lane BracketResultBody Json

inductive BrowserMove
  | commands (m : LaneMove CommandBody CommandOk)
  | results (m : LaneMove BracketResultBody Json)

def Browser.step (b : Browser) : BrowserMove → Browser
  | .commands m => { b with commands := b.commands.step m }
  | .results m => { b with results := b.results.step m }

def BrowserMove.AtHome (b : Browser) : BrowserMove → Prop
  | .commands m => m.AtHome b.commands
  | .results m => m.AtHome b.results

instance (b : Browser) (m : BrowserMove) : Decidable (m.AtHome b) :=
  match m with
  | .commands m => inferInstanceAs (Decidable (m.AtHome b.commands))
  | .results m => inferInstanceAs (Decidable (m.AtHome b.results))

def Browser.empty : Browser := ⟨⟨.empty, [], []⟩, ⟨.empty, [], []⟩⟩

def WellAddressed (b : Browser) : Prop :=
  (∀ r ∈ b.commands.requests, (submitFn r.1 r.2).1 = r.2.tournamentId) ∧
    ∀ r ∈ b.results.requests, (bracketSubmitFn r.1 r.2).1 = r.2.tournamentId

/-- **Queued commands reach their own tournament.** In every run of presses, page loads, workspace
switches, drains and network failures whose flushes start where no command of another workspace is
pending, every request is addressed to the tournament recorded in its command. -/
theorem requests_addressed {b : Browser}
    (run : Reachable (fun b => b = .empty) (fun b m b' => m.AtHome b ∧ b' = b.step m) b) :
    WellAddressed b := by
  suffices kept : Addressed b.commands ∧ Addressed b.results from
    ⟨kept.1.requests, kept.2.requests⟩
  refine run.invariant (I := fun b => Addressed b.commands ∧ Addressed b.results) ?_ ?_
  · rintro b rfl
    exact ⟨.empty _, .empty _⟩
  · rintro b m _ - ⟨commands, results⟩ ⟨home, rfl⟩
    cases m with
    | commands m => exact ⟨commands.step home, results⟩
    | results m => exact ⟨commands, results.step home⟩

namespace AddressRehearsal

def homeTournament : Uuid := "11111111-1111-4111-8111-111111111111"
def awayTournament : Uuid := "22222222-2222-4222-8222-222222222222"

def callFirst : QueuedCommand where
  id := "77777777-7777-4777-8777-777777777777"
  tournamentId := homeTournament
  matchId := "MS1-R1-M1"
  seenVersion := 1
  createdAt := 100
  body := ⟨.callToCourt, []⟩

def offline : List BrowserMove :=
  [.commands (.press homeTournament callFirst), .commands (.flush homeTournament),
    .commands (.send 0), .commands (.settle 0 (.networkError "Network Error"))]

def switched : List BrowserMove :=
  offline ++ [.commands (.flush awayTournament), .commands (.send 1)]

def after (ms : List BrowserMove) : Browser := ms.foldl Browser.step .empty

end AddressRehearsal

open AddressRehearsal in
theorem requests_addressed_offline : WellAddressed (after offline) ∧
    (after offline).commands.requests ≠ [] := by
  refine ⟨requests_addressed ?_, by decide +kernel⟩
  exact .step (.step (.step (.step (.init rfl) (a := .commands (.press homeTournament callFirst))
    ⟨trivial, rfl⟩) (a := .commands (.flush homeTournament)) ⟨by decide +kernel, rfl⟩)
    (a := .commands (.send 0)) ⟨trivial, rfl⟩)
    (a := .commands (.settle 0 (.networkError "Network Error"))) ⟨trivial, rfl⟩

open AddressRehearsal in
/-- A call pressed offline in one workspace is posted to the workspace opened next. -/
theorem drained_elsewhere :
    let sent := { callFirst with attempts := 1 }
    (awayTournament, sent) ∈ (after switched).commands.requests ∧
      sent.tournamentId = homeTournament ∧ ¬ WellAddressed (after switched) := by
  have sent : (awayTournament, { callFirst with attempts := 1 }) ∈
      (after switched).commands.requests := by decide +kernel
  exact ⟨sent, rfl, fun well => absurd (well.1 _ sent) (by decide)⟩

end Console
