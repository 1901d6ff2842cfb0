import Mathlib.Order.MinMax
import ShuttleWorks.Brackets.Draw
import ShuttleWorks.Lib.Except
import ShuttleWorks.Lib.Rally

/-! The check of a recorded score. `validateResult` reads the games from left to right and accepts
a score if and only if a match played point by point can show it: a played result is the scoreboard
of a finished match, a broken-off one the scoreboard of a match at some moment. -/

namespace Brackets
open Lib Lib.Rally

/-- The scoring part of a tournament's configuration. -/
structure ScoringConfig where
  scoringFormat : Option String := none
  pointsPerSet : Option Nat := none
  setsToWin : Option Nat := none
  deuceEnabled : Option Bool := none
  pointCap : Option Nat := none
  deriving DecidableEq, Repr

namespace ScoringConfig

variable (config : ScoringConfig) {s : Score} {games : List Score} {w : WinnerSide}

/-- `value or default`. -/
def orElse (value : Option Nat) (default : Nat) : Nat :=
  match value with
  | none | some 0 => default
  | some (n + 1) => n + 1

def target : Nat := orElse config.pointsPerSet 21

def required : Nat := orElse config.setsToWin 2

def deuce : Bool := config.deuceEnabled ≠ some false

def cap : Option Nat := if config.deuce then config.pointCap else some config.target

theorem orElse_pos (value : Option Nat) {default : Nat} (h : 0 < default) :
    0 < orElse value default := by
  unfold orElse
  split
  · exact h
  · exact h
  · exact Nat.succ_pos _

theorem target_pos : 0 < config.target := orElse_pos _ (by decide)

theorem required_pos : 0 < config.required := orElse_pos _ (by decide)

/-! ## The code -/

/-- A legal ending of a game. -/
def Complete (hi lo : Nat) : Prop :=
  hi ≠ lo ∧ config.target ≤ hi ∧
    ((¬ config.deuce ∧ hi = config.target) ∨
      (config.deuce ∧ hi = config.target ∧ lo + 2 ≤ hi) ∨
      (config.deuce ∧ config.target < hi ∧ hi = lo + 2) ∨
      (config.deuce ∧ config.cap = some hi ∧ lo < hi ∧ hi ≤ lo + 2))

def Unfinished (hi lo : Nat) : Prop :=
  (hi < config.target ∨ (config.deuce ∧ hi ≤ lo + 1)) ∧ ∀ cap ∈ config.cap, hi < cap

instance (hi lo : Nat) : Decidable (config.Complete hi lo) := inferInstanceAs (Decidable (_ ∧ _))

instance (hi lo : Nat) : Decidable (config.Unfinished hi lo) := inferInstanceAs (Decidable (_ ∧ _))

def points : Option Json → Option Nat
  | some (.int n) => if 0 ≤ n then some n.toNat else none
  | _ => none

/-- The games won by `A` and by `B`. -/
abbrev Wins := Nat × Nat

/-- One round of the loop. -/
def countGame (special last : Bool) (wins : Wins) (game : Json) : Except String Wins :=
  if config.required ≤ max wins.1 wins.2 then .error "Games cannot follow a decided match"
  else
    match game with
    | .obj members =>
      match points (Assoc.get "sideA" members), points (Assoc.get "sideB" members) with
      | some a, some b =>
        if ∃ cap ∈ config.cap, cap < max a b then .error "Game score exceeds the configured cap"
        else if config.Complete (max a b) (min a b) then
          .ok (if b < a then (wins.1 + 1, wins.2) else (wins.1, wins.2 + 1))
        else if special ∧ last ∧ config.Unfinished (max a b) (min a b) then .ok wins
        else .error "Game is not a legal completed game"
      | _, _ => .error "Game scores must be nonnegative integers"
    | _ => .error "Each game needs scores for both sides"

def countGames (special : Bool) : List Json → Wins → Except String Wins
  | [], wins => .ok wins
  | game :: rest, wins => do
    let wins ← config.countGame special rest.isEmpty wins game
    countGames special rest wins

/-- `wins.get(winner, 0)`. -/
def winsOf (wins : Wins) : WinnerSide → Nat
  | .A => wins.1
  | .B => wins.2
  | .NONE => 0

def validateResult (winner : WinnerSide) (score : Option JsonObject) (walkover : Bool)
    (reason : Option String) : Except String Unit :=
  let special : Bool := walkover ∨ reason ∈ [some "walkover", some "retired", some "forfeit"]
  match score with
  | none =>
    if config.scoringFormat = some "badminton" ∧ ¬ special then
      .error "Game scores are required for this scoring format"
    else .ok ()
  | some score =>
    match Assoc.get "sets" score with
    | some (.arr games) =>
      if walkover ∨ reason = some "walkover" then
        if games ≠ [] then .error "A walkover cannot contain played games" else .ok ()
      else do
        let wins ← config.countGames special games (0, 0)
        if special ∧ config.required ≤ max wins.1 wins.2 ∧ winsOf wins winner ≠ config.required then
          .error "An interrupted outcome cannot contradict a completed match"
        else if ¬ special ∧ winsOf wins winner ≠ config.required then
          .error "Winner must agree with the completed game scores"
        else .ok ()
    | _ => .error "Score must contain a list of games"

/-! ## The rules -/

/-- The first winning moment of a game: the target with a lead of two, or the cap; without deuce
the target alone. -/
def Over (s : Score) : Prop :=
  if config.deuce then
    (config.target ≤ max s.a s.b ∧ min s.a s.b + 2 ≤ max s.a s.b) ∨
      ∃ cap ∈ config.pointCap, cap ≤ max s.a s.b
  else config.target ≤ max s.a s.b

instance : DecidablePred config.Over := fun s => by unfold Over; infer_instance

def Played (m : Match) : Prop := Match.Reached config.Over config.required m

def CapFits : Prop := ∀ cap ∈ config.cap, config.target ≤ cap

instance : Decidable config.CapFits := inferInstanceAs (Decidable (∀ _ ∈ _, _))

variable {config}

theorem unfinished_love (fits : config.CapFits) : config.Unfinished 0 0 :=
  ⟨.inl config.target_pos, fun cap h => config.target_pos.trans_le (fits cap h)⟩

theorem unfinished_add {p : Rally.Side} (fits : config.CapFits)
    (on : config.Unfinished (max s.a s.b) (min s.a s.b)) :
    (¬ config.Over (s.add p) →
        config.Unfinished (max (s.add p).a (s.add p).b) (min (s.add p).a (s.add p).b)) ∧
      (config.Over (s.add p) → (∀ cap ∈ config.cap, max (s.add p).a (s.add p).b ≤ cap) ∧
        config.Complete (max (s.add p).a (s.add p).b) (min (s.add p).a (s.add p).b)) := by
  unfold CapFits at fits
  unfold Over Unfinished Complete cap at *
  cases p <;> by_cases deuce : config.deuce <;> cases hc : config.pointCap <;>
    simp [deuce, hc, Score.add] at * <;> omega

theorem unfinished_before (some_ : s ≠ Score.love)
    (h : config.Unfinished (max s.a s.b) (min s.a s.b) ∨
      (∀ cap ∈ config.cap, max s.a s.b ≤ cap) ∧ config.Complete (max s.a s.b) (min s.a s.b)) :
    ∃ (s' : Score) (p : Rally.Side), s = s'.add p ∧
      config.Unfinished (max s'.a s'.b) (min s'.a s'.b) := by
  obtain ⟨a, b⟩ := s
  -- the last point went to the side ahead
  by_cases ahead : b < a
  · refine ⟨⟨a - 1, b⟩, .A, by simp [Score.add]; omega, ?_⟩
    unfold Unfinished Complete cap at *
    by_cases deuce : config.deuce <;> cases hc : config.pointCap <;> simp [deuce, hc] at * <;> omega
  · have played : 0 < b := by
      refine Nat.pos_of_ne_zero fun e => some_ ?_
      obtain rfl : a = 0 := by omega
      rw [e]
      rfl
    refine ⟨⟨a, b - 1⟩, .B, by simp [Score.add]; omega, ?_⟩
    unfold Unfinished Complete cap at *
    by_cases deuce : config.deuce <;> cases hc : config.pointCap <;> simp [deuce, hc] at * <;> omega

theorem over_of_complete (h : config.Complete (max s.a s.b) (min s.a s.b)) :
    config.Over s := by
  unfold Over Complete cap at *
  by_cases deuce : config.deuce <;> cases hc : config.pointCap <;> simp [deuce, hc] at * <;> omega

theorem not_over_of_unfinished (h : config.Unfinished (max s.a s.b) (min s.a s.b)) :
    ¬ config.Over s := by
  unfold Over Unfinished cap at *
  by_cases deuce : config.deuce <;> cases hc : config.pointCap <;> simp [deuce, hc] at * <;> omega

theorem live_iff (fits : config.CapFits) :
    Live config.Over s ↔ config.Unfinished (max s.a s.b) (min s.a s.b) := by
  constructor
  · intro h
    induction h with
    | love => exact unfinished_love fits
    | point p _ on ih => exact (unfinished_add fits ih).1 on
  · intro h
    obtain ⟨n, hn⟩ : ∃ n, s.a + s.b = n := ⟨_, rfl⟩
    induction n generalizing s with
    | zero =>
      obtain ⟨a, b⟩ := s
      obtain ⟨rfl, rfl⟩ : a = 0 ∧ b = 0 := by dsimp only at hn; omega
      exact .love
    | succ n ih =>
      have some_ : s ≠ Score.love := by rintro rfl; cases hn
      obtain ⟨s', p, rfl, before⟩ := unfinished_before some_ (.inl h)
      refine .point p (ih before ?_) (not_over_of_unfinished h)
      cases p <;> simp only [Score.add] at hn <;> omega

theorem finished_iff (fits : config.CapFits) {g : Score} :
    Finished config.Over g ↔
      (∀ cap ∈ config.cap, max g.a g.b ≤ cap) ∧ config.Complete (max g.a g.b) (min g.a g.b) := by
  constructor
  · rintro ⟨s, p, live, rfl, ended⟩
    exact (unfinished_add fits ((live_iff fits).mp live)).2 ended
  · rintro ⟨below, complete⟩
    have some_ : g ≠ Score.love := fun e => complete.1 (by rw [e]; rfl)
    obtain ⟨s, p, rfl, before⟩ := unfinished_before some_ (.inr ⟨below, complete⟩)
    exact ⟨s, p, (live_iff fits).mpr before, rfl, over_of_complete complete⟩

/-! ## Games from left to right -/

def readGame : Json → Option Score
  | .obj members =>
    match points (Assoc.get "sideA" members), points (Assoc.get "sideB" members) with
    | some a, some b => some ⟨a, b⟩
    | _, _ => none
  | _ => none

def readGames (score : JsonObject) : Option (List Score) :=
  match Assoc.get "sets" score with
  | some (.arr games) => games.mapM readGame
  | _ => none

def tally (games : List Score) : Wins := (wins .A games, wins .B games)

theorem tally_concat (games : List Score) (g : Score) :
    tally (games ++ [g]) =
      if g.b < g.a then ((tally games).1 + 1, (tally games).2)
      else ((tally games).1, (tally games).2 + 1) := by
  unfold tally
  simp only [wins_append, wins_cons, wins_nil, Score.leader]
  split <;> simp

theorem decided_iff :
    Decided config.required games ↔ config.required ≤ max (tally games).1 (tally games).2 := by
  unfold tally
  rw [le_max_iff]
  constructor
  · rintro ⟨side, won⟩
    cases side
    · exact .inl won
    · exact .inr won
  · rintro (won | won)
    · exact ⟨.A, won⟩
    · exact ⟨.B, won⟩

theorem countGame_eq_ok (fits : config.CapFits) {special last : Bool} {before : List Score}
    {game : Json} {after : Wins} :
    config.countGame special last (tally before) game = .ok after ↔
      ∃ g, readGame game = some g ∧ ¬ Decided config.required before ∧
        ((Finished config.Over g ∧ after = tally (before ++ [g])) ∨
          (special ∧ last ∧ Live config.Over g ∧ after = tally before)) := by
  rw [decided_iff]
  by_cases won : config.required ≤ max (tally before).1 (tally before).2
  · cases game <;> simp [countGame, won]
  cases game with
  | obj members =>
    unfold readGame countGame
    rw [if_neg won]
    dsimp only
    cases points (Assoc.get "sideA" members) with
    | none => simp
    | some a =>
      cases points (Assoc.get "sideB" members) with
      | none => simp
      | some b =>
        simp only [Option.some.injEq, exists_eq_left', won, not_false_eq_true, true_and,
          finished_iff fits, live_iff fits, tally_concat]
        by_cases high : ∃ cap ∈ config.cap, cap < max a b
        · obtain ⟨cap, hcap, above⟩ := high
          rw [if_pos ⟨cap, hcap, above⟩]
          refine iff_of_false nofun ?_
          rintro (⟨⟨below, -⟩, -⟩ | ⟨-, -, on, -⟩)
          · exact absurd above (not_lt.mpr (below cap hcap))
          · exact absurd above (on.2 cap hcap).not_gt
        have below : ∀ cap ∈ config.cap, max a b ≤ cap := fun cap hcap =>
          not_lt.mp fun above => high ⟨cap, hcap, above⟩
        rw [if_neg high]
        by_cases complete : config.Complete (max a b) (min a b)
        · have ended : ¬ config.Unfinished (max a b) (min a b) := fun on =>
            not_over_of_unfinished (s := ⟨a, b⟩) on (over_of_complete complete)
          rw [if_pos complete]
          constructor
          · intro h
            cases h
            exact .inl ⟨⟨below, complete⟩, rfl⟩
          · rintro (⟨-, rfl⟩ | ⟨-, -, on, -⟩)
            · rfl
            · exact absurd on ended
        · rw [if_neg complete]
          simp only [complete, and_false, false_and, false_or]
          split
          · next kept => simp [kept, eq_comm]
          · next dropped =>
            refine iff_of_false nofun fun ⟨special, last, on, _⟩ => dropped ⟨special, last, on⟩
  | _ => simp [readGame, countGame, won]

theorem countGames_eq_ok (fits : config.CapFits) (special : Bool) (before : List Score)
    {items : List Json} {after : Wins} :
    config.countGames special items (tally before) = .ok after ↔
      ∃ games, items.mapM readGame = some games ∧
        ((Legal config.Over config.required before games ∧ after = tally (before ++ games)) ∨
          (special ∧ ∃ played s, games = played ++ [s] ∧
            Legal config.Over config.required before played ∧
            ¬ Decided config.required (before ++ played) ∧ Live config.Over s ∧
            after = tally (before ++ played))) := by
  induction items generalizing before with
  | nil =>
    simp only [countGames, List.mapM_nil, Option.pure_def, Option.some.injEq, exists_eq_left',
      Except.ok.injEq]
    constructor
    · rintro rfl
      exact .inl ⟨trivial, by rw [List.append_nil]⟩
    · rintro (⟨-, rfl⟩ | ⟨-, played, s, none_, -⟩)
      · rw [List.append_nil]
      · simp at none_
  | cons item items ih =>
    simp only [countGames, bind_eq_ok, countGame_eq_ok fits, List.mapM_cons, Option.bind_eq_bind,
      Option.bind_eq_some_iff, Option.pure_def, Option.some.injEq]
    constructor
    · rintro ⟨_, ⟨g, read, open_, (⟨finished, rfl⟩ | ⟨special, last, live, rfl⟩)⟩, h⟩
      · obtain ⟨games, reads, h⟩ := (ih _).mp h
        rcases h with ⟨legal, rfl⟩ | ⟨special, played, s, rfl, legal, still, live, rfl⟩
        · refine ⟨_, ⟨g, read, games, reads, rfl⟩, .inl ⟨⟨open_, finished, legal⟩, ?_⟩⟩
          rw [← List.append_cons]
        · rw [← List.append_cons] at still ⊢
          exact ⟨_, ⟨g, read, _, reads, rfl⟩, .inr ⟨special, g :: played, s, rfl,
            ⟨open_, finished, legal⟩, still, live, rfl⟩⟩
      · obtain rfl := List.isEmpty_iff.mp last
        cases h
        refine ⟨[g], ⟨g, read, [], rfl, rfl⟩, .inr ⟨special, [], g, rfl, trivial, ?_, live, ?_⟩⟩
        · rwa [List.append_nil]
        · rw [List.append_nil]
    · rintro ⟨_, ⟨g, read, games, reads, rfl⟩, h⟩
      rcases h with
        ⟨⟨open_, finished, legal⟩, rfl⟩ | ⟨special, played, s, e, legal, still, live, rfl⟩
      · refine ⟨_, ⟨g, read, open_, .inl ⟨finished, rfl⟩⟩, (ih _).mpr ⟨games, reads, .inl ?_⟩⟩
        refine ⟨legal, ?_⟩
        rw [← List.append_cons]
      · cases played with
        | nil =>
          cases e
          have none_ : items = [] := by
            cases items with
            | nil => rfl
            | cons => simp [Option.bind_eq_some_iff] at reads
          subst none_
          rw [List.append_nil] at still ⊢
          exact ⟨_, ⟨g, read, still, .inr ⟨special, rfl, live, rfl⟩⟩, rfl⟩
        | cons first played =>
          cases e
          obtain ⟨open_, finished, legal⟩ := legal
          rw [List.append_cons] at still
          refine ⟨_, ⟨_, read, open_, .inl ⟨finished, rfl⟩⟩, (ih _).mpr ⟨_, reads, .inr ?_⟩⟩
          exact ⟨special, played, s, rfl, legal, still, live, by rw [← List.append_cons]⟩

/-! ## Results -/

def winner : Rally.Side → WinnerSide
  | .A => .A
  | .B => .B

theorem winsOf_eq (legal : Legal config.Over config.required [] games) :
    winsOf (tally games) w = config.required ↔
      ∃ side, winner side = w ∧ Won config.required side games := by
  have exact_ : ∀ side, wins side games = config.required ↔ Won config.required side games :=
    fun side => ⟨fun e => e.ge, fun won => le_antisymm (legal.wins_le side) won⟩
  cases w with
  | A =>
    rw [show winsOf (tally games) .A = wins .A games from rfl, exact_]
    refine ⟨fun won => ⟨.A, rfl, won⟩, fun ⟨side, e, won⟩ => ?_⟩
    cases side <;> cases e
    exact won
  | B =>
    rw [show winsOf (tally games) .B = wins .B games from rfl, exact_]
    refine ⟨fun won => ⟨.B, rfl, won⟩, fun ⟨side, e, won⟩ => ?_⟩
    cases side <;> cases e
    exact won
  | NONE =>
    refine iff_of_false (config.required_pos.ne) fun ⟨side, e, _⟩ => ?_
    cases side <;> cases e

/-- What is asked of the games won at the end. -/
def Agrees (config : ScoringConfig) (special : Bool) (w : WinnerSide) (wins : Wins) : Prop :=
  if special then config.required ≤ max wins.1 wins.2 → winsOf wins w = config.required
  else winsOf wins w = config.required

theorem validateResult_eq_ok (fits : config.CapFits) (special : Bool) {score : JsonObject}
    {reason : Option String} (other : reason ≠ some "walkover")
    (kind : special = decide (reason ∈ [some "walkover", some "retired", some "forfeit"])) :
    config.validateResult w (some score) false reason = .ok () ↔
      ∃ games, readGames score = some games ∧
        ((Legal config.Over config.required [] games ∧ config.Agrees special w (tally games)) ∨
          (special ∧ ∃ played s, games = played ++ [s] ∧
            Legal config.Over config.required [] played ∧ ¬ Decided config.required played ∧
            Live config.Over s ∧ config.Agrees special w (tally played))) := by
  have final : ∀ wins : Wins, ((if special ∧ config.required ≤ max wins.1 wins.2 ∧
      winsOf wins w ≠ config.required then
        .error "An interrupted outcome cannot contradict a completed match"
      else if ¬ special ∧ winsOf wins w ≠ config.required then
        .error "Winner must agree with the completed game scores"
      else .ok ()) = (.ok () : Except String Unit)) ↔ config.Agrees special w wins := by
    intro wins
    unfold Agrees
    cases special <;> simp
  unfold validateResult readGames
  simp only [Bool.false_eq_true, false_or, ← kind, other, if_false]
  split
  · next items _ =>
    simp only [bind_eq_ok]
    constructor
    · rintro ⟨wins, counted, h⟩
      have agrees := (final wins).mp h
      obtain ⟨games, reads, (⟨legal, rfl⟩ | ⟨broken, played, s, e, legal, open_, live, rfl⟩)⟩ :=
        (countGames_eq_ok fits special []).mp counted
      · exact ⟨games, reads, .inl ⟨legal, agrees⟩⟩
      · exact ⟨games, reads, .inr ⟨broken, played, s, e, legal, open_, live, agrees⟩⟩
    · rintro ⟨games, reads, (⟨legal, agrees⟩ | ⟨broken, played, s, e, legal, open_, live, agrees⟩)⟩
      · have counted := (countGames_eq_ok fits special []).mpr
          ⟨games, reads, .inl ⟨legal, rfl⟩⟩
        exact ⟨_, counted, (final _).mpr agrees⟩
      · have counted := (countGames_eq_ok fits special []).mpr
          ⟨games, reads, .inr ⟨broken, played, s, e, legal, open_, live, rfl⟩⟩
        exact ⟨_, counted, (final _).mpr agrees⟩
  · simp

/-- **Accepted scores are scoreboards.** A played result is accepted if and only if its games are
the scoreboard of a match played point by point to its end and won by the winner stated; a match
that was broken off, if and only if the games are a scoreboard of the match at some moment at which
the other side has not won. -/
theorem validateResult_iff (config : ScoringConfig) (fits : config.CapFits) (w : WinnerSide)
    (score : JsonObject) :
    (∀ reason, reason ∉ [some "walkover", some "retired", some "forfeit"] →
      (config.validateResult w (some score) false reason = .ok () ↔
        ∃ m, config.Played m ∧ readGames score = some m.games ∧
          ∃ side, winner side = w ∧ Won config.required side m.games)) ∧
    ∀ reason ∈ [some "retired", some "forfeit"],
      (config.validateResult w (some score) false reason = .ok () ↔
        ∃ m games, config.Played m ∧ m.Shows config.required games ∧ readGames score = some games ∧
          ∀ side, Won config.required side m.games → winner side = w) := by
  constructor
  · intro reason normal
    have other : reason ≠ some "walkover" := fun e => normal (e ▸ by simp)
    rw [validateResult_eq_ok fits false other (by simp [normal])]
    constructor
    · rintro ⟨games, reads, (⟨legal, agrees⟩ | ⟨broken, -⟩)⟩
      · have reached : config.Played { games } := Match.reached_iff.mpr ⟨legal, .love, fun _ => rfl⟩
        exact ⟨{ games }, reached, reads, (winsOf_eq legal).mp agrees⟩
      · cases broken
    · rintro ⟨m, reached, reads, won⟩
      have legal := (Match.reached_iff.mp reached).1
      exact ⟨m.games, reads, .inl ⟨legal, (winsOf_eq legal).mpr won⟩⟩
  · intro reason broken
    have other : reason ≠ some "walkover" := by rintro rfl; simp at broken
    have known : reason ∈ [some "walkover", some "retired", some "forfeit"] :=
      List.mem_cons_of_mem _ broken
    rw [validateResult_eq_ok fits true other (by simp [known])]
    -- what the code asks of the games won
    have agrees_iff : ∀ games, Legal config.Over config.required [] games →
        (config.Agrees true w (tally games) ↔
          ∀ side, Won config.required side games → winner side = w) := by
      intro games legal
      rw [Agrees, if_pos rfl, ← decided_iff, winsOf_eq legal]
      constructor
      · intro agrees side won
        obtain ⟨side', e, won'⟩ := agrees ⟨side, won⟩
        rwa [legal.one_winner config.required_pos won won']
      · rintro all ⟨side, won⟩
        exact ⟨side, all side won, won⟩
    let fair (played : List Score) : Prop :=
      ∀ side, Won config.required side played → winner side = w
    constructor
    · rintro ⟨games, reads, h⟩
      obtain ⟨m, reached, shows, all⟩ :
          ∃ m, config.Played m ∧ m.Shows config.required games ∧ fair m.games := by
        apply (Match.shows_iff fair).mpr
        rcases h with ⟨legal, agrees⟩ | ⟨-, played, s, e, legal, open_, live, agrees⟩
        · exact .inl ⟨legal, (agrees_iff _ legal).mp agrees⟩
        · exact .inr ⟨played, s, e, legal, open_, live, (agrees_iff _ legal).mp agrees⟩
      exact ⟨m, games, reached, shows, reads, all⟩
    · rintro ⟨m, games, reached, shows, reads, all⟩
      refine ⟨games, reads, ?_⟩
      rcases (Match.shows_iff fair).mp ⟨m, reached, shows, all⟩ with
        ⟨legal, all⟩ | ⟨played, s, e, legal, open_, live, all⟩
      · exact .inl ⟨legal, (agrees_iff _ legal).mpr all⟩
      · exact .inr ⟨rfl, played, s, e, legal, open_, live, (agrees_iff _ legal).mpr all⟩

/-- Three games under the usual rules, the last one decided at the cap. -/
theorem badminton_result_shown :
    ScoringConfig.CapFits { pointsPerSet := some 21, pointCap := some 30 } ∧
      ∃ m, Played { pointsPerSet := some 21, pointCap := some 30 } m ∧
        readGames [("sets", .arr [.obj [("sideA", .int 21), ("sideB", .int 19)],
          .obj [("sideA", .int 18), ("sideB", .int 21)],
          .obj [("sideA", .int 30), ("sideB", .int 29)]])] = some m.games ∧
        ∃ side, winner side = .A ∧ Won 2 side m.games :=
  ⟨by decide, ((validateResult_iff { pointsPerSet := some 21, pointCap := some 30 } (by decide)
    .A _).1 none (by decide)).mp (by decide)⟩

end ScoringConfig

end Brackets
