import Mathlib.Data.List.Basic
import Mathlib.Data.List.Count
import Mathlib.Data.List.Induction

/-! Matches played point by point. A game runs until its score is over, a match until a side has
won the games it needs. `Match.Reached` plays the points one by one; `reached_iff` says which
scoreboards come out, game by game. -/

namespace Lib.Rally

inductive Side
  | A | B
  deriving DecidableEq, Repr

structure Score where
  a : Nat := 0
  b : Nat := 0
  deriving DecidableEq, Repr

namespace Score

def love : Score := {}

def add (s : Score) : Side → Score
  | .A => { s with a := s.a + 1 }
  | .B => { s with b := s.b + 1 }

def leader (s : Score) : Side := if s.b < s.a then .A else .B

end Score

def wins (side : Side) (games : List Score) : Nat := games.countP fun g => g.leader = side

def Won (required : Nat) (side : Side) (games : List Score) : Prop := required ≤ wins side games

def Decided (required : Nat) (games : List Score) : Prop := ∃ side, Won required side games

/-- The games that are over, and the score of the game that is on. -/
structure Match where
  games : List Score := []
  current : Score := Score.love
  deriving DecidableEq, Repr

section

variable (isOver : Score → Prop) [DecidablePred isOver] (required : Nat)

def Match.point (m : Match) (p : Side) : Match :=
  if isOver (m.current.add p) then { games := m.games ++ [m.current.add p] }
  else { m with current := m.current.add p }

/-- What can be reached point by point, as long as nobody has won. -/
inductive Match.Reached : Match → Prop
  | start : Match.Reached {}
  | point {m : Match} (p : Side) : Match.Reached m → ¬ Decided required m.games →
      Match.Reached (m.point isOver p)

/-- A scoreboard of the match at this moment: the game that is on may be listed as the last. -/
def Match.Shows (m : Match) (games : List Score) : Prop :=
  (m.current = Score.love ∧ games = m.games) ∨
    (¬ Decided required m.games ∧ games = m.games ++ [m.current])

/-- Scores of a game that is on. -/
inductive Live : Score → Prop
  | love : Live Score.love
  | point {s : Score} (p : Side) : Live s → ¬ isOver (s.add p) → Live (s.add p)

def Finished (g : Score) : Prop := ∃ s p, Live isOver s ∧ g = s.add p ∧ isOver g

/-- Finished games one after the other, with nobody having won before any of them. -/
def Legal (before : List Score) : List Score → Prop
  | [] => True
  | g :: rest => ¬ Decided required before ∧ Finished isOver g ∧ Legal (before ++ [g]) rest

end

variable {isOver : Score → Prop} {required : Nat} {games : List Score}

@[simp] theorem wins_nil (side : Side) : wins side [] = 0 := rfl

theorem wins_append (side : Side) (games games' : List Score) :
    wins side (games ++ games') = wins side games + wins side games' :=
  List.countP_append

theorem wins_cons (side : Side) (g : Score) (games : List Score) :
    wins side (g :: games) = wins side games + if g.leader = side then 1 else 0 := by
  rw [wins, List.countP_cons]
  simp [wins]

theorem legal_append {before games' : List Score} :
    Legal isOver required before (games ++ games') ↔
      Legal isOver required before games ∧ Legal isOver required (before ++ games) games' := by
  induction games generalizing before with
  | nil => simp [Legal]
  | cons g games ih => simp [Legal, ih, and_assoc]

theorem legal_concat {g : Score} :
    Legal isOver required [] (games ++ [g]) ↔
      Legal isOver required [] games ∧ ¬ Decided required games ∧ Finished isOver g := by
  simp [legal_append, Legal]

theorem Legal.wins_le (h : Legal isOver required [] games) (side : Side) :
    wins side games ≤ required := by
  induction games using List.reverseRecOn with
  | nil => exact Nat.zero_le _
  | append_singleton games g ih =>
    obtain ⟨-, open_, -⟩ := legal_concat.mp h
    have few : wins side games < required := Nat.lt_of_not_le fun won => open_ ⟨side, won⟩
    rw [wins_append, wins_cons, wins_nil]
    split <;> omega

theorem Legal.one_winner (h : Legal isOver required [] games) (some_ : 0 < required)
    {side side' : Side} (won : Won required side games) (won' : Won required side' games) :
    side = side' := by
  induction games using List.reverseRecOn with
  | nil => exact absurd won (Nat.not_le_of_gt some_)
  | append_singleton games g ih =>
    obtain ⟨-, open_, -⟩ := legal_concat.mp h
    -- only the last game made a winner
    have last : ∀ side, Won required side (games ++ [g]) → g.leader = side := by
      intro side won
      by_contra other
      have before : wins side (games ++ [g]) = wins side games := by
        rw [wins_append, wins_cons, if_neg other]
        rfl
      rw [Won, before] at won
      exact open_ ⟨side, won⟩
    exact (last side won).symm.trans (last side' won')

variable [DecidablePred isOver]

theorem Match.Reached.live {s : Score} (fresh : Match.Reached isOver required { games })
    (open_ : ¬ Decided required games) (h : Live isOver s) :
    Match.Reached isOver required ⟨games, s⟩ := by
  induction h with
  | love => exact fresh
  | @point s p live on ih =>
    have next := Match.Reached.point p ih open_
    rwa [Match.point, if_neg on] at next

/-- **The scoreboards of a match.** A state is reached if and only if its games are legal, the game
that is on can stand as it does, and none is on once a side has won. -/
theorem Match.reached_iff {m : Match} :
    Match.Reached isOver required m ↔ Legal isOver required [] m.games ∧ Live isOver m.current ∧
      (Decided required m.games → m.current = Score.love) := by
  constructor
  · intro h
    induction h with
    | start => exact ⟨trivial, .love, fun _ => rfl⟩
    | @point m p _ open_ ih =>
      obtain ⟨legal, live, -⟩ := ih
      by_cases ended : isOver (m.current.add p)
      · rw [Match.point, if_pos ended]
        exact ⟨legal_concat.mpr ⟨legal, open_, m.current, p, live, rfl, ended⟩, .love, fun _ => rfl⟩
      · rw [Match.point, if_neg ended]
        exact ⟨legal, .point p live ended, fun won => absurd won open_⟩
  · obtain ⟨games, s⟩ := m
    rintro ⟨legal, live, rest⟩
    have fresh : Match.Reached isOver required { games } := by
      clear rest live
      induction games using List.reverseRecOn with
      | nil => exact .start
      | append_singleton games g ih =>
        obtain ⟨before, open_, s', p, live, rfl, ended⟩ := legal_concat.mp legal
        have last := (Match.Reached.live (ih before) open_ live).point p open_
        rwa [Match.point, if_pos ended] at last
    by_cases won : Decided required games
    · obtain rfl := rest won
      exact fresh
    · exact fresh.live won live

theorem Match.shows_iff (P : List Score → Prop) :
    (∃ m, Match.Reached isOver required m ∧ m.Shows required games ∧ P m.games) ↔
      (Legal isOver required [] games ∧ P games) ∨
        ∃ played s, games = played ++ [s] ∧ Legal isOver required [] played ∧
          ¬ Decided required played ∧ Live isOver s ∧ P played := by
  constructor
  · rintro ⟨m, reached, shows, holds⟩
    obtain ⟨legal, live, -⟩ := Match.reached_iff.mp reached
    rcases shows with ⟨-, rfl⟩ | ⟨open_, rfl⟩
    · exact .inl ⟨legal, holds⟩
    · exact .inr ⟨m.games, m.current, rfl, legal, open_, live, holds⟩
  · rintro (⟨legal, holds⟩ | ⟨played, s, rfl, legal, open_, live, holds⟩)
    · refine ⟨{ games }, Match.reached_iff.mpr ⟨legal, .love, fun _ => rfl⟩, .inl ⟨rfl, rfl⟩, holds⟩
    · refine ⟨⟨played, s⟩, Match.reached_iff.mpr ⟨legal, live, fun won => absurd won open_⟩, ?_, holds⟩
      exact .inr ⟨open_, rfl⟩

end Lib.Rally
