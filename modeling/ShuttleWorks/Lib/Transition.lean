import Mathlib.Data.List.Basic
import Mathlib.Logic.Relation

/-! Transition systems: the states a run reaches, and the rule that an
invariant of the first state and of every step holds in all of them. -/

namespace Lib

section

variable {σ : Type} {α : Type}

/-- The states reached from an initial state by steps, each with a label. -/
inductive Reachable (init : σ → Prop) (step : σ → α → σ → Prop) : σ → Prop
  | init {s : σ} : init s → Reachable init step s
  | step {s s' : σ} {a : α} : Reachable init step s → step s a s' → Reachable init step s'

namespace Reachable

variable {init : σ → Prop} {step : σ → α → σ → Prop}

/-- **Invariant rule.** What holds first and is kept by every step holds of every reached state. -/
theorem invariant {I : σ → Prop} (h₀ : ∀ s, init s → I s)
    (hs : ∀ s a s', Reachable init step s → I s → step s a s' → I s') {s : σ}
    (h : Reachable init step s) : I s := by
  induction h with
  | init h => exact h₀ _ h
  | step hr h ih => exact hs _ _ _ hr ih h

theorem mono {step' : σ → α → σ → Prop} (hs : ∀ s a s', step s a s' → step' s a s') {s : σ}
    (h : Reachable init step s) : Reachable init step' s := by
  induction h with
  | init h => exact .init h
  | step _ h ih => exact .step ih (hs _ _ _ h)

end Reachable

/-- A label-free run from one state to another. -/
inductive Run (step : σ → α → σ → Prop) : σ → List α → σ → Prop
  | nil (s : σ) : Run step s [] s
  | cons {s s' s'' : σ} {a : α} {as : List α} : step s a s' → Run step s' as s'' →
      Run step s (a :: as) s''

namespace Run

variable {step : σ → α → σ → Prop}

theorem closed {R : σ → σ → Prop} (hr : ∀ s, R s s) (ht : ∀ s s' s'', R s s' → R s' s'' → R s s'')
    (hs : ∀ s a s', step s a s' → R s s') {s s' : σ} {as : List α} (h : Run step s as s') :
    R s s' := by
  induction h with
  | nil s => exact hr s
  | cons h _ ih => exact ht _ _ _ (hs _ _ _ h) ih

theorem invariant {I : σ → Prop} (hs : ∀ s a s', I s → step s a s' → I s') {s s' : σ} {as : List α}
    (h : Run step s as s') (hi : I s) : I s' := by
  induction h with
  | nil s => exact hi
  | cons h _ ih => exact ih (hs _ _ _ hi h)

theorem append {s s' s'' : σ} {as bs : List α} (h : Run step s as s') (h' : Run step s' bs s'') :
    Run step s (as ++ bs) s'' := by
  induction h with
  | nil s => exact h'
  | cons first _ ih => exact .cons first (ih h')

theorem mono {step' : σ → α → σ → Prop} (hs : ∀ s a s', step s a s' → step' s a s') {s s' : σ}
    {as : List α} (h : Run step s as s') : Run step' s as s' := by
  induction h with
  | nil s => exact .nil s
  | cons first _ ih => exact .cons (hs _ _ _ first) ih

theorem holds_or {I : σ → Prop} {Q : σ → α → Prop}
    (hs : ∀ s a s', I s → step s a s' → ¬ Q s a → I s') {s s' : σ} {as : List α}
    (h : Run step s as s') (hi : I s) :
    I s' ∨ ∃ before a after t, as = before ++ a :: after ∧ Run step s before t ∧ Q t a := by
  induction h with
  | nil s => exact .inl hi
  | @cons s s₁ s' a as first _ ih =>
    by_cases breaks : Q s a
    · exact .inr ⟨[], a, as, s, rfl, .nil s, breaks⟩
    · refine (ih (hs _ _ _ hi first breaks)).imp_right ?_
      rintro ⟨before, b, after, t, rfl, run, breaks⟩
      exact ⟨a :: before, b, after, t, rfl, .cons first run, breaks⟩

end Run

theorem Reachable.run {init : σ → Prop} {step : σ → α → σ → Prop} {s s' : σ} {as : List α}
    (h : Reachable init step s) (r : Run step s as s') : Reachable init step s' := by
  induction r with
  | nil s => exact h
  | cons hs _ ih => exact ih (.step h hs)

theorem Reachable.run_of {init : σ → Prop} {step : σ → α → σ → Prop} {P : α → Prop} {s s' : σ}
    {as : List α} (h : Reachable init (fun s a s' => step s a s' ∧ P a) s) (r : Run step s as s')
    (taken : ∀ a ∈ as, P a) : Reachable init (fun s a s' => step s a s' ∧ P a) s' := by
  induction r with
  | nil s => exact h
  | cons first _ ih =>
    refine ih (.step h ⟨first, taken _ List.mem_cons_self⟩) fun a ha => ?_
    exact taken a (List.mem_cons_of_mem _ ha)

end

/-! ## Transactions in flight

A request reads the store and plans its writes; the plan is written later, over whatever the store
holds by then, or it is given up. -/

/-- A store and the plans made from earlier reads of it. -/
structure InFlight (σ τ : Type) where
  store : σ
  plans : List τ

namespace InFlight

inductive Move (α : Type)
  | start (request : α)
  | commit (n : Nat)
  | rollback (n : Nat)

variable {σ τ α : Type} {I : σ → Prop} {P : σ → τ → Prop}

/-- One move: a read that fails plans nothing, a commit writes the plan at its place. -/
def step (read : σ → α → Option τ) (write : σ → τ → σ) (s : InFlight σ τ) : Move α → InFlight σ τ
  | .start request =>
    match read s.store request with
    | none => s
    | some plan => { s with plans := s.plans ++ [plan] }
  | .commit n =>
    match s.plans[n]? with
    | none => s
    | some plan => ⟨write s.store plan, s.plans.eraseIdx n⟩
  | .rollback n => { s with plans := s.plans.eraseIdx n }

def Meets (U : σ → τ → Prop) (s : InFlight σ τ) : Move α → Prop
  | .commit n => ∀ plan ∈ s.plans[n]?, U s.store plan
  | _ => True

instance (U : σ → τ → Prop) [∀ store plan, Decidable (U store plan)] (s : InFlight σ τ)
    (m : Move α) : Decidable (Meets U s m) :=
  match m with
  | .commit n => inferInstanceAs (Decidable (∀ plan ∈ s.plans[n]?, U s.store plan))
  | .start _ => .isTrue trivial
  | .rollback _ => .isTrue trivial

def Steps (read : σ → α → Option τ) (write : σ → τ → σ) (U : σ → τ → Prop) (s : InFlight σ τ)
    (m : Move α) (s' : InFlight σ τ) : Prop :=
  Meets U s m ∧ s' = step read write s m

variable {read : σ → α → Option τ} {write : σ → τ → σ} {U : σ → τ → Prop}

/-- The store satisfies `I` and every plan in flight fits it. -/
structure Fits (I : σ → Prop) (P : σ → τ → Prop) (s : InFlight σ τ) : Prop where
  store : I s.store
  plans : ∀ plan ∈ s.plans, P s.store plan

theorem Fits.step (reads : ∀ store request plan, I store → read store request = some plan →
      P store plan)
    (writes : ∀ store plan, I store → P store plan → U store plan → I (write store plan) ∧
      ∀ other, P store other → P (write store plan) other)
    {s : InFlight σ τ} (h : Fits I P s) {m : Move α} (meets : Meets U s m) :
    Fits I P (InFlight.step read write s m) := by
  cases m with
  | start request =>
    simp only [InFlight.step]
    split
    · exact h
    · next plan planned =>
      refine ⟨h.store, fun other hother => ?_⟩
      rcases List.mem_append.mp hother with hother | hother
      · exact h.plans other hother
      · rw [List.mem_singleton.mp hother]
        exact reads _ _ _ h.store planned
  | commit n =>
    simp only [InFlight.step]
    split
    · exact h
    · next plan found =>
      obtain ⟨kept, others⟩ := writes _ plan h.store
        (h.plans plan (List.mem_of_getElem? found)) (meets plan found)
      exact ⟨kept, fun other hother => others other (h.plans other (List.mem_of_mem_eraseIdx hother))⟩
  | rollback n =>
    exact ⟨h.store, fun other hother => h.plans other (List.mem_of_mem_eraseIdx hother)⟩

/-- **Invariant rule for transactions in flight.** -/
theorem Fits.reachable {init : InFlight σ τ → Prop} (first : ∀ s, init s → Fits I P s)
    (reads : ∀ store request plan, I store → read store request = some plan → P store plan)
    (writes : ∀ store plan, I store → P store plan → U store plan → I (write store plan) ∧
      ∀ other, P store other → P (write store plan) other)
    {s : InFlight σ τ} (h : Reachable init (Steps read write U) s) : Fits I P s := by
  refine h.invariant first ?_
  rintro s m _ - fits ⟨meets, rfl⟩
  exact fits.step reads writes meets

end InFlight

/-! ## Sequences of events, each of which leaves the store in one way -/

variable {σ α : Type} (step : σ → α → σ)

def served (s : σ) (events : List α) : σ := events.foldl step s

def Throughout (P : σ → α → Prop) (s : σ) : List α → Prop
  | [] => True
  | e :: es => P s e ∧ Throughout P (step s e) es

variable {step}

instance decidableThroughout (P : σ → α → Prop) [∀ s e, Decidable (P s e)] :
    ∀ (s : σ) (events : List α), Decidable (Throughout step P s events)
  | _, [] => .isTrue trivial
  | s, e :: es =>
    have := decidableThroughout P (step s e) es
    inferInstanceAs (Decidable (P s e ∧ Throughout step P (step s e) es))

namespace Throughout

variable {P Q : σ → α → Prop} {I : σ → Prop} {s : σ} {events : List α}

theorem mono (h : Throughout step P s events) (imp : ∀ s e, P s e → Q s e) :
    Throughout step Q s events := by
  induction events generalizing s with
  | nil => trivial
  | cons e es ih => exact ⟨imp s e h.1, ih h.2⟩

theorem invariant (h : Throughout step P s events) (start : I s)
    (keeps : ∀ s e, I s → P s e → I (step s e)) : I (served step s events) := by
  induction events generalizing s with
  | nil => exact start
  | cons e es ih => exact ih h.2 (keeps s e start h.1)

end Throughout

end Lib
