import ShuttleWorks.Lib.Except

/-! State machines given by a list of edges: which event leads from which states
where, who may raise it and which guard it has to pass. -/

namespace Lib

structure Edge (σ : Type) where
  event : String
  fromStates : List σ
  target : σ
  actor : String := "operator"
  guard : Option String := none

structure StateMachine (σ : Type) where
  name : String
  version : Nat
  edges : List (Edge σ)

structure Refusal where
  code : String
  message : String
  deriving DecidableEq, Repr

namespace StateMachine

variable {σ : Type} [DecidableEq σ]

def targets (m : StateMachine σ) (current : σ) : List σ :=
  (m.edges.filter (fun e => current ∈ e.fromStates)).map Edge.target

/-- The one edge of an event from a state. -/
def edge (m : StateMachine σ) (text : σ → String) (current : σ) (event : String) :
    Except Refusal (Edge σ) :=
  match m.edges.filter (fun e => current ∈ e.fromStates ∧ e.event = event) with
  | [e] => .ok e
  | _ => .error ⟨"INVALID_TRANSITION",
      "Cannot " ++ event ++ " " ++ m.name ++ " from '" ++ text current ++ "'"⟩

/-- What a guard says of the row at hand; a name without a guard gives `none`. -/
abbrev Guards := String → Option (Except Refusal Bool)

def passes (guards : Guards) (event : String) : Option String → Except Refusal Unit
  | none => .ok ()
  | some name =>
    match guards name with
    | none => .error ⟨"GUARD_NOT_REGISTERED", "Unknown guard: " ++ name⟩
    | some (.error e) => .error e
    | some (.ok false) =>
      .error ⟨"GUARD_REFUSED", "Guard " ++ name ++ " refused " ++ event⟩
    | some (.ok true) => .ok ()

/-- Validate an event against the row's graph version, its state, the actor and the guard. -/
def check (m : StateMachine σ) (text : σ → String) (guards : Guards) (version : Nat) (current : σ)
    (event actor : String) : Except Refusal (Edge σ) := do
  if version ≠ m.version then
    .error ⟨"MACHINE_VERSION_MISMATCH",
      "Unsupported " ++ m.name ++ " graph version " ++ toString version⟩
  else
    let e ← m.edge text current event
    if e.actor ≠ actor then
      .error ⟨"ACTOR_NOT_ALLOWED", "Only " ++ e.actor ++ " may " ++ event ++ " " ++ m.name⟩
    else
      passes guards event e.guard
      .ok e

variable {m : StateMachine σ} {text : σ → String} {current : σ} {event actor : String}
  {e : Edge σ}

theorem edge_eq_ok (h : m.edge text current event = .ok e) :
    e ∈ m.edges ∧ current ∈ e.fromStates ∧ e.event = event := by
  unfold edge at h
  split at h
  · next found =>
    cases h
    have member : e ∈ m.edges.filter (fun e => current ∈ e.fromStates ∧ e.event = event) := by
      rw [found]
      exact List.mem_singleton_self e
    simpa using member
  · cases h

theorem check_eq_ok {guards : Guards} {version : Nat}
    (h : m.check text guards version current event actor = .ok e) :
    version = m.version ∧ e ∈ m.edges ∧ current ∈ e.fromStates ∧ e.event = event ∧
      e.actor = actor ∧ passes guards event e.guard = .ok () := by
  unfold check at h
  split at h
  · cases h
  · next same =>
    simp only [bind_eq_ok] at h
    obtain ⟨e', found, h⟩ := h
    split at h
    · cases h
    · next allowed =>
      simp only [bind_eq_ok] at h
      obtain ⟨⟨⟩, passed, h⟩ := h
      cases h
      obtain ⟨member, current, event⟩ := edge_eq_ok found
      exact ⟨not_not.mp same, member, current, event, not_not.mp allowed, passed⟩

end StateMachine

end Lib
