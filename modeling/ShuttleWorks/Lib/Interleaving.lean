import Mathlib.Data.List.Perm.Basic
import ShuttleWorks.Lib.Transition

/-! Locks of open transactions. A row that is written, and every entry a row makes in a
unique index, stays locked until its transaction ends; who wants to write it waits. -/

namespace Lib

section

/-- What a write waits for: the locks on its own rows, or the one writer of the database. -/
inductive Locking
  | rows
  | database
  deriving DecidableEq

variable {κ τ : Type} [DecidableEq κ]

/-- Some other transaction keeps a write under these keys waiting. -/
def Locking.Blocked (l : Locking) (locks : τ → List κ) (others : List τ) (keys : List κ) : Prop :=
  match l with
  | .rows => ∃ other ∈ others, ∃ k ∈ keys, k ∈ locks other
  | .database => ∃ other ∈ others, locks other ≠ []

instance (l : Locking) (locks : τ → List κ) (others : List τ) (keys : List κ) :
    Decidable (l.Blocked locks others keys) :=
  match l with
  | .rows => inferInstanceAs (Decidable (∃ other ∈ others, ∃ k ∈ keys, k ∈ locks other))
  | .database => inferInstanceAs (Decidable (∃ other ∈ others, locks other ≠ []))

def Apart (locks : τ → List κ) (tx other : τ) : Prop := List.Disjoint (locks tx) (locks other)

variable {l : Locking} {locks : τ → List κ} {others : List τ} {keys : List κ} {tx tx' other : τ}

omit [DecidableEq κ] in
theorem Apart.symm (h : Apart locks tx other) : Apart locks other tx :=
  fun _ held held' => h held' held

omit [DecidableEq κ] in
theorem Locking.apart (free : ¬ l.Blocked locks others keys) (mem : other ∈ others)
    (h : Apart locks tx other) (adds : ∀ k ∈ locks tx', k ∈ locks tx ∨ k ∈ keys) :
    Apart locks tx' other := by
  intro k hk held
  rcases adds k hk with before | new
  · exact h before held
  · apply free
    cases l with
    | rows => exact ⟨other, mem, k, new, held⟩
    | database =>
      refine ⟨other, mem, fun none => ?_⟩
      simp [none] at held

end

/-! ## Interleaved transactions

Each runs statement by statement over a store that the others commit to in between; a statement may
have to wait for what the other transactions hold. -/

/-- What the next statement of a transaction does. -/
inductive Progress (σ ε τ : Type)
  | waits
  | goesOn (tx : τ)
  | commits (store : σ)
  | fails (error : ε)
  deriving DecidableEq

def Progress.attempt {σ ε τ α : Type} (answer : Except ε α) (next : α → Progress σ ε τ) :
    Progress σ ε τ :=
  match answer with
  | .ok a => next a
  | .error e => .fails e

variable {α : Type}

@[simp] theorem Progress.attempt_eq_goesOn {σ ε τ : Type} {answer : Except ε α}
    {next : α → Progress σ ε τ} {tx : τ} :
    Progress.attempt answer next = .goesOn tx ↔ ∃ a, answer = .ok a ∧ next a = .goesOn tx := by
  cases answer <;> simp [Progress.attempt]

@[simp] theorem Progress.attempt_eq_commits {σ ε τ : Type} {answer : Except ε α}
    {next : α → Progress σ ε τ} {store : σ} :
    Progress.attempt answer next = .commits store ↔
      ∃ a, answer = .ok a ∧ next a = .commits store := by
  cases answer <;> simp [Progress.attempt]

def Progress.onStore {σ ε τ : Type} (f : σ → σ) : Progress σ ε τ → Progress σ ε τ
  | .waits => .waits
  | .goesOn tx => .goesOn tx
  | .commits store => .commits (f store)
  | .fails e => .fails e

structure Interleaved (σ τ : Type) where
  store : σ
  running : List τ
  deriving DecidableEq

namespace Interleaved

inductive Move (ρ : Type)
  | start (request : ρ)
  | run (n : Nat)
  | rollback (n : Nat)
  deriving DecidableEq

variable {σ ε τ ρ : Type} {I : σ → Prop} {P : σ → τ → Prop} {R : τ → τ → Prop} {n : Nat}

/-- The other transactions while the one at `n` runs. -/
def others (s : Interleaved σ τ) (n : Nat) : List τ := s.running.eraseIdx n

/-- The transaction at `n` after its statement; a failed one is rolled back. -/
def proceed (s : Interleaved σ τ) (n : Nat) : Progress σ ε τ → Interleaved σ τ
  | .waits => s
  | .goesOn tx => { s with running := s.running.set n tx }
  | .commits store => ⟨store, s.others n⟩
  | .fails _ => { s with running := s.others n }

/-- One move: a request starts a transaction, a transaction runs its next statement or is undone. -/
def step (start : ρ → τ) (exec : σ → List τ → τ → Progress σ ε τ) (s : Interleaved σ τ) :
    Move ρ → Interleaved σ τ
  | .start request => { s with running := s.running ++ [start request] }
  | .run n =>
    match s.running[n]? with
    | none => s
    | some tx => s.proceed n (exec s.store (s.others n) tx)
  | .rollback n => { s with running := s.others n }

/-- The condition holds of the transaction a move runs, of the store its statement meets and of
the other transactions. -/
def Meets (U : σ → List τ → τ → Prop) (s : Interleaved σ τ) : Move ρ → Prop
  | .run n => ∀ tx ∈ s.running[n]?, U s.store (s.others n) tx
  | _ => True

instance (U : σ → List τ → τ → Prop) [∀ store others tx, Decidable (U store others tx)]
    (s : Interleaved σ τ) (m : Move ρ) : Decidable (Meets U s m) :=
  match m with
  | .run n => inferInstanceAs (Decidable (∀ tx ∈ s.running[n]?, U s.store (s.others n) tx))
  | .start _ => .isTrue trivial
  | .rollback _ => .isTrue trivial

/-- The moves whose statements all meet the condition. -/
def Steps (start : ρ → τ) (exec : σ → List τ → τ → Progress σ ε τ) (U : σ → List τ → τ → Prop)
    (s : Interleaved σ τ) (m : Move ρ) (s' : Interleaved σ τ) : Prop :=
  Meets U s m ∧ s' = step start exec s m

def after (start : ρ → τ) (exec : σ → List τ → τ → Progress σ ε τ) (s : Interleaved σ τ)
    (moves : List (Move ρ)) : Interleaved σ τ :=
  moves.foldl (step start exec) s

/-- Every move of the list meets the condition when its turn comes. -/
def Along (start : ρ → τ) (exec : σ → List τ → τ → Progress σ ε τ) (U : σ → List τ → τ → Prop)
    (s : Interleaved σ τ) : List (Move ρ) → Prop
  | [] => True
  | m :: ms => Meets U s m ∧ Along start exec U (step start exec s m) ms

instance decidableAlong (start : ρ → τ) (exec : σ → List τ → τ → Progress σ ε τ)
    (U : σ → List τ → τ → Prop) [∀ store others tx, Decidable (U store others tx)]
    (s : Interleaved σ τ) : ∀ moves, Decidable (Along start exec U s moves)
  | [] => .isTrue trivial
  | m :: ms =>
    have := decidableAlong start exec U (step start exec s m) ms
    inferInstanceAs (Decidable (Meets U s m ∧ Along start exec U (step start exec s m) ms))

variable {start : ρ → τ} {exec : σ → List τ → τ → Progress σ ε τ} {U : σ → List τ → τ → Prop}

theorem Along.reachable {init : Interleaved σ τ → Prop} {s : Interleaved σ τ}
    {moves : List (Move ρ)} (h : Reachable init (Steps start exec U) s)
    (along : Along start exec U s moves) :
    Reachable init (Steps start exec U) (after start exec s moves) := by
  induction moves generalizing s with
  | nil => exact h
  | cons m ms ih => exact ih (.step h ⟨along.1, rfl⟩) along.2

/-- The store satisfies `I`, every transaction fits it and any two of them are apart. -/
structure Fits (I : σ → Prop) (P : σ → τ → Prop) (R : τ → τ → Prop) (s : Interleaved σ τ) :
    Prop where
  store : I s.store
  running : ∀ tx ∈ s.running, P s.store tx
  apart : s.running.Pairwise R

/-- A transaction between the others: it fits the store, and so do they. -/
structure Placed (I : σ → Prop) (P : σ → τ → Prop) (R : τ → τ → Prop) (store : σ)
    (others : List τ) (tx : τ) : Prop where
  holds : I store
  fits : P store tx
  rest : ∀ other ∈ others, P store other ∧ R tx other

theorem Fits.placed (symm : ∀ tx other, R tx other → R other tx) {s : Interleaved σ τ}
    (h : Fits I P R s) {tx : τ} (found : s.running[n]? = some tx) :
    Placed I P R s.store (s.others n) tx := by
  obtain ⟨bound, rfl⟩ := List.getElem?_eq_some_iff.mp found
  have perm := List.getElem_cons_eraseIdx_perm bound
  have apart := (List.pairwise_cons.mp (h.apart.perm perm.symm (fun r => symm _ _ r))).1
  exact ⟨h.store, h.running _ (List.getElem_mem bound), fun other mem =>
    ⟨h.running other (List.mem_of_mem_eraseIdx mem), apart other mem⟩⟩

theorem Fits.leave {s : Interleaved σ τ} (h : Fits I P R s) (n : Nat) :
    Fits I P R { s with running := s.others n } :=
  ⟨h.store, fun tx mem => h.running tx (List.mem_of_mem_eraseIdx mem),
    h.apart.sublist (List.eraseIdx_sublist _ _)⟩

theorem Fits.enter {s : Interleaved σ τ} (h : Fits I P R s) {tx : τ} (fits : P s.store tx)
    (apart : ∀ other, R other tx) : Fits I P R { s with running := s.running ++ [tx] } := by
  refine ⟨h.store, fun other mem => ?_, ?_⟩
  · rcases List.mem_append.mp mem with mem | mem
    · exact h.running other mem
    · rw [List.mem_singleton.mp mem]
      exact fits
  · rw [List.pairwise_append]
    refine ⟨h.apart, List.pairwise_singleton _ _, fun other _ last mem => ?_⟩
    rw [List.mem_singleton.mp mem]
    exact apart other

theorem Fits.goOn (symm : ∀ tx other, R tx other → R other tx) {s : Interleaved σ τ}
    (h : Fits I P R s) {tx tx' : τ} (found : s.running[n]? = some tx) (fits : P s.store tx')
    (apart : ∀ other ∈ s.others n, R tx' other) :
    Fits I P R { s with running := s.running.set n tx' } := by
  obtain ⟨bound, -⟩ := List.getElem?_eq_some_iff.mp found
  refine ⟨h.store, fun other mem => ?_, ?_⟩
  · rcases List.mem_or_eq_of_mem_set mem with mem | rfl
    · exact h.running other mem
    · exact fits
  · have perm := List.set_perm_cons_eraseIdx bound tx'
    refine List.Pairwise.perm ?_ perm.symm (fun r => symm _ _ r)
    exact List.pairwise_cons.mpr ⟨apart, (h.leave n).apart⟩

/-- What starting establishes, a statement keeps and a commit leaves to the others. -/
structure Rule (start : ρ → τ) (exec : σ → List τ → τ → Progress σ ε τ) (U : σ → List τ → τ → Prop)
    (I : σ → Prop) (P : σ → τ → Prop) (R : τ → τ → Prop) : Prop where
  symm : ∀ tx other, R tx other → R other tx
  starts : ∀ store request, I store → P store (start request)
  startsApart : ∀ request other, R other (start request)
  goesOn : ∀ store others tx tx', Placed I P R store others tx → U store others tx →
    exec store others tx = .goesOn tx' → P store tx' ∧ ∀ other ∈ others, R tx' other
  commits : ∀ store others tx store', Placed I P R store others tx → U store others tx →
    exec store others tx = .commits store' →
    I store' ∧ ∀ other, P store other → R tx other → P store' other

theorem Rule.along (rule : Rule start exec U I P R) {Q : τ → Prop} {V : σ → List τ → τ → Prop}
    (starts : ∀ request, Q (start request))
    (goesOn : ∀ store others tx tx', P store tx → Q tx → exec store others tx = .goesOn tx' → Q tx')
    (met : ∀ store others tx, Q tx → V store others tx → U store others tx) :
    Rule start exec V I (fun store tx => P store tx ∧ Q tx) R where
  symm := rule.symm
  starts store request holds := ⟨rule.starts store request holds, starts request⟩
  startsApart := rule.startsApart
  goesOn store others tx tx' placed v ran := by
    have placed' : Placed I P R store others tx :=
      ⟨placed.holds, placed.fits.1, fun other mem =>
        ⟨(placed.rest other mem).1.1, (placed.rest other mem).2⟩⟩
    obtain ⟨fits, apart⟩ := rule.goesOn _ _ _ _ placed' (met _ _ _ placed.fits.2 v) ran
    exact ⟨⟨fits, goesOn _ _ _ _ placed.fits.1 placed.fits.2 ran⟩, apart⟩
  commits store others tx store' placed v ran := by
    have placed' : Placed I P R store others tx :=
      ⟨placed.holds, placed.fits.1, fun other mem =>
        ⟨(placed.rest other mem).1.1, (placed.rest other mem).2⟩⟩
    obtain ⟨holds, rest⟩ := rule.commits _ _ _ _ placed' (met _ _ _ placed.fits.2 v) ran
    exact ⟨holds, fun other fits apart => ⟨rest other fits.1 apart, fits.2⟩⟩

theorem Fits.step (rule : Rule start exec U I P R) {s : Interleaved σ τ} (h : Fits I P R s)
    {m : Move ρ} (meets : Meets U s m) : Fits I P R (Interleaved.step start exec s m) := by
  cases m with
  | start request => exact h.enter (rule.starts _ _ h.store) (rule.startsApart request)
  | rollback n => exact h.leave n
  | run n =>
    cases found : s.running[n]? with
    | none => simpa only [Interleaved.step, found] using h
    | some tx =>
      have placed := h.placed rule.symm found
      have met := meets tx found
      simp only [Interleaved.step, found]
      cases ran : exec s.store (s.others n) tx with
      | waits => exact h
      | fails error => exact h.leave n
      | goesOn tx' =>
        obtain ⟨fits, apart⟩ := rule.goesOn _ _ _ _ placed met ran
        exact h.goOn rule.symm found fits apart
      | commits store' =>
        obtain ⟨kept, rest⟩ := rule.commits _ _ _ _ placed met ran
        refine ⟨kept, fun other mem => ?_, (h.leave n).apart⟩
        exact rest other (placed.rest other mem).1 (placed.rest other mem).2

/-- **Invariant rule for interleaved transactions.** -/
theorem Fits.reachable (rule : Rule start exec U I P R) {init : Interleaved σ τ → Prop}
    (first : ∀ s, init s → Fits I P R s) {s : Interleaved σ τ}
    (h : Reachable init (Steps start exec U) s) : Fits I P R s := by
  refine h.invariant first ?_
  rintro s m _ - fits ⟨meets, rfl⟩
  exact fits.step rule meets

end Interleaved

end Lib
