import Mathlib.Algebra.Order.Ring.Rat
import Mathlib.Data.List.MinMax
import ShuttleWorks.Lib.Assoc
import ShuttleWorks.Lib.Transition

/-! The cache of bracket answers. A reader looks an answer up, rebuilds it from the committed rows
where there is none, and stores what it rebuilt; a write commits and drops what is stored. The
steps of all requests interleave in one process. -/

namespace Brackets.ResponseCache
open Lib

/-! ## The cache -/

inductive Namespace
  | bracket | displayState
  deriving DecidableEq, Repr

def ttlSeconds : ℚ := 2

def maxEntries : Nat := 256

variable {π σ : Type}

/-- When an answer was stored, and the answer, by namespace and tournament. -/
abbrev Cache (π : Type) := List ((Namespace × String) × ℚ × π)

def removeExpired (now : ℚ) (cache : Cache π) : Cache π :=
  cache.filter fun e => ¬ now - e.2.1 > ttlSeconds

def get (now : ℚ) (key : Namespace × String) (cache : Cache π) : Option π × Cache π :=
  match Assoc.get key cache with
  | none => (none, cache)
  | some (storedAt, payload) =>
    if now - storedAt > ttlSeconds then (none, Assoc.erase key cache) else (some payload, cache)

def evict : Nat → Cache π → Cache π
  | 0, cache => cache
  | n + 1, cache =>
    if cache.length > maxEntries then
      match cache.argmin (fun e => e.2.1) with
      | none => cache
      | some oldest => evict n (Assoc.erase oldest.1 cache)
    else cache

def put (now : ℚ) (key : Namespace × String) (payload : π) (cache : Cache π) : Cache π :=
  let cache := Assoc.set key (now, payload) (removeExpired now cache)
  evict cache.length cache

def invalidate (tournamentId : String) (cache : Cache π) : Cache π :=
  cache.filter fun e => e.1.2 ≠ tournamentId

theorem evict_subset (n : Nat) (cache : Cache π) : evict n cache ⊆ cache := by
  induction n generalizing cache with
  | zero => exact fun _ h => h
  | succ n ih =>
    unfold evict
    split
    · split
      · exact fun _ h => h
      · exact fun e h => List.mem_of_mem_filter (ih _ h)
    · exact fun _ h => h

theorem mem_put {now : ℚ} {key : Namespace × String} {payload : π} {cache : Cache π}
    {e : (Namespace × String) × ℚ × π} (h : e ∈ put now key payload cache) :
    e = (key, now, payload) ∨ e ∈ cache :=
  (Assoc.mem_of_mem_set (evict_subset _ _ h)).imp_right List.mem_of_mem_filter

theorem get_subset {now : ℚ} {key : Namespace × String} {cache : Cache π} :
    (get now key cache).2 ⊆ cache := by
  unfold get
  split
  · exact fun _ h => h
  · split
    · exact fun _ h => List.mem_of_mem_filter h
    · exact fun _ h => h

theorem mem_of_get {now : ℚ} {key : Namespace × String} {cache : Cache π} {payload : π}
    (h : (get now key cache).1 = some payload) : ∃ storedAt, (key, storedAt, payload) ∈ cache := by
  unfold get at h
  split at h
  · cases h
  · next storedAt payload' found =>
    split at h
    · cases h
    · cases h
      exact ⟨storedAt, Assoc.mem_of_get found⟩

/-! ## The requests -/

/-- The routes that write a bracket. -/
inductive Route
  | createBracket | deleteBracket | scheduleNextRound | commitNextRound | upsertEvent
  | patchEventConfig | generateEvent | generateNextRound | deleteEvent | recordMatchResult
  | submitBracketCommand | matchAction | pinBracketMatch | assignBracketCourt
  | unassignBracketCourt | clearBracketCourt | importTournamentJson | importTournamentCsv
  deriving DecidableEq, Repr

/-- `upsert_event` drops the answers inside its transaction, every other route after it. -/
def Route.invalidatesFirst : Route → Bool
  | .upsertEvent => true
  | _ => false

/-- An answer, and how many commits there had been when its rows were read. -/
structure Payload (σ : Type) where
  session : σ
  version : Nat
  deriving DecidableEq, Repr

inductive Stage (σ : Type)
  | begun
  | missed
  | hydrated (payload : Payload σ)
  | answered (payload : Payload σ)
  | notFound
  deriving DecidableEq, Repr

def Stage.ofCached {σ : Type} : Option (Payload σ) → Stage σ
  | some payload => .answered payload
  | none => .missed

def Stage.held {σ : Type} : Stage σ → Option (Payload σ)
  | .hydrated payload => some payload
  | _ => none

/-- A `GET` of the bracket, with the commits of the writes that had returned when it began. -/
structure Reader (σ : Type) where
  tournamentId : String
  returned : List Nat
  stage : Stage σ
  deriving DecidableEq, Repr

/-- A write: the number of its commit, once there is one, and how far it is otherwise. -/
structure Writer where
  tournamentId : String
  route : Route
  version : Option Nat := none
  invalidated : Bool := false
  returned : Bool := false
  deriving DecidableEq, Repr

/-- The process: the committed sessions, the cache and the requests. -/
structure Server (σ : Type) where
  rows : String → Option σ
  commits : Nat := 0
  cache : Cache (Payload σ) := []
  readers : List (Reader σ) := []
  writers : List Writer := []

inductive Action (σ : Type)
  | beginGet (tournamentId : String)
  | lookup (i : Nat) (now : ℚ)
  | hydrate (i : Nat)
  | put (i : Nat) (now : ℚ)
  | beginWrite (tournamentId : String) (route : Route)
  | commit (i : Nat) (session : Option σ)
  | invalidate (i : Nat)
  | respond (i : Nat)

namespace Server

def setReader (s : Server σ) (i : Nat) (r : Reader σ) (stage : Stage σ) : Server σ :=
  { s with readers := s.readers.set i { r with stage } }

def beginGet (s : Server σ) (tournamentId : String) : Server σ :=
  let returned := s.writers.filter fun w => w.tournamentId = tournamentId ∧ w.returned
  { s with readers := s.readers ++ [⟨tournamentId, returned.filterMap Writer.version, .begun⟩] }

def lookup (s : Server σ) (i : Nat) (now : ℚ) : Server σ :=
  match s.readers[i]? with
  | some ⟨tournamentId, returned, .begun⟩ =>
    let found := get now (.bracket, tournamentId) s.cache
    { s with cache := found.2 }.setReader i ⟨tournamentId, returned, .begun⟩ (.ofCached found.1)
  | _ => s

def hydrate (s : Server σ) (i : Nat) : Server σ :=
  match s.readers[i]? with
  | some ⟨tournamentId, returned, .missed⟩ =>
    s.setReader i ⟨tournamentId, returned, .missed⟩ (match s.rows tournamentId with
      | some session => .hydrated ⟨session, s.commits⟩
      | none => .notFound)
  | _ => s

def put (s : Server σ) (i : Nat) (now : ℚ) : Server σ :=
  match s.readers[i]? with
  | some ⟨tournamentId, returned, .hydrated payload⟩ =>
    { s with cache := ResponseCache.put now (.bracket, tournamentId) payload s.cache }.setReader
      i ⟨tournamentId, returned, .hydrated payload⟩ (.answered payload)
  | _ => s

def beginWrite (s : Server σ) (tournamentId : String) (route : Route) : Server σ :=
  { s with writers := s.writers ++ [{ tournamentId, route }] }

def commit (s : Server σ) (i : Nat) (session : Option σ) : Server σ :=
  match s.writers[i]? with
  | some w =>
    if w.version = none ∧ (w.route.invalidatesFirst → w.invalidated) then
      { s with
        rows := fun t => if t = w.tournamentId then session else s.rows t
        commits := s.commits + 1
        writers := s.writers.set i { w with version := some (s.commits + 1) } }
    else s
  | none => s

def invalidate (s : Server σ) (i : Nat) : Server σ :=
  match s.writers[i]? with
  | some w =>
    if w.invalidated = false ∧ (w.route.invalidatesFirst = false → w.version.isSome) then
      { s with
        cache := ResponseCache.invalidate w.tournamentId s.cache
        writers := s.writers.set i { w with invalidated := true } }
    else s
  | none => s

def respond (s : Server σ) (i : Nat) : Server σ :=
  match s.writers[i]? with
  | some w =>
    if w.version.isSome ∧ w.invalidated then
      { s with writers := s.writers.set i { w with returned := true } }
    else s
  | none => s

/-- One step of one request. A request that is not there yet, or not so far, does nothing. -/
def step (s : Server σ) : Action σ → Server σ
  | .beginGet tournamentId => s.beginGet tournamentId
  | .lookup i now => s.lookup i now
  | .hydrate i => s.hydrate i
  | .put i now => s.put i now
  | .beginWrite tournamentId route => s.beginWrite tournamentId route
  | .commit i session => s.commit i session
  | .invalidate i => s.invalidate i
  | .respond i => s.respond i

end Server

/-! ## What an answer must show -/

/-- A request that began after a write had returned is not answered with what was read before
that write's commit. -/
def Reader.Fresh (r : Reader σ) : Prop :=
  match r.stage with
  | .answered payload => ∀ v ∈ r.returned, v ≤ payload.version
  | _ => True

instance (r : Reader σ) : Decidable r.Fresh := by
  unfold Reader.Fresh
  split <;> infer_instance

def Server.Fresh (s : Server σ) : Prop := ∀ r ∈ s.readers, r.Fresh

instance (s : Server σ) : Decidable s.Fresh :=
  inferInstanceAs (Decidable (∀ r ∈ s.readers, r.Fresh))

/-- The write of the tournament has dropped the answers, and its commit is not shown by what was
read after `version` commits. -/
def Writer.Outdates (w : Writer) (tournamentId : String) (version : Nat) : Prop :=
  w.tournamentId = tournamentId ∧ w.invalidated ∧ ∃ v ∈ w.version, version < v

instance (w : Writer) (tournamentId : String) (version : Nat) :
    Decidable (w.Outdates tournamentId version) :=
  inferInstanceAs (Decidable (_ ∧ _ ∧ ∃ v ∈ w.version, version < v))

/-- No answer is stored that was read before the commit of a write which has dropped the answers,
and no route that drops them first commits while one is stored. -/
def Server.Careful (s : Server σ) : Action σ → Prop
  | .put i _ => ∀ r ∈ s.readers[i]?, ∀ payload ∈ r.stage.held,
    ∀ w ∈ s.writers, ¬ w.Outdates r.tournamentId payload.version
  | .commit i _ => ∀ w ∈ s.writers[i]?, w.invalidated →
    ∀ e ∈ s.cache, e.1 ≠ (.bracket, w.tournamentId)
  | _ => True

instance (s : Server σ) (a : Action σ) : Decidable (s.Careful a) := by
  unfold Server.Careful
  split <;> infer_instance

/-- What holds of the requests and of the cache. -/
structure Server.Sound (s : Server σ) : Prop where
  known : ∀ w ∈ s.writers, ∀ v ∈ w.version, v ≤ s.commits
  stored : ∀ e ∈ s.cache, ∀ w ∈ s.writers, e.1.1 = .bracket →
    ¬ w.Outdates e.1.2 e.2.2.version
  ended : ∀ w ∈ s.writers, w.returned → w.invalidated
  seen : ∀ r ∈ s.readers, ∀ v ∈ r.returned, ∃ (i : Nat) (w : Writer), s.writers[i]? = some w ∧
    w.tournamentId = r.tournamentId ∧ w.invalidated ∧ w.version = some v
  hydrated : ∀ r ∈ s.readers, ∀ payload ∈ r.stage.held, ∀ v ∈ r.returned, v ≤ payload.version
  fresh : s.Fresh

namespace Server.Sound

variable {s : Server σ} {i : Nat}

theorem start (rows : String → Option σ) : Server.Sound ({ rows } : Server σ) where
  known w hw := by cases hw
  stored e he := by cases he
  ended w hw := by cases hw
  seen r hr := by cases hr
  hydrated r hr := by cases hr
  fresh r hr := by cases hr

theorem setReader (h : s.Sound) {r : Reader σ} (hr : s.readers[i]? = some r)
    {cache : Cache (Payload σ)} {stage : Stage σ}
    (stored : ∀ e ∈ cache, ∀ w ∈ s.writers, e.1.1 = .bracket → ¬ w.Outdates e.1.2 e.2.2.version)
    (hydrated : ∀ payload ∈ stage.held, ∀ v ∈ r.returned, v ≤ payload.version)
    (fresh : ({ r with stage } : Reader σ).Fresh) :
    Server.Sound ({ s with cache }.setReader i r stage) where
  known := h.known
  stored := stored
  ended := h.ended
  seen r' hr' := by
    rcases List.mem_or_eq_of_mem_set hr' with old | rfl
    · exact h.seen r' old
    · exact h.seen r (List.mem_of_getElem? hr)
  hydrated r' hr' := by
    rcases List.mem_or_eq_of_mem_set hr' with old | rfl
    · exact h.hydrated r' old
    · exact hydrated
  fresh r' hr' := by
    rcases List.mem_or_eq_of_mem_set hr' with old | rfl
    · exact h.fresh r' old
    · exact fresh

theorem setWriter (h : s.Sound) {w : Writer} (hw : s.writers[i]? = some w) (w' : Writer)
    {rows : String → Option σ} {commits : Nat} {cache : Cache (Payload σ)}
    (tournament : w'.tournamentId = w.tournamentId) (grows : s.commits ≤ commits)
    (version : ∀ v ∈ w.version, v ∈ w'.version) (invalidated : w.invalidated → w'.invalidated)
    (known : ∀ v ∈ w'.version, v ≤ commits) (kept : cache ⊆ s.cache)
    (stored : ∀ e ∈ cache, e.1.1 = .bracket → ¬ w'.Outdates e.1.2 e.2.2.version)
    (ended : w'.returned → w'.invalidated) :
    Server.Sound { s with rows, commits, cache, writers := s.writers.set i w' } where
  known u hu v hv := by
    rcases List.mem_or_eq_of_mem_set hu with old | rfl
    · exact (h.known u old v hv).trans grows
    · exact known v hv
  stored e he u hu bracket := by
    rcases List.mem_or_eq_of_mem_set hu with old | rfl
    · exact h.stored e (kept he) u old bracket
    · exact stored e he bracket
  ended u hu := by
    rcases List.mem_or_eq_of_mem_set hu with old | rfl
    · exact h.ended u old
    · exact ended
  seen r hr v hv := by
    obtain ⟨j, u, hu, same, dropped, shown⟩ := h.seen r hr v hv
    refine ⟨j, ?_⟩
    by_cases at_i : i = j
    · subst at_i
      rw [Option.mem_unique hu hw] at same dropped shown
      refine ⟨w', ?_, tournament.trans same, invalidated dropped, version v shown⟩
      have inside := (List.getElem?_eq_some_iff.mp hw).1
      simp [inside]
    · exact ⟨u, by rwa [List.getElem?_set_ne at_i], same, dropped, shown⟩
  hydrated := h.hydrated
  fresh := h.fresh

theorem beginGet (h : s.Sound) (tournamentId : String) :
    (s.beginGet tournamentId).Sound where
  known := h.known
  stored := h.stored
  ended := h.ended
  seen r hr v hv := by
    rcases List.mem_append.mp hr with old | new
    · exact h.seen r old v hv
    · rw [List.mem_singleton.mp new] at hv ⊢
      obtain ⟨w, hw, shown⟩ := List.mem_filterMap.mp hv
      obtain ⟨member, same⟩ := List.mem_filter.mp hw
      obtain ⟨same, returned⟩ := of_decide_eq_true same
      obtain ⟨i, hi⟩ := List.mem_iff_getElem?.mp member
      exact ⟨i, w, hi, same, h.ended w member returned, shown⟩
  hydrated r hr payload held := by
    rcases List.mem_append.mp hr with old | new
    · exact h.hydrated r old payload held
    · rw [List.mem_singleton.mp new] at held
      cases held
  fresh r hr := by
    rcases List.mem_append.mp hr with old | new
    · exact h.fresh r old
    · rw [List.mem_singleton.mp new]
      trivial

theorem beginWrite (h : s.Sound) (tournamentId : String) (route : Route) :
    (s.beginWrite tournamentId route).Sound where
  known w hw v hv := by
    rcases List.mem_append.mp hw with old | new
    · exact h.known w old v hv
    · rw [List.mem_singleton.mp new] at hv
      cases hv
  stored e he w hw bracket outdates := by
    rcases List.mem_append.mp hw with old | new
    · exact h.stored e he w old bracket outdates
    · rw [List.mem_singleton.mp new] at outdates
      cases outdates.2.1
  ended w hw returned := by
    rcases List.mem_append.mp hw with old | new
    · exact h.ended w old returned
    · rw [List.mem_singleton.mp new] at returned
      cases returned
  seen r hr v hv := by
    obtain ⟨i, w, hw, rest⟩ := h.seen r hr v hv
    exact ⟨i, w, List.getElem?_append_left (List.getElem?_eq_some_iff.mp hw).1 ▸ hw, rest⟩
  hydrated := h.hydrated
  fresh := h.fresh

theorem found (h : s.Sound) {r : Reader σ} (hr : s.readers[i]? = some r) {now : ℚ}
    {payload : Payload σ} (cached : (get now (.bracket, r.tournamentId) s.cache).1 = some payload) :
    ∀ v ∈ r.returned, v ≤ payload.version := by
  intro v hv
  obtain ⟨storedAt, member⟩ := mem_of_get cached
  obtain ⟨j, w, hw, same, dropped, shown⟩ := h.seen r (List.mem_of_getElem? hr) v hv
  refine not_lt.mp fun late => h.stored _ member w (List.mem_of_getElem? hw) rfl ?_
  exact ⟨same, dropped, v, shown, late⟩

theorem lookup (h : s.Sound) (i : Nat) (now : ℚ) : (s.lookup i now).Sound := by
  unfold Server.lookup
  split
  · next tournamentId returned hr =>
    refine h.setReader hr (fun e he w hw => h.stored e (get_subset he) w hw) ?_ ?_
    · intro payload held
      cases cached : (get now (.bracket, tournamentId) s.cache).1 <;>
        (rw [cached] at held; cases held)
    · cases cached : (get now (.bracket, tournamentId) s.cache).1 with
      | none => trivial
      | some payload => exact h.found hr cached
  · exact h

theorem hydrate (h : s.Sound) (i : Nat) : (s.hydrate i).Sound := by
  unfold Server.hydrate
  split
  · next tournamentId returned hr =>
    refine h.setReader hr h.stored ?_ ?_
    · intro payload held v hv
      obtain ⟨j, w, hw, -, -, shown⟩ := h.seen _ (List.mem_of_getElem? hr) v hv
      have known := h.known w (List.mem_of_getElem? hw) v shown
      split at held
      · cases held
        exact known
      · cases held
    · unfold Reader.Fresh
      cases s.rows tournamentId <;> trivial
  · exact h

theorem put (h : s.Sound) {now : ℚ} (careful : s.Careful (.put i now)) :
    (s.put i now).Sound := by
  unfold Server.put
  split
  · next tournamentId returned payload hr =>
    refine h.setReader hr (fun e he w hw bracket => ?_) (fun payload held => nomatch held) ?_
    · rcases mem_put he with rfl | old
      · exact careful _ hr payload rfl w hw
      · exact h.stored e old w hw bracket
    · exact h.hydrated _ (List.mem_of_getElem? hr) payload rfl
  · exact h

theorem commit (h : s.Sound) {session : Option σ} (careful : s.Careful (.commit i session)) :
    (s.commit i session).Sound := by
  unfold Server.commit
  split
  · next w hw =>
    split
    · next first =>
      refine h.setWriter hw _ rfl (Nat.le_succ _) (fun v hv => ?_) id (fun v hv => ?_)
        (fun _ he => he) (fun e he bracket outdates => ?_) (h.ended w (List.mem_of_getElem? hw))
      · rw [first.1] at hv
        cases hv
      · cases hv
        exact le_rfl
      · exact careful w hw outdates.2.1 e he (Prod.ext bracket outdates.1.symm)
    · exact h
  · exact h

theorem invalidate (h : s.Sound) (i : Nat) : (s.invalidate i).Sound := by
  unfold Server.invalidate
  split
  · next w hw =>
    split
    · refine h.setWriter hw { w with invalidated := true } rfl le_rfl (fun v hv => hv)
        (fun _ => rfl) (h.known w (List.mem_of_getElem? hw)) (List.filter_subset_self _)
        (fun e he bracket outdates => ?_) (fun _ => rfl)
      have other := of_decide_eq_true (List.mem_filter.mp he).2
      exact other outdates.1.symm
    · exact h
  · exact h

theorem respond (h : s.Sound) (i : Nat) : (s.respond i).Sound := by
  unfold Server.respond
  split
  · next w hw =>
    split
    · next done =>
      exact h.setWriter hw _ rfl le_rfl (fun v hv => hv) id (h.known w (List.mem_of_getElem? hw))
        (fun _ he => he)
        (fun e he bracket => h.stored e he w (List.mem_of_getElem? hw) bracket) (fun _ => done.2)
    · exact h
  · exact h

theorem step (h : s.Sound) (a : Action σ) (careful : s.Careful a) : (s.step a).Sound := by
  cases a with
  | beginGet t => exact h.beginGet t
  | lookup i now => exact h.lookup i now
  | hydrate i => exact h.hydrate i
  | put i now => exact h.put careful
  | beginWrite t route => exact h.beginWrite t route
  | commit i session => exact h.commit careful
  | invalidate i => exact h.invalidate i
  | respond i => exact h.respond i

end Server.Sound

/-- **Nobody reads what was written over.** In every interleaving in which no answer is stored
that was read before the commit of a write which has dropped the answers, and no route that drops
them first commits while one is stored, a `GET` that begins after a write has returned is answered
with what was read after the write's commit. -/
theorem answers_fresh (rows : String → Option σ) (actions : List (Action σ))
    (careful : Throughout Server.step Server.Careful { rows } actions) :
    (served Server.step { rows } actions).Fresh :=
  (careful.invariant (Server.Sound.start rows) fun _ a h ok => h.step a ok).fresh

/-- A reader that looks the answer up, rebuilds and stores it before a result is recorded, and one
that begins after the result was. -/
theorem answers_fresh_recorded :
    (served Server.step ({ rows := fun _ => some 0 } : Server Nat)
      [.beginGet "t", .lookup 0 0, .hydrate 0, .put 0 0, .beginWrite "t" .submitBracketCommand,
        .commit 0 (some 1), .invalidate 0, .respond 0, .beginGet "t", .lookup 1 1, .hydrate 1,
        .put 1 1]).Fresh ∧
      (served Server.step ({ rows := fun _ => some 0 } : Server Nat)
        [.beginGet "t", .lookup 0 0, .hydrate 0, .put 0 0, .beginWrite "t" .submitBracketCommand,
          .commit 0 (some 1), .invalidate 0, .respond 0, .beginGet "t", .lookup 1 1, .hydrate 1,
          .put 1 1]).readers.map Reader.stage =
        [.answered ⟨0, 0⟩, .answered ⟨1, 1⟩] :=
  ⟨answers_fresh _ _ (by decide +kernel), by decide +kernel⟩

/-- A reader that rebuilt its answer before the result was recorded stores it after the answers
were dropped, and the next reader is given it. -/
theorem stale_answer :
    ¬ ∀ actions : List (Action Nat),
      (served Server.step ({ rows := fun _ => some 0 } : Server Nat) actions).Fresh := by
  intro every
  have stale := every [.beginGet "t", .lookup 0 0, .hydrate 0,
    .beginWrite "t" .submitBracketCommand, .commit 0 (some 1), .invalidate 0, .respond 0,
    .put 0 0, .beginGet "t", .lookup 1 1]
  revert stale
  decide +kernel

end Brackets.ResponseCache
