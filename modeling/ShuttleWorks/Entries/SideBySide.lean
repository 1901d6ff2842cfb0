import Mathlib.Data.List.Pairwise
import ShuttleWorks.Entries.ActRows

/-! What holds while acts are recorded side by side. Each transaction adds its acts and their
entries behind whatever the others have committed by then, under keys nobody else holds. -/

namespace Entries
open Lib
open Sync (Uuid)

variable {p : Platform} {l : Locking} {r r' : Registry} {s : Submission}

/-! ## What writes add -/

def Rewrites (known : List Core) : RowWrite → Prop
  | .submission _ => False
  | .entry e => e.core ∈ known
  | .player _ | .invitation _ | .touch _ => True

theorem submissions_writeAll {ws : List RowWrite} {known : List Core}
    (h : ∀ w ∈ ws, Rewrites known w) (r : Registry) :
    (r.writeAll ws).submissions = r.submissions := by
  induction ws generalizing r with
  | nil => rfl
  | cons w ws ih =>
    have kind := h w List.mem_cons_self
    refine (ih (fun w' hw' => h w' (List.mem_cons_of_mem _ hw')) (r.write w)).trans ?_
    cases w with
    | submission s => exact kind.elim
    | entry | player | invitation | touch => rfl

theorem cores_writeAll {ws : List RowWrite} {known : List Core}
    (h : ∀ w ∈ ws, Rewrites known w) (there : ∀ c ∈ known, c ∈ cores r) :
    cores (r.writeAll ws) = cores r := by
  induction ws generalizing r with
  | nil => rfl
  | cons w ws ih =>
    have kind := h w List.mem_cons_self
    have first : cores (r.write w) = cores r := by
      cases w with
      | submission s => exact kind.elim
      | entry e => exact cores_put_same (there _ kind)
      | player | invitation | touch => rfl
    refine Eq.trans (ih (r := r.write w) (fun w' hw' => h w' (List.mem_cons_of_mem _ hw')) ?_) first
    exact fun c hc => first ▸ there c hc

/-- The writes add these acts and these entries to every registry that has none of them yet and
has the entries they rely on; what they add is locked. -/
structure Adds (ws : List RowWrite) (relied : List Core) (acts : List Submission)
    (created : List Core) : Prop where
  entries : ∀ r : Registry, (∀ c ∈ relied, c ∈ cores r) → (∀ c ∈ created, ¬ r.entries.Has c.id) →
    cores (r.writeAll ws) = cores r ++ created
  submissions : ∀ r : Registry, (∀ s ∈ acts, ¬ r.submissions.Has s.id) →
    (r.writeAll ws).submissions.rows = r.submissions.rows ++ acts
  heldActs : ∀ s ∈ acts, ∀ k ∈ RowWrite.keys (.submission s), k ∈ ws.flatMap RowWrite.keys
  heldEntries : ∀ c ∈ created, .entry c.id ∈ ws.flatMap RowWrite.keys

namespace Adds

variable {ws ws' : List RowWrite} {relied relied' created : List Core} {acts : List Submission}

theorem nothing : Adds [] [] [] [] := by
  constructor <;> simp

theorem rewrite (h : Adds ws relied acts created)
    (quiet : ∀ w ∈ ws', Rewrites (relied' ++ created) w) :
    Adds (ws ++ ws') (relied ++ relied') acts created := by
  have split : ∀ r : Registry, r.writeAll (ws ++ ws') = (r.writeAll ws).writeAll ws' :=
    fun r => r.writeAll_append ws ws'
  refine ⟨fun r there fresh => ?_, fun r fresh => ?_, ?_, ?_⟩
  · have first := h.entries r (fun c hc => there c (List.mem_append_left _ hc)) fresh
    rw [split, cores_writeAll quiet ?_, first]
    intro c hc
    rw [first]
    rcases List.mem_append.mp hc with hc | hc
    · exact List.mem_append_left _ (there c (List.mem_append_right _ hc))
    · exact List.mem_append_right _ hc
  · rw [split, submissions_writeAll quiet, h.submissions r fresh]
  · intro s hs k hk
    rw [List.flatMap_append]
    exact List.mem_append_left _ (h.heldActs s hs k hk)
  · intro c hc
    rw [List.flatMap_append]
    exact List.mem_append_left _ (h.heldEntries c hc)

theorem act (h : Adds ws relied acts created) (new : ∀ s' ∈ acts, s'.id ≠ s.id) :
    Adds (ws ++ [.submission s]) relied (acts ++ [s]) created := by
  refine ⟨fun r there fresh => ?_, fun r fresh => ?_, ?_, ?_⟩
  · rw [r.writeAll_append]
    exact h.entries r there fresh
  · have before := h.submissions r fun s' hs' => fresh s' (List.mem_append_left _ hs')
    have absent : ¬ (r.writeAll ws).submissions.Has s.id := by
      rw [Table.Has, before, List.map_append, List.mem_append, not_or]
      refine ⟨fresh s (by simp), fun mem => ?_⟩
      obtain ⟨s', hs', same⟩ := List.mem_map.mp mem
      exact new s' hs' same
    rw [r.writeAll_append]
    refine (Table.rows_put_of_not_has absent).trans ?_
    rw [before, List.append_assoc]
  · intro s' hs' k hk
    rw [List.flatMap_append, List.mem_append]
    rcases List.mem_append.mp hs' with hs' | hs'
    · exact .inl (h.heldActs s' hs' k hk)
    · obtain rfl := List.mem_singleton.mp hs'
      exact .inr (by simpa using hk)
  · intro c hc
    rw [List.flatMap_append]
    exact List.mem_append_left _ (h.heldEntries c hc)

theorem entry (h : Adds ws relied acts created) {e : Entry} (new : ∀ c ∈ created, c.id ≠ e.id) :
    Adds (ws ++ [.entry e]) relied acts (created ++ [e.core]) := by
  refine ⟨fun r there fresh => ?_, fun r fresh => ?_, ?_, ?_⟩
  · have before := h.entries r there fun c hc => fresh c (List.mem_append_left _ hc)
    have absent : ¬ (r.writeAll ws).entries.Has e.id := by
      rw [has_iff_mem_cores, before, List.map_append, List.mem_append, not_or]
      refine ⟨?_, fun mem => ?_⟩
      · rw [← has_iff_mem_cores]
        exact fresh e.core (by simp)
      · obtain ⟨c, hc, same⟩ := List.mem_map.mp mem
        exact new c hc same
    rw [r.writeAll_append]
    refine (cores_put_new absent).trans ?_
    rw [before, List.append_assoc]
  · rw [r.writeAll_append]
    exact h.submissions r fresh
  · intro s hs k hk
    rw [List.flatMap_append]
    exact List.mem_append_left _ (h.heldActs s hs k hk)
  · intro c hc
    rw [List.flatMap_append, List.mem_append]
    rcases List.mem_append.mp hc with hc | hc
    · exact .inl (h.heldEntries c hc)
    · obtain rfl := List.mem_singleton.mp hc
      exact .inr (by simp [RowWrite.keys, Entry.core])

end Adds

/-! ## Players written -/

theorem has_player_write {w : RowWrite} {id : Uuid} :
    (r.write w).players.Has id ↔ r.players.Has id ∨ ∃ x, w = .player x ∧ x.id = id := by
  cases w with
  | player x =>
    simp only [Registry.write, Table.has_put_iff, RowWrite.player.injEq, exists_eq_left']
    rw [or_comm, eq_comm]
  | submission | entry | invitation | touch => simp [Registry.write]

theorem has_player_writeAll {ws : List RowWrite} {id : Uuid} :
    (r.writeAll ws).players.Has id ↔
      r.players.Has id ∨ ∃ x, RowWrite.player x ∈ ws ∧ x.id = id := by
  induction ws generalizing r with
  | nil => simp
  | cons w ws ih =>
    refine (ih (r := r.write w)).trans ?_
    rw [has_player_write, or_assoc]
    refine or_congr_right ⟨?_, ?_⟩
    · rintro (⟨x, rfl, same⟩ | ⟨x, mem, same⟩)
      · exact ⟨x, List.mem_cons_self, same⟩
      · exact ⟨x, List.mem_cons_of_mem _ mem, same⟩
    · rintro ⟨x, mem, same⟩
      rcases List.mem_cons.mp mem with first | mem
      · exact .inl ⟨x, first.symm, same⟩
      · exact .inr ⟨x, mem, same⟩

theorem has_player_append {ws ws' : List RowWrite} {id : Uuid}
    (h : (r.writeAll ws).players.Has id) : (r.writeAll (ws ++ ws')).players.Has id := by
  rw [Registry.writeAll_append]
  exact has_player_writeAll.mpr (.inl h)

theorem has_player_under {ws ws' : List RowWrite} {id : Uuid}
    (h : (r.writeAll ws').players.Has id) : ((r.writeAll ws).writeAll ws').players.Has id := by
  rw [has_player_writeAll] at h ⊢
  exact h.imp_left fun stored => has_player_writeAll.mpr (.inl stored)

theorem has_player_changes {view : Registry} {ws : List RowWrite}
    (same : view.players = (r.writeAll ws).players) {id : Uuid} (h : r'.players.Has id) :
    (r.writeAll (ws ++ view.changes r')).players.Has id := by
  obtain ⟨x, hx, rfl⟩ := Table.has_iff.mp h
  rw [Registry.writeAll_append, has_player_writeAll, ← same]
  by_cases old : view.players.get x.id = some x
  · exact .inl (Table.has_iff.mpr ⟨x, Table.mem_of_get old, rfl⟩)
  · have mem : x ∈ view.players.changes r'.players := Table.mem_changes.mpr ⟨hx, old⟩
    exact .inr ⟨x, by simp [Registry.changes, mem], rfl⟩

/-! ## Acts under one key -/

def SameKey (s s' : Submission) : Prop :=
  s.accountId = s'.accountId ∧ s.idempotencyKey = s'.idempotencyKey ∧ s.idempotencyKey ≠ none

def UniqueKeys (acts : List Submission) : Prop := acts.Pairwise fun s s' => ¬ SameKey s s'

theorem SameKey.symm {s' : Submission} (h : SameKey s s') : SameKey s' s :=
  ⟨h.1.symm, h.2.1.symm, h.2.1 ▸ h.2.2⟩

def ActOf (call : CreateCall) (s : Submission) : Prop :=
  s.accountId = call.form.accountId ∧
    s.idempotencyKey = call.form.idempotencyKey.filter (fun k => k ≠ "")

theorem actOf_submission (call : CreateCall) (id : Uuid) : ActOf call (call.submission id) :=
  ⟨rfl, rfl⟩

theorem keyTaken_iff {form : SubmissionForm} {r : Registry} : KeyTaken r form ↔
    ∃ s ∈ r.submissions.rows, s.accountId = form.accountId ∧
      s.idempotencyKey = form.idempotencyKey.filter (fun k => k ≠ "") ∧ s.idempotencyKey ≠ none := by
  unfold KeyTaken
  constructor
  · rintro ⟨key, given, nonempty, s, hs, account, same⟩
    refine ⟨s, hs, account, ?_, by simp [same]⟩
    rw [given, same]
    simp [Option.filter, nonempty]
  · rintro ⟨s, hs, account, same, keyed⟩
    cases given : form.idempotencyKey with
    | none =>
      rw [given] at same
      exact absurd same keyed
    | some key =>
      rw [given] at same
      by_cases empty : key = ""
      · exact absurd (by simpa [Option.filter, empty] using same) keyed
      · exact ⟨key, rfl, empty, s, hs, account, by simpa [Option.filter, empty] using same⟩

/-! ## Entries of an act -/

/-- One entry for every spec and every event it selects: the specs' players in order, and with
each player the events. -/
def Entered (specs : List PlayerInput) (players : List Uuid) (cs : List Core) : Prop :=
  ∃ selections : List (List Uuid), List.Forall₂ Selects specs selections ∧
    players.length = selections.length ∧
    cs.map (fun c => (c.entryPlayerId, c.entryEventId)) =
      (players.zip selections).flatMap fun x => x.2.map (some x.1, ·)

theorem entered_nil : Entered [] [] [] := ⟨[], .nil, rfl, rfl⟩

theorem Entered.snoc {specs : List PlayerInput} {players : List Uuid} {cs part : List Core}
    (h : Entered specs players cs) {spec : PlayerInput} {player : Uuid} {selection : List Uuid}
    (selects : Selects spec selection)
    (rows : part.map (fun c => (c.entryPlayerId, c.entryEventId)) =
      selection.map (some player, ·)) :
    Entered (specs ++ [spec]) (players ++ [player]) (cs ++ part) := by
  obtain ⟨selections, all, length, same⟩ := h
  refine ⟨selections ++ [selection], ?_, by simp [length], ?_⟩
  · exact List.rel_append all (.cons selects .nil)
  · rw [List.map_append, same, rows, List.zip_append length, List.flatMap_append]
    simp

/-- An answer is right about the acts, entries and players it is held against. -/
def Known (acts : List Submission) (cs : List Core) (staff : Uuid → Prop) (a : CreateAnswer) :
    Prop :=
  ∃ s ∈ acts, s.id = a.result.submission ∧ ActOf a.call s ∧
    a.result.entries = (ofAct cs s.id).map Core.id ∧
    (a.result.replayed = false → Entered a.call.form.players a.players (ofAct cs s.id)) ∧
    ∀ id ∈ a.players, staff id

def recorded (answers : List CreateAnswer) : List Uuid :=
  (answers.filter fun a => !a.result.replayed).map (·.result.submission)

theorem recorded_append (answers answers' : List CreateAnswer) :
    recorded (answers ++ answers') = recorded answers ++ recorded answers' := by
  simp [recorded]

end Entries
