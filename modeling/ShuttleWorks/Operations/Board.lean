import ShuttleWorks.Operations.Commands
import ShuttleWorks.Sync.Delivery

/-! What a live write means: a change of the statuses that the matches of a
tournament show. Each write of the tables is such a change, and leaves the
operation log alone until the operation is appended. -/

namespace Operations
open Lib Sync

/-! ## Boards -/

/-- The status of every match. -/
abbrev Board := String → MatchStatus

def marks (es : List (String × MatchStatus)) (b : Board) : Board :=
  es.foldl (fun b p => Function.update b p.1 p.2) b

@[simp] theorem marks_nil (b : Board) : marks [] b = b := rfl

theorem marks_cons (p : String × MatchStatus) (es : List (String × MatchStatus)) (b : Board) :
    marks (p :: es) b = marks es (Function.update b p.1 p.2) := rfl

theorem marks_append (es fs : List (String × MatchStatus)) (b : Board) :
    marks (es ++ fs) b = marks fs (marks es b) := by
  simp [marks]

theorem marks_congr {es : List (String × MatchStatus)} {b b' : Board} {id : String}
    (h : b id = b' id ∨ ∃ p ∈ es, p.1 = id) : marks es b id = marks es b' id := by
  induction es generalizing b b' with
  | nil => simpa using h
  | cons p es ih =>
    rw [marks_cons, marks_cons]
    refine ih ?_
    by_cases named : id = p.1
    · exact Or.inl (by simp [named])
    · rcases h with h | ⟨q, hq, hid⟩
      · exact Or.inl (by simp [Function.update_of_ne named, h])
      · rcases List.mem_cons.mp hq with rfl | hq
        · exact absurd hid.symm named
        · exact Or.inr ⟨q, hq, hid⟩

variable {es : List (String × MatchStatus)} {status : MatchStatus} {t : Uuid} {s s' : LiveStore}
  {m : Match} {acc acc' : List Json × LiveStore} {p : String × MatchStateFields}
  {statuses : List (String × MatchStatus)}

theorem marks_of_same (same : ∀ p ∈ es, p.2 = status) {b : Board} {id : String}
    (h : b id = status ∨ ∃ p ∈ es, p.1 = id) : marks es b id = status := by
  have constant : ∀ fs : List (String × MatchStatus), (∀ p ∈ fs, p.2 = status) →
      marks fs (fun _ => status) id = status := by
    intro fs hfs
    induction fs with
    | nil => rfl
    | cons p fs ih =>
      have h₀ : Function.update (fun _ : String => status) p.1 p.2 = fun _ => status := by
        rw [hfs p List.mem_cons_self]
        exact Function.update_eq_self _ _
      rw [marks_cons, h₀]
      exact ih (fun q hq => hfs q (List.mem_cons_of_mem _ hq))
  rw [@marks_congr es b (fun _ => status) id h]
  exact constant es same

/-! ## Writes of the tables -/

/-- From one store to another a tournament's board changed by the entries; the log and the
boards of the other tournaments did not. -/
structure Writes (t : Uuid) (es : List (String × MatchStatus)) (s s' : LiveStore) : Prop where
  sync : s'.sync = s.sync
  board : s'.statusOf t = marks es (s.statusOf t)
  others : ∀ t', t' ≠ t → s'.statusOf t' = s.statusOf t'

theorem Writes.refl (t : Uuid) (s : LiveStore) : Writes t [] s s := ⟨rfl, rfl, fun _ _ => rfl⟩

theorem Writes.trans {fs : List (String × MatchStatus)} {s'' : LiveStore} (h : Writes t es s s')
    (h' : Writes t fs s' s'') : Writes t (es ++ fs) s s'' :=
  ⟨h'.sync.trans h.sync, by rw [h'.board, h.board, marks_append],
    fun t' other => (h'.others t' other).trans (h.others t' other)⟩

theorem statusOf_congr (rows : s'.matchRows = s.matchRows) (t : Uuid) :
    s'.statusOf t = s.statusOf t := by
  funext id
  simp [LiveStore.statusOf, rows]

theorem Writes.of_rows (sync : s'.sync = s.sync) (rows : s'.matchRows = s.matchRows) :
    Writes t [] s s' :=
  ⟨sync, statusOf_congr rows t, fun t' _ => statusOf_congr rows t'⟩

theorem put_writes (s : LiveStore) (m : Match) (tournament : m.tournamentId = t) :
    Writes t [(m.id, m.status)] s { s with matchRows := s.matchRows.put m } := by
  refine ⟨rfl, ?_, fun t' other => ?_⟩
  · funext id
    simp only [LiveStore.statusOf, Table.get_put, Match.key, tournament, Prod.mk.injEq, true_and,
      marks_cons, marks_nil, Function.update_apply]
    by_cases h : m.id = id
    · simp [h]
    · rw [if_neg h, if_neg (Ne.symm h)]
  · funext id
    simp only [LiveStore.statusOf, Table.get_put, Match.key, tournament, Prod.mk.injEq]
    rw [if_neg (fun h => other h.1.symm)]

theorem setStatus_writes {id : String} {expected : Option Nat}
    (h : s.setStatus t id status expected = .ok (m, s')) :
    Writes t [(id, status)] s s' ∧ m.id = id ∧ m.status = status := by
  unfold LiveStore.setStatus at h
  split at h
  · split at h
    · cases h
      exact ⟨put_writes s { tournamentId := t, id := id, status := status } rfl, rfl, rfl⟩
    · cases h
  · next row found =>
    have key : row.tournamentId = t ∧ row.id = id := by
      have := Table.key_of_get found
      simpa [Match.key] using this
    obtain ⟨rfl, rfl⟩ := key
    split at h
    · cases h
      exact ⟨put_writes s { row with status := status, version := row.version + 1 } rfl, rfl, rfl⟩
    · cases h

theorem upsertState_writes (s : LiveStore) (t : Uuid) (id : String) (fields : MatchStateFields) :
    Writes t [] s (s.upsertState t id fields).2 :=
  .of_rows rfl rfl

theorem mirrorCommandState_writes (s : LiveStore) (t : Uuid) (id : String) (target : MatchStatus)
    (stamp : String) : Writes t [] s (s.mirrorCommandState t id target stamp) :=
  .of_rows rfl rfl

theorem resetStates_writes (s : LiveStore) (t : Uuid) : Writes t [] s (s.resetStates t).2 :=
  .of_rows rfl rfl

theorem foldlM_writes {β γ : Type} {f : β × LiveStore → γ → Except LiveError (β × LiveStore)}
    {e : γ → List (String × MatchStatus)}
    (hf : ∀ acc a acc', f acc a = .ok acc' → Writes t (e a) acc.2 acc'.2) {l : List γ}
    {acc acc' : β × LiveStore} (h : l.foldlM f acc = .ok acc') :
    Writes t (l.flatMap e) acc.2 acc'.2 := by
  induction l generalizing acc with
  | nil =>
    cases h
    exact .refl t _
  | cons a l ih =>
    rw [List.foldlM_cons, bind_eq_ok] at h
    obtain ⟨mid, first, rest⟩ := h
    exact (hf acc a mid first).trans (ih rest)

theorem foldl_upsertState_writes (s : LiveStore) (t : Uuid) (ps : List (String × MatchStateFields)) :
    Writes t [] s (ps.foldl (fun s p => (s.upsertState t p.1 p.2).2) s) := by
  induction ps generalizing s with
  | nil => exact .refl t s
  | cons p ps ih => exact (upsertState_writes s t p.1 p.2).trans (ih _)

/-! ## Resetting -/

theorem mem_listForTournament :
    m ∈ s.listForTournament t ↔ m ∈ s.matchRows.rows ∧ m.tournamentId = t := by
  simp [LiveStore.listForTournament]

theorem exists_row_of_statusOf_ne {id : String} (h : s.statusOf t id ≠ .scheduled) :
    ∃ m ∈ s.listForTournament t, m.id = id ∧ m.status = s.statusOf t id := by
  unfold LiveStore.statusOf at h ⊢
  cases found : s.matchRows.get (t, id) with
  | none => simp [found] at h
  | some m =>
    have key := Table.key_of_get found
    simp only [Match.key, Prod.mk.injEq] at key
    exact ⟨m, mem_listForTournament.mpr ⟨Table.mem_of_get found, key.1⟩, key.2, rfl⟩

def resetEntries (m : Match) : List (String × MatchStatus) :=
  if m.status = .scheduled then [] else [(m.id, .scheduled)]

theorem resetAffected_writes (h : resetAffected t acc m = .ok acc') :
    Writes t (resetEntries m) acc.2 acc'.2 := by
  unfold resetAffected resetMatch at h
  unfold resetEntries
  split at h
  · next already =>
    cases h
    rw [if_pos already]
    exact .refl t _
  · next other =>
    rw [bind_eq_ok] at h
    obtain ⟨⟨row, s⟩, written, h⟩ := h
    cases h
    rw [if_neg other]
    exact (setStatus_writes written).1

theorem resetAffected_affected {ms : List Match} (h : ms.foldlM (resetAffected t) acc = .ok acc') :
    ∃ versions : List (String × Nat), versions.map Prod.fst = ms.map Match.id ∧
      acc'.1 = acc.1 ++ versions.map (fun v => .obj [("matchId", .str v.1),
        ("status", .str MatchStatus.scheduled.value), ("version", .int v.2)]) := by
  induction ms generalizing acc with
  | nil =>
    cases h
    exact ⟨[], rfl, by simp⟩
  | cons m ms ih =>
    rw [List.foldlM_cons, bind_eq_ok] at h
    obtain ⟨mid, first, rest⟩ := h
    obtain ⟨versions, ids, affected⟩ := ih rest
    unfold resetAffected at first
    rw [bind_eq_ok] at first
    obtain ⟨⟨row, s⟩, reset, first⟩ := first
    cases first
    have id : row.id = m.id := by
      unfold resetMatch at reset
      split at reset
      · cases reset; rfl
      · exact (setStatus_writes reset).2.1
    refine ⟨(m.id, row.version) :: versions, by simp [ids], ?_⟩
    rw [affected]
    simp [affectedMatch, id]

theorem marks_reset (id : String) :
    marks ((s.listForTournament t).flatMap resetEntries) (s.statusOf t) id = .scheduled := by
  unfold resetEntries
  refine marks_of_same (fun p hp => ?_) ?_
  · obtain ⟨m, -, hp⟩ := List.mem_flatMap.mp hp
    split at hp
    · simp at hp
    · rw [List.mem_singleton] at hp
      rw [hp]
  · by_cases already : s.statusOf t id = .scheduled
    · exact Or.inl already
    · obtain ⟨m, hm, rfl, status⟩ := exists_row_of_statusOf_ne already
      refine Or.inr ⟨(m.id, .scheduled), List.mem_flatMap.mpr ⟨m, hm, ?_⟩, rfl⟩
      rw [if_neg (status ▸ already)]
      exact List.mem_singleton_self _

/-! ## Merging and replacing -/

theorem mergeMatch_writes {acc acc' : List Match × LiveStore} (h : mergeMatch t acc p = .ok acc') :
    Writes t [(p.1, p.2.status.canonical)] acc.2 acc'.2 := by
  unfold mergeMatch at h
  rw [bind_eq_ok] at h
  obtain ⟨⟨row, s⟩, written, h⟩ := h
  cases h
  exact (setStatus_writes written).1

/-- A row that the statuses do not name goes back to scheduled, if it is elsewhere. -/
def unnamedEntries (statuses : List (String × MatchStatus)) (m : Match) :
    List (String × MatchStatus) :=
  if Assoc.get m.id statuses = none ∧ m.status ≠ .scheduled then [(m.id, .scheduled)] else []

theorem resetUnnamed_writes {acc acc' : JsonObject × LiveStore}
    (h : resetUnnamed t statuses acc m = .ok acc') :
    Writes t (unnamedEntries statuses m) acc.2 acc'.2 := by
  unfold resetUnnamed at h
  unfold unnamedEntries
  split at h
  · next unnamed =>
    rw [bind_eq_ok] at h
    obtain ⟨⟨row, s⟩, written, h⟩ := h
    cases h
    rw [if_pos unnamed]
    exact (setStatus_writes written).1
  · next named =>
    cases h
    rw [if_neg named]
    exact .refl t _

def importEntries (statuses : List (String × MatchStatus)) (p : String × MatchStateFields) :
    List (String × MatchStatus) :=
  (Assoc.get p.1 statuses).toList.map (fun status => (p.1, status))

theorem importMatch_writes {acc acc' : JsonObject × LiveStore}
    (h : importMatch t statuses acc p = .ok acc') :
    Writes t (importEntries statuses p) acc.2 acc'.2 := by
  unfold importMatch at h
  unfold importEntries
  split at h
  · cases h
  · next status named =>
    rw [bind_eq_ok] at h
    obtain ⟨⟨row, s⟩, written, h⟩ := h
    cases h
    rw [named]
    exact ((setStatus_writes written).1).trans (upsertState_writes s t p.1 p.2)

theorem marks_resetUnnamed {id : String} (unnamed : Assoc.get id statuses = none) :
    marks ((s.listForTournament t).flatMap (unnamedEntries statuses)) (s.statusOf t) id =
      .scheduled := by
  unfold unnamedEntries
  refine marks_of_same (fun p hp => ?_) ?_
  · obtain ⟨m, -, hp⟩ := List.mem_flatMap.mp hp
    split at hp
    · rw [List.mem_singleton] at hp
      rw [hp]
    · simp at hp
  · by_cases already : s.statusOf t id = .scheduled
    · exact Or.inl already
    · obtain ⟨m, hm, rfl, status⟩ := exists_row_of_statusOf_ne already
      refine Or.inr ⟨(m.id, .scheduled), List.mem_flatMap.mpr ⟨m, hm, ?_⟩, rfl⟩
      rw [if_pos ⟨unnamed, status ▸ already⟩]
      exact List.mem_singleton_self _

end Operations
