import ShuttleWorks.Documents.Setup
import ShuttleWorks.Sync.Delivery

/-! Which writes of a whole document are all or nothing. A projection commits on its own once it
touches a row, and a setup section commits the regulations and the backup before the document. -/

namespace Documents
open Lib Competition Operations
open Sync (Uuid)

/-! ## A write that is not refused -/

def RosterRefused (p : Entries.Platform) (x : Fresh) (document : JsonObject) (s : Store) : Prop :=
  (ingestDocument p s.workspace (stampPayload x document)).toOption.isNone

def MatchesRefused (payload : JsonObject) (s : Store) : Prop :=
  (bulkProjectFromSchedule s.tournamentId payload s.live).toOption.isNone

def Settled (payload : JsonObject) (s : Store) : Prop := Projected s.tournamentId payload s.live

instance (p : Entries.Platform) (x : Fresh) (document : JsonObject) (s : Store) :
    Decidable (RosterRefused p x document s) := inferInstanceAs (Decidable (_ = true))

instance (payload : JsonObject) (s : Store) : Decidable (MatchesRefused payload s) :=
  inferInstanceAs (Decidable (_ = true))

instance (payload : JsonObject) (s : Store) : Decidable (Settled payload s) :=
  inferInstanceAs (Decidable (Projected _ _ _))

section

variable {p : Entries.Platform} {db : Database} {x : Fresh} {payload document : JsonObject}
  {clear commit : Bool} {expected : Option Nat} {s s' s'' : Store}

theorem not_isNone_iff {ε α : Type} {e : Except ε α} :
    ¬ e.toOption.isNone = true ↔ ∃ a, e = .ok a := by
  cases e <;> simp [Except.toOption]

theorem replaceDocument_eq_ok_iff : (∃ s', replaceDocument p x document s = .ok s') ↔
    ¬ RosterRefused p x document s := by
  rw [RosterRefused, not_isNone_iff]
  constructor
  · rintro ⟨s', replaced⟩
    simp only [replaceDocument, bind_eq_ok] at replaced
    obtain ⟨workspace, ingested, -⟩ := replaced
    cases answer : ingestDocument p s.workspace (stampPayload x document) with
    | ok ws => exact ⟨ws, rfl⟩
    | error e =>
      rw [answer] at ingested
      cases ingested
  · rintro ⟨ws, ingested⟩
    rw [replaceDocument, ingested]
    exact ⟨_, rfl⟩

theorem rosterRefused_backedUp {document : JsonObject} :
    RosterRefused p x document (backedUp p x s) ↔ RosterRefused p x document s := by
  rw [RosterRefused, RosterRefused, (backedUp_frame (p := p) (x := x) (s := s)).1]

theorem projectPayload_eq_ok_iff : (∃ touched s', projectPayload payload s = .ok (touched, s')) ↔
    ¬ MatchesRefused payload s := by
  rw [MatchesRefused, not_isNone_iff]
  constructor
  · rintro ⟨touched, s', projected⟩
    obtain ⟨live, projected, -⟩ := projectPayload_frame projected
    exact ⟨_, projected⟩
  · rintro ⟨⟨touched, live⟩, projected⟩
    rw [projectPayload, projected]
    exact ⟨touched, _, rfl⟩

theorem written_iff : (∃ s', Written p x payload clear (some s.stateVersion) s s') ↔
    ¬ RosterRefused p x (mergedDocument s.data payload clear) s ∧ ¬ MatchesRefused payload s := by
  have matches_of_replaced : ∀ s₁, replaceDocument p x (mergedDocument s.data payload clear)
      (backedUp p x s) = .ok s₁ → (MatchesRefused payload s₁ ↔ MatchesRefused payload s) := by
    intro s₁ replaced
    obtain ⟨live, -, -, id, -⟩ := replaceDocument_frame replaced
    obtain ⟨workspace, live₀⟩ := backedUp_frame (p := p) (x := x) (s := s)
    rw [MatchesRefused, MatchesRefused, live, live₀, id, Store.tournamentId, workspace]
    rfl
  rw [← rosterRefused_backedUp, ← replaceDocument_eq_ok_iff]
  constructor
  · rintro ⟨s', -, s₁, touched, replaced, projected⟩
    exact ⟨⟨s₁, replaced⟩, (matches_of_replaced s₁ replaced).not.mp
      (projectPayload_eq_ok_iff.mp ⟨touched, s', projected⟩)⟩
  · rintro ⟨⟨s₁, replaced⟩, accepted⟩
    obtain ⟨touched, s', projected⟩ :=
      projectPayload_eq_ok_iff.mpr ((matches_of_replaced s₁ replaced).not.mpr accepted)
    exact ⟨s', by simp [reserve], s₁, touched, replaced, projected⟩

theorem Written.unique (h : Written p x payload clear expected s s')
    (h' : Written p x payload clear expected s s'') : s' = s'' := by
  obtain ⟨-, s₁, touched, replaced, projected⟩ := h
  obtain ⟨-, s₂, touched', replaced', projected'⟩ := h'
  cases replaced.symm.trans replaced'
  cases projected.symm.trans projected'
  rfl

theorem Written.ne (h : Written p x payload clear expected s s') : s' ≠ s := by
  rintro rfl
  exact absurd h.frame.2.1 (Nat.ne_of_lt (Nat.lt_succ_self _))

theorem touched_eq_zero_iff {document : JsonObject} {s₁ : Store} {touched : Nat}
    (replaced : replaceDocument p x document (backedUp p x s) = .ok s₁)
    (projected : projectPayload payload s₁ = .ok (touched, s')) :
    touched = 0 ↔ Settled payload s := by
  obtain ⟨live, rows, -⟩ := projectPayload_frame projected
  obtain ⟨live₁, -, -, id, -⟩ := replaceDocument_frame replaced
  obtain ⟨workspace, live₀⟩ := backedUp_frame (p := p) (x := x) (s := s)
  have own : s₁.tournamentId = s.tournamentId := by
    rw [id, Store.tournamentId, workspace]
    rfl
  rw [bulkProject_touched rows, live₁, live₀, own]
  rfl

/-! ## Writes left to their caller's commit -/

theorem commitTournamentState_staged :
    (commitTournamentState p db x payload clear expected false).Ends
      (fun row y => Written p x payload clear expected s y.working ∧
        row = y.working.workspace.tournament ∧
        y.committed = if Settled payload s then s else y.working)
      (fun y => y.committed = s ∨
        ¬ Settled payload s ∧ Written p x payload clear expected s y.committed)
      (.opened s) := by
  unfold commitTournamentState
  refine Work.ends_bind.mpr (Work.ends_read.mpr (Work.ends_bind.mpr ?_))
  refine backUp_ends.mono (fun _ y backed => ?_) (fun y same => .inl (same rfl))
  obtain ⟨backed, pending⟩ := backed
  refine Work.ends_bind.mpr (saveDocument_ends.mono (fun row y₁ saved => ?_) (fun y₁ left => ?_))
  swap
  · rcases left with same | ⟨commits, -⟩
    · exact .inl (same.trans (pending rfl))
    · cases commits
  obtain ⟨reserved, s₁, touched, replaced, projected, rfl, committed⟩ := saved
  rw [backed] at reserved replaced
  have written : Written p x payload clear expected s y₁.working :=
    ⟨reserve_backedUp.symm.trans reserved, s₁, touched, replaced, projected⟩
  have untouched : touched = 0 ↔ Settled payload s := touched_eq_zero_iff replaced projected
  have left : y₁.committed = if Settled payload s then s else y₁.working := by
    rw [committed, pending rfl]
    rcases Nat.eq_zero_or_pos touched with none | some
    · rw [if_pos (untouched.mp none), if_neg (by simp [none])]
      rfl
    · rw [if_neg (untouched.not.mp (Nat.ne_of_gt some)), if_pos (.inl some)]
  simp only [Work.ends_bind, Work.ends_flush, Work.ends_pure]
  refine ⟨fun _ => ⟨written, trivial, left⟩, fun _ => ?_⟩
  by_cases settled : Settled payload s
  · exact .inl (left.trans (if_pos settled))
  · exact .inr ⟨settled, by rw [left, if_neg settled]; exact written⟩

theorem commitTournamentState_runs (silent : ∀ site, site ≠ .requestCommit → db site = none)
    (written : Written p x payload clear expected s s') :
    (commitTournamentState p db x payload clear expected commit).Ends
      (fun row y => y.working = s' ∧ row = s'.workspace.tournament) (fun _ => False)
      (.opened s) := by
  obtain ⟨reserved, s₁, touched, replaced, projected⟩ := written
  have reserved : reserve expected (backedUp p x s) = .ok () := reserve_backedUp.trans reserved
  have row : s'.workspace = s₁.workspace := by
    obtain ⟨live, -, rfl⟩ := projectPayload_frame projected
    rfl
  have backed : (backUp p db x s.data commit).Ends (fun _ y => y.working = backedUp p x s)
      (fun _ => False) (.opened s) := by
    unfold backUp backedUp
    by_cases empty : s.data = []
    · simp [empty, Session.opened]
    · simp [empty, createBackup, rotateBackups, commitIf_ends, silent, Session.opened]
  unfold commitTournamentState
  refine Work.ends_bind.mpr (Work.ends_read.mpr (Work.ends_bind.mpr (backed.mono
    (fun _ y same => ?_) (fun _ => id))))
  have upserted : (upsertData p db x (mergedDocument s.data payload clear) expected commit).Ends
      (fun row y' => y'.working = s₁ ∧ row = s₁.workspace.tournament) (fun _ => False) y := by
    simp [upsertData, commitIf_ends, silent, same, reserved, replaced, ok_bind]
  refine Work.ends_bind.mpr (Work.ends_bind.mpr (upserted.mono (fun tournament y₁ done => ?_)
    (fun _ => id)))
  obtain ⟨same₁, rfl⟩ := done
  simp [projectMatchesFromPayload, commitIf_ends, silent, same₁, projected, row]

end

/-! ## A write with its operation -/

section

variable {h : Host} {db : Database} {x : Fresh} {a : Ambient} {payload : JsonObject}
  {clear : Bool} {logging : Option Logging} {s s' t : Store}

/-- The store with the operation appended, if there is one. -/
def Logged (h : Host) (a : Ambient) (logging : Option Logging) (s t : Store) : Prop :=
  match logging with
  | none => t = s
  | some logging => ∃ node op, logging s.workspace.tournament = .ok (node, op) ∧
      withOperation h a node op s = .ok ((), t)

/-- What a write and its operation leave together. -/
def Complete (h : Host) (x : Fresh) (a : Ambient) (payload : JsonObject) (clear : Bool)
    (logging : Option Logging) (s t : Store) : Prop :=
  ∃ s', Written h.platform x payload clear (some s.stateVersion) s s' ∧ Logged h a logging s' t

theorem withOperation_ne {node : Uuid} {op : Sync.LocalOperation}
    (appended : withOperation h a node op s = .ok ((), t)) : t ≠ s := by
  unfold withOperation at appended
  split at appended
  · next o sync logged =>
    cases appended
    intro same
    have rows := (Sync.appendLocalOperation_eq_ok logged).2.2.2.2.1
    have counted := congrArg (fun s : Store => s.live.sync.operations.rows.length) same
    simp [rows] at counted
  · cases appended

theorem appendOperation_ends {logging : Logging} {row : Tournament} {y : Session Store} :
    (appendOperation h db a logging row).Ends
      (fun _ y' => (∃ node op, logging row = .ok (node, op) ∧
        withOperation h a node op y.working = .ok ((), y'.working)) ∧ y'.committed = y.committed)
      (fun y' => y'.committed = y.committed) y := by
  simp only [appendOperation, Work.ends_bind, Work.ends_ofExcept, Work.ends_edit, Work.ends_flush,
    implies_true, and_true]
  rintro ⟨node, op⟩ logged ⟨⟩ s' appended -
  exact ⟨node, op, logged, appended⟩

/-- A write with its operation commits both, or nothing, or the write alone where its projection
has touched a row. -/
theorem stagedWrite_ends :
    (stagedWrite h db x a payload clear (some s.stateVersion) logging).Ends
      (fun _ y => Complete h x a payload clear logging s y.committed)
      (fun y => y.committed = s ∨ ¬ Settled payload s ∧
        Written h.platform x payload clear (some s.stateVersion) s y.committed)
      (.opened s) := by
  unfold stagedWrite
  refine Work.ends_bind.mpr (commitTournamentState_staged.mono (fun row y done => ?_)
    (fun _ left => left))
  obtain ⟨written, rfl, left⟩ := done
  have early : y.committed = s ∨ ¬ Settled payload s ∧
      Written h.platform x payload clear (some s.stateVersion) s y.committed := by
    by_cases settled : Settled payload s
    · exact .inl (left.trans (if_pos settled))
    · exact .inr ⟨settled, by rw [left, if_neg settled]; exact written⟩
  cases logging with
  | none =>
    simp only [Work.ends_bind, Work.ends_pure, Work.ends_commit]
    exact ⟨fun _ => ⟨y.working, written, rfl⟩, fun _ => early⟩
  | some logging =>
    refine Work.ends_bind.mpr (appendOperation_ends.mono (fun _ y' appended => ?_)
      (fun y' same => by rw [same]; exact early))
    obtain ⟨appended, same⟩ := appended
    simp only [Work.ends_bind, Work.ends_pure, Work.ends_commit]
    exact ⟨fun _ => ⟨y.working, written, appended⟩, fun _ => by rw [same]; exact early⟩

theorem stagedWrite_sound (complete : Complete h x a payload clear logging s t) :
    ∃ answer, (stagedWrite h sound x a payload clear (some s.stateVersion) logging).execute s =
      (.ok answer, t) := by
  obtain ⟨s', written, logged⟩ := complete
  have runs : (stagedWrite h sound x a payload clear (some s.stateVersion) logging).Ends
      (fun _ y => y.committed = t) (fun _ => False) (.opened s) := by
    unfold stagedWrite
    refine Work.ends_bind.mpr ((commitTournamentState_runs (fun _ _ => rfl) written).mono
      (fun row y done => ?_) (fun _ => id))
    obtain ⟨same, rfl⟩ := done
    cases logging with
    | none => simpa [sound, same] using logged.symm
    | some logging =>
      obtain ⟨node, op, logged, appended⟩ := logged
      simp [appendOperation, sound, same, logged, appended]
  obtain ⟨answer, y, executed, rfl⟩ := runs.answers
  exact ⟨answer, executed⟩

def failing (sites : List Site) : Database := fun site =>
  if site ∈ sites then some (.database "connection lost") else none

theorem failing_silent {sites : List Site} {site : Site} (other : site ∉ sites) :
    failing sites site = none := if_neg other

def interrupted : Database := failing [.requestCommit]

theorem stagedWrite_interrupted (a : Ambient) (logging : Option Logging)
    (written : Written h.platform x payload clear (some s.stateVersion) s s')
    (touches : ¬ Settled payload s) :
    ((stagedWrite h interrupted x a payload clear (some s.stateVersion) logging).execute s).2 =
      s' := by
  have silent : ∀ site, site ≠ .requestCommit → interrupted site = none :=
    fun site other => failing_silent (by simpa using other)
  refine Work.Ends.execute (P := fun t => t = s') ?_
  unfold stagedWrite
  refine Work.ends_bind.mpr (((commitTournamentState_runs silent written).and
    commitTournamentState_staged).mono (fun row y done => ?_) (fun _ none => none.1.elim))
  obtain ⟨⟨same, -⟩, -, -, left⟩ := done
  rw [if_neg touches, same] at left
  cases logging with
  | none => simp [interrupted, failing, left]
  | some logging =>
    refine Work.ends_bind.mpr (appendOperation_ends.mono (fun _ y' appended => ?_)
      (fun y' same => same.trans left))
    simp [interrupted, failing, appended.2, left]

/-- **A write with its operation is all or nothing exactly if it has no operation, is refused, or
projects nothing.** -/
theorem stagedWrite_allOrNothing :
    Work.AllOrNothing (fun db => stagedWrite h db x a payload clear (some s.stateVersion) logging)
        sound s ↔
      logging = none ∨ RosterRefused h.platform x (mergedDocument s.data payload clear) s ∨
        MatchesRefused payload s ∨ Settled payload s := by
  constructor
  · intro whole
    by_contra split
    simp only [not_or] at split
    obtain ⟨logs, roster, rows, touches⟩ := split
    obtain ⟨s', written⟩ := written_iff.mpr ⟨roster, rows⟩
    have left := stagedWrite_interrupted a logging written touches
    rcases whole interrupted with same | ⟨answer, answered⟩
    · exact written.ne (left.symm.trans same)
    · rw [left] at answered
      obtain ⟨y, ⟨s'', written', logged⟩, committed⟩ := stagedWrite_ends.of_ok
        (congrArg Prod.fst answered)
      rw [committed.trans (congrArg Prod.snd answered)] at logged
      obtain rfl := written.unique written'
      cases logging with
      | none => exact logs rfl
      | some logging =>
        obtain ⟨node, op, -, appended⟩ := logged
        exact withOperation_ne appended rfl
  · intro cond
    refine Work.AllOrNothing.of_ends (Complete h x a payload clear logging s)
      (fun db => ?_) (fun t complete => stagedWrite_sound complete)
    refine stagedWrite_ends.mono (fun _ y complete => .inr complete) (fun y left => ?_)
    rcases left with same | ⟨touches, written⟩
    · exact .inl same
    · have accepted := written_iff.mp ⟨_, written⟩
      rcases cond with rfl | roster | rows | settled
      · exact .inr ⟨_, written, rfl⟩
      · exact absurd roster accepted.1
      · exact absurd rows accepted.2
      · exact absurd settled touches

end

/-! ## Writes that commit the document at once -/

section

variable {p : Entries.Platform} {db : Database} {x : Fresh} {document payload : JsonObject}
  {expected : Option Nat} {s s₁ t : Store}

/-- Either the roster refuses the document, or the projection has nothing to do. -/
def SavesWhole (p : Entries.Platform) (x : Fresh) (document payload : JsonObject) (s : Store) :
    Prop :=
  RosterRefused p x document s ∨ ¬ MatchesRefused payload s ∧ Settled payload s

instance (p : Entries.Platform) (x : Fresh) (document payload : JsonObject) (s : Store) :
    Decidable (SavesWhole p x document payload s) := inferInstanceAs (Decidable (_ ∨ _))

theorem replaced_same_rows (payload : JsonObject)
    (replaced : replaceDocument p x document s = .ok s₁) :
    (MatchesRefused payload s₁ ↔ MatchesRefused payload s) ∧
      (Settled payload s₁ ↔ Settled payload s) := by
  obtain ⟨live, -, -, id, -⟩ := replaceDocument_frame replaced
  simp only [MatchesRefused, Settled, live, id, and_self]

theorem SavesWhole.saved (whole : SavesWhole p x document payload s)
    (replaced : replaceDocument p x document s = .ok s₁) : Saved p x document payload s s₁ := by
  rcases whole with refused | ⟨accepted, settled⟩
  · exact absurd refused (replaceDocument_eq_ok_iff.mp ⟨s₁, replaced⟩)
  · obtain ⟨rows, placed⟩ := replaced_same_rows payload replaced
    obtain ⟨touched, t, projected⟩ := projectPayload_eq_ok_iff.mpr (rows.not.mpr accepted)
    obtain ⟨live, moved, -⟩ := projectPayload_frame projected
    obtain rfl : touched = 0 := (bulkProject_touched moved).mpr (placed.mpr settled)
    obtain rfl := projectPayload_untouched projected
    exact ⟨_, 0, replaced, projected⟩

theorem SavesWhole.of_saved (saved : Saved p x document payload s s₁)
    (replaced : replaceDocument p x document s = .ok s₁) : SavesWhole p x document payload s := by
  obtain ⟨s₂, touched, replaced', projected⟩ := saved
  cases replaced.symm.trans replaced'
  obtain ⟨rows, placed⟩ := replaced_same_rows payload replaced
  refine .inr ⟨rows.not.mp (projectPayload_eq_ok_iff.mp ⟨touched, s₁, projected⟩),
    placed.mp ?_⟩
  by_contra moves
  obtain ⟨live, moved, same⟩ := projectPayload_frame projected
  exact bulkProject_ne moved moves (congrArg Store.live same).symm

theorem replaceDocument_ne (replaced : replaceDocument p x document s = .ok s₁) : s₁ ≠ s := by
  rintro rfl
  exact absurd (replaceDocument_frame replaced).2.2.2.2 (Nat.ne_of_lt (Nat.lt_succ_self _))

theorem saveDocument_runs (silent : ∀ site, site ≠ .projectionCommit → db site = none)
    (reserved : reserve expected s = .ok ())
    (replaced : replaceDocument p x document s = .ok s₁) :
    (saveDocument p db x document payload expected true).Ends
      (fun _ y => Saved p x document payload s y.committed ∧
        (db .projectionCommit ≠ none → y.committed = s₁))
      (fun y => y.committed = s₁ ∧
        (db .projectionCommit = none → MatchesRefused payload s)) (.opened s) := by
  have upserted : (upsertData p db x document expected true).Ends
      (fun _ y => y = .opened s₁) (fun _ => False) (.opened s) := by
    simp [upsertData, commitIf_ends, silent, Session.opened, reserved, replaced, ok_bind]
  unfold saveDocument
  refine Work.ends_bind.mpr (upserted.mono (fun row y opened => ?_) (fun _ => False.elim))
  subst opened
  simp only [projectMatchesFromPayload, Work.ends_bind, Work.ends_edit, commitIf_ends,
    Work.ends_pure, Session.opened]
  refine ⟨fun touched t projected => ⟨fun some => ⟨fun sound => ?_, fun fails => ?_⟩,
    fun none => ?_⟩, fun e failed => ⟨trivial, fun _ => ?_⟩⟩
  · exact ⟨⟨s₁, touched, replaced, projected⟩, fun fails => absurd sound fails⟩
  · refine ⟨trivial, fun sound => ?_⟩
    rw [sound] at fails
    cases fails
  · obtain rfl : touched = 0 := by simpa using none
    obtain rfl := projectPayload_untouched projected
    exact ⟨⟨_, 0, replaced, projected⟩, fun _ => trivial⟩
  · by_contra accepted
    have rows := (replaced_same_rows payload replaced).1
    obtain ⟨touched, t, projected⟩ := projectPayload_eq_ok_iff.mpr (rows.not.mpr accepted)
    rw [projected] at failed
    cases failed

def projectionLost : Database := failing [.projectionCommit]

theorem projectionLost_silent (site : Site) (other : site ≠ .projectionCommit) :
    projectionLost site = none := failing_silent (by simpa using other)

/-- **A document saved at once is all or nothing exactly if it is refused or projects nothing.** -/
theorem saveDocument_allOrNothing (reserved : reserve expected s = .ok ()) :
    Work.AllOrNothing (fun db => saveDocument p db x document payload expected true) sound s ↔
      SavesWhole p x document payload s := by
  constructor
  · intro all
    by_contra partly
    obtain ⟨s₁, replaced⟩ := replaceDocument_eq_ok_iff.mpr (fun refused => partly (.inl refused))
    have left : ((saveDocument p projectionLost x document payload expected true).execute s).2 =
        s₁ := by
      refine Work.Ends.execute (P := fun t => t = s₁) ?_
      exact (saveDocument_runs projectionLost_silent reserved replaced).mono
        (fun _ y done => done.2 (by simp [projectionLost, failing])) (fun _ done => done.1)
    rcases all projectionLost with same | ⟨answer, answered⟩
    · exact replaceDocument_ne replaced (left.symm.trans same)
    · rw [left] at answered
      obtain ⟨y, ⟨saved, -⟩, committed⟩ := (saveDocument_runs (fun _ _ => rfl) reserved
        replaced).of_ok (congrArg Prod.fst answered)
      rw [committed.trans (congrArg Prod.snd answered)] at saved
      exact partly (.of_saved saved replaced)
  · intro whole
    refine Work.AllOrNothing.of_ends (Saved p x document payload s) (fun db => ?_) ?_
    · refine saveDocument_ends.mono (fun _ y done => ?_) (fun y left => ?_)
      · obtain ⟨-, s₁, touched, replaced, projected, -, committed⟩ := done
        rw [if_pos (.inr rfl)] at committed
        exact .inr ⟨s₁, touched, replaced, by rw [committed]; exact projected⟩
      · rcases left with same | ⟨-, replaced⟩
        · exact .inl same
        · exact .inr (whole.saved replaced)
    · intro t saved
      obtain ⟨s₁, touched, replaced, projected⟩ := saved
      have accepted := (replaced_same_rows payload replaced).1.not.mp
        (projectPayload_eq_ok_iff.mp ⟨touched, t, projected⟩)
      have runs : (saveDocument p sound x document payload expected true).Ends
          (fun _ y => Saved p x document payload s y.committed) (fun _ => False) (.opened s) :=
        (saveDocument_runs (fun _ _ => rfl) reserved replaced).mono (fun _ _ done => done.1)
          (fun _ done => accepted (done.2 rfl))
      obtain ⟨answer, y, executed, s₂, touched', replaced', projected'⟩ := runs.answers
      cases replaced.symm.trans replaced'
      cases projected.symm.trans projected'
      exact ⟨answer, executed⟩

end

/-! ## A section of the setup document -/

section

variable {h : Host} {p : Entries.Platform} {db : Database} {x : Fresh} {payload : JsonObject}
  {clear : Bool} {published : Option Regulations} {q : SetupPatch} {newData : JsonObject}
  {s t : Store}

theorem writeRegulations_ends : (writeRegulations db published).Ends
    (fun _ y => y = .opened (withRegulations published s)) (fun y => y.committed = s)
    (.opened s) := by
  cases published <;> simp [writeRegulations, Session.opened, withRegulations]

theorem writeRegulations_runs (flushes : db .regulations = none)
    (commits : db .regulationsCommit = none) : (writeRegulations db published).Ends
      (fun _ y => y = .opened (withRegulations published s)) (fun _ => False) (.opened s) := by
  cases published <;> simp [writeRegulations, Session.opened, withRegulations, flushes, commits]

theorem commitTournamentState_unbacked (empty : s.data = []) :
    (commitTournamentState p db x payload clear (some s.stateVersion) true).Ends
      (fun _ y => Saved p x (mergedDocument s.data payload clear) payload s y.committed)
      (fun y => y.committed = s ∨
        replaceDocument p x (mergedDocument s.data payload clear) s = .ok y.committed ∨
        Saved p x (mergedDocument s.data payload clear) payload s y.committed) (.opened s) := by
  unfold commitTournamentState
  refine Work.ends_bind.mpr (Work.ends_read.mpr ?_)
  have unbacked : backUp p db x (Session.opened s).working.data true = pure () := if_pos empty
  rw [unbacked]
  refine Work.ends_bind.mpr (Work.ends_pure.mpr (Work.ends_bind.mpr (saveDocument_ends.mono
    (fun row y saved => ?_) (fun y left => left.imp_right fun done => .inl done.2))))
  obtain ⟨-, s₁, touched, replaced, projected, rfl, committed⟩ := saved
  rw [if_pos (.inr rfl)] at committed
  have saved : Saved p x (mergedDocument s.data payload clear) payload s y.committed :=
    ⟨s₁, touched, replaced, by rw [committed]; exact projected⟩
  simp [saved]

theorem commitTournamentState_blocked :
    (commitTournamentState p (failing [.backup, .reservation]) x payload clear
      (some s.stateVersion) true).Ends (fun _ _ => False) (fun y => y.committed = s)
      (.opened s) := by
  unfold commitTournamentState
  refine Work.ends_bind.mpr (Work.ends_read.mpr ?_)
  by_cases empty : s.data = []
  · simp [backUp, empty, saveDocument, upsertData, failing, Session.opened]
  · simp [backUp, empty, createBackup, failing, Session.opened]

theorem commitTournamentState_backedUp (stored : s.data ≠ []) :
    (commitTournamentState p (failing [.rotationCommit, .reservation]) x payload clear
      (some s.stateVersion) true).Ends (fun _ _ => False)
      (fun y => y.committed = withBackup x s.data (backupFilename p x s.data) s) (.opened s) := by
  unfold commitTournamentState
  refine Work.ends_bind.mpr (Work.ends_read.mpr ?_)
  simp [backUp, stored, createBackup, rotateBackups, commitIf_ends, saveDocument, upsertData,
    failing, Session.opened]

/-- The regulations, the backup and the document are committed one after the other. -/
def patchWork (p : Entries.Platform) (x : Fresh) (payload : JsonObject)
    (published : Option Regulations) (version : Nat) (db : Database) : DocumentWork Tournament := do
  writeRegulations db published
  commitTournamentState p db x payload false (some version) true

/-- There are no new regulations, no document to back up, and the document is saved whole. -/
def PatchesWhole (p : Entries.Platform) (x : Fresh) (payload : JsonObject)
    (published : Option Regulations) (s : Store) : Prop :=
  (∀ row ∈ published, s.regulations = some row) ∧ s.data = [] ∧
    SavesWhole p x (mergedDocument s.data payload false) payload s

instance (p : Entries.Platform) (x : Fresh) (payload : JsonObject)
    (published : Option Regulations) (s : Store) : Decidable (PatchesWhole p x payload published s) :=
  inferInstanceAs (Decidable ((∀ row ∈ published, s.regulations = some row) ∧ _))

theorem withRegulations_eq_self (kept : ∀ row ∈ published, s.regulations = some row) :
    withRegulations published s = s := by
  cases published with
  | none => rfl
  | some row => rw [withRegulations, ← kept row rfl]

theorem patchWork_version :
    (patchWork p x payload published s.stateVersion db).Ends
      (fun _ y => y.committed.stateVersion = s.stateVersion + 1) (fun _ => True) (.opened s) := by
  refine Work.ends_bind.mpr (writeRegulations_ends.mono (fun _ y opened => ?_) (fun _ _ => trivial))
  subst opened
  refine commitTournamentState_ends.mono (fun row y done => ?_) (fun _ _ => trivial)
  rw [done.2.2 rfl, done.1.frame.2.1]
  cases published <;> rfl

theorem patchWork_ends_of {version : Nat} {Q : Tournament → Session Store → Prop}
    {E : Session Store → Prop} (flushes : db .regulations = none)
    (commits : db .regulationsCommit = none)
    (ends : (commitTournamentState p db x payload false (some version) true).Ends Q E
      (.opened (withRegulations published s))) :
    (patchWork p x payload published version db).Ends Q E (.opened s) := by
  refine Work.ends_bind.mpr ((writeRegulations_runs flushes commits).mono (fun _ y opened => ?_)
    (fun _ => False.elim))
  subst opened
  exact ends

theorem withRegulations_version (published : Option Regulations) :
    (withRegulations published s).stateVersion = s.stateVersion := by
  cases published <;> rfl

theorem patchWork_published :
    ((patchWork p x payload published s.stateVersion
      (failing [.backup, .reservation])).execute s).2 = withRegulations published s := by
  refine Work.Ends.execute (P := fun t => t = withRegulations published s) ?_
  refine patchWork_ends_of (failing_silent (by decide)) (failing_silent (by decide)) ?_
  rw [← withRegulations_version published]
  exact commitTournamentState_blocked.mono (fun _ _ => False.elim) (fun _ => id)

theorem patchWork_backedUp (kept : ∀ row ∈ published, s.regulations = some row)
    (stored : s.data ≠ []) :
    ((patchWork p x payload published s.stateVersion
      (failing [.rotationCommit, .reservation])).execute s).2 =
        withBackup x s.data (backupFilename p x s.data) s := by
  refine Work.Ends.execute (P := fun t => t = withBackup x s.data (backupFilename p x s.data) s) ?_
  refine patchWork_ends_of (failing_silent (by decide)) (failing_silent (by decide)) ?_
  rw [withRegulations_eq_self kept]
  exact (commitTournamentState_backedUp stored).mono (fun _ _ => False.elim) (fun _ => id)

theorem patchWork_replaced (kept : ∀ row ∈ published, s.regulations = some row)
    (empty : s.data = [])
    (replaced : replaceDocument p x (mergedDocument s.data payload false) s = .ok t) :
    ((patchWork p x payload published s.stateVersion projectionLost).execute s).2 = t := by
  refine Work.Ends.execute (P := fun t' => t' = t) ?_
  refine patchWork_ends_of (projectionLost_silent _ (by decide))
    (projectionLost_silent _ (by decide)) ?_
  rw [withRegulations_eq_self kept]
  refine Work.ends_bind.mpr (Work.ends_read.mpr ?_)
  have unbacked : backUp p projectionLost x (Session.opened s).working.data true = pure () :=
    if_pos empty
  rw [unbacked]
  refine Work.ends_bind.mpr (Work.ends_pure.mpr (Work.ends_bind.mpr
    ((saveDocument_runs projectionLost_silent (by simp [reserve]) replaced).mono
      (fun _ y done => ?_) (fun _ done => done.1))))
  have committed := done.2 (by simp [projectionLost, failing])
  simp [committed]

theorem patchWork_unbacked (kept : ∀ row ∈ published, s.regulations = some row)
    (empty : s.data = []) :
    (patchWork p x payload published s.stateVersion db).Ends
      (fun _ y => Saved p x (mergedDocument s.data payload false) payload s y.committed)
      (fun y => y.committed = s ∨
        replaceDocument p x (mergedDocument s.data payload false) s = .ok y.committed ∨
        Saved p x (mergedDocument s.data payload false) payload s y.committed) (.opened s) := by
  refine Work.ends_bind.mpr (writeRegulations_ends.mono (fun _ y opened => ?_)
    (fun _ back => .inl back))
  subst opened
  rw [withRegulations_eq_self kept]
  exact commitTournamentState_unbacked empty

theorem patchWork_not_partly {db : Database}
    (all : Work.AllOrNothing (patchWork p x payload published s.stateVersion) sound s)
    (version : ((patchWork p x payload published s.stateVersion db).execute s).2.stateVersion =
      s.stateVersion) : ((patchWork p x payload published s.stateVersion db).execute s).2 = s := by
  rcases all db with same | ⟨answer, answered⟩
  · exact same
  · obtain ⟨y, counted, committed⟩ := patchWork_version.of_ok (congrArg Prod.fst answered)
    rw [committed.trans (congrArg Prod.snd answered), version] at counted
    exact absurd counted (Nat.ne_of_lt (Nat.lt_succ_self _))

/-- **A patch is all or nothing exactly if it commits the document alone, and whole.** -/
theorem patchWork_allOrNothing :
    Work.AllOrNothing (patchWork p x payload published s.stateVersion) sound s ↔
      PatchesWhole p x payload published s := by
  constructor
  · intro all
    have kept : ∀ row ∈ published, s.regulations = some row := by
      have back := patchWork_not_partly all (by rw [patchWork_published, withRegulations_version])
      rw [patchWork_published] at back
      rintro row ⟨⟩
      rw [← back]
      rfl
    have empty : s.data = [] := by
      by_contra stored
      have back := patchWork_not_partly all (by rw [patchWork_backedUp kept stored]; rfl)
      rw [patchWork_backedUp kept stored] at back
      have counted := congrArg (fun s : Store => s.backups.length) back
      simp [withBackup] at counted
    refine ⟨kept, empty, ?_⟩
    by_contra refused
    obtain ⟨s₁, replaced⟩ := replaceDocument_eq_ok_iff.mpr (fun roster => refused (.inl roster))
    have left := patchWork_replaced kept empty replaced
    rcases all projectionLost with same | ⟨answer, answered⟩
    · exact replaceDocument_ne replaced (left.symm.trans same)
    · obtain ⟨y, saved, committed⟩ := (patchWork_unbacked kept empty).of_ok
        (congrArg Prod.fst answered)
      rw [committed.trans (congrArg Prod.snd answered), left] at saved
      exact refused (.of_saved saved replaced)
  · rintro ⟨kept, empty, whole⟩
    refine Work.AllOrNothing.of_ends
      (Saved p x (mergedDocument s.data payload false) payload s) (fun db => ?_) ?_
    · refine (patchWork_unbacked kept empty).mono (fun _ _ saved => .inr saved) (fun y left => ?_)
      rcases left with back | replaced | saved
      · exact .inl back
      · exact .inr (whole.saved replaced)
      · exact .inr saved
    · intro t saved
      have written : Written p x payload false (some s.stateVersion) s t := by
        refine ⟨by simp [reserve], ?_⟩
        rw [backedUp, if_pos empty]
        exact saved
      have runs : (patchWork p x payload published s.stateVersion sound).Ends
          (fun _ y => y.committed = t) (fun _ => False) (.opened s) := by
        refine patchWork_ends_of rfl rfl ?_
        rw [withRegulations_eq_self kept]
        exact ((commitTournamentState_runs (fun _ _ => rfl) written).and
          commitTournamentState_ends).mono
            (fun _ y done => (done.2.2.2 rfl).trans done.1.1) (fun _ none => none.1)
      obtain ⟨answer, y, executed, rfl⟩ := runs.answers
      exact ⟨answer, executed⟩

end

/-! ## The routes -/

inductive DocumentRequest
  | put (q : StateRequest)
  | commitProposal (q : ScheduleCommit)
  | patchSetup (q : SetupPatch)
  | restore (filename : String)

section

variable (h : Host) (x : Fresh) (a : Ambient)

def DocumentRequest.work (request : DocumentRequest) (db : Database) : DocumentWork Tournament :=
  match request with
  | .put q => putTournamentState h db x a q
  | .commitProposal q => q.apply h db x a
  | .patchSetup q => patchSetupSection h db x q
  | .restore filename => restoreTournamentFromBackup h.platform db x filename

/-- A write that is refused before its projection, or whose projection has nothing to do. -/
def ProjectsWhole (payload : JsonObject) (clear : Bool) (s : Store) : Prop :=
  RosterRefused h.platform x (mergedDocument s.data payload clear) s ∨ MatchesRefused payload s ∨
    Settled payload s

/-- A request that is refused, that logs no roster, or whose write projects nothing. -/
def PutWhole (s : Store) (q : StateRequest) : Prop :=
  match preparedState h.reading s q with
  | .error _ => True
  | .ok (incoming, clear) =>
    (h.env.deploymentProfile = "cloud" ∨ ¬ rosterChanged s.data incoming) ∨
      ProjectsWhole h x incoming clear s

/-- A retry, a commit that is not logged, or one whose write projects nothing. -/
def CommitWhole (s : Store) (q : ScheduleCommit) : Prop :=
  s.live.sync.operations.Has (q.operationId h) ∨ h.env.deploymentProfile ≠ "event_node" ∨
    ProjectsWhole h x q.updated.members false s

def PatchWhole (s : Store) (q : SetupPatch) : Prop :=
  match checkedSection s q with
  | .error _ => True
  | .ok newData =>
    match regulationsToPublish h s q.regulationsText (textMember "publicSlug" newData) with
    | .error _ => True
    | .ok published =>
      PatchesWhole h.platform x (patchedDocument x.nowIso s.data q newData) published s

def RestoreWhole (s : Store) (filename : String) : Prop :=
  ∀ backup ∈ s.backups.find? (fun b => b.filename = filename),
    SavesWhole h.platform x backup.snapshot backup.snapshot s

/-- The condition under which a request is all or nothing. -/
def StaysWhole (s : Store) : DocumentRequest → Prop
  | .put q => PutWhole h x s q
  | .commitProposal q => CommitWhole h x s q
  | .patchSetup q => PatchWhole h x s q
  | .restore filename => RestoreWhole h x s filename

end

section

variable {h : Host} {x : Fresh} {a : Ambient} {s : Store}

theorem allOrNothing_of_refused {work : Database → DocumentWork Tournament}
    (refused : ∀ db, ((work db).execute s).2 = s) : Work.AllOrNothing work sound s :=
  fun db => .inl (refused db)

theorem rosterLogging_eq_none {incoming : JsonObject} {q : StateRequest} :
    rosterLogging h s incoming q = none ↔
      h.env.deploymentProfile = "cloud" ∨ ¬ rosterChanged s.data incoming := by
  unfold rosterLogging
  split
  · next logs => simp [logs.1, logs.2]
  · next silent =>
    rw [not_and_or, ne_eq, not_not] at silent
    simp [silent]

theorem putTournamentState_allOrNothing (q : StateRequest) :
    Work.AllOrNothing ((DocumentRequest.put q).work h x a) sound s ↔
      PutWhole h x s q := by
  unfold PutWhole
  cases prepared : preparedState h.reading s q with
  | error e =>
    refine iff_of_true (allOrNothing_of_refused fun db => ?_) trivial
    simp only [DocumentRequest.work, putTournamentState, Work.execute_read_bind, prepared,
      Work.execute_error_bind]
  | ok incoming =>
    obtain ⟨incoming, clear⟩ := incoming
    have staged : ∀ db, ((DocumentRequest.put q).work h x a db).execute s =
        (stagedWrite h db x a incoming clear (some s.stateVersion)
          (rosterLogging h s incoming q)).execute s := by
      intro db
      simp only [DocumentRequest.work, putTournamentState, Work.execute_read_bind, prepared,
        Work.execute_ok_bind]
    rw [Work.allOrNothing_congr staged, stagedWrite_allOrNothing, rosterLogging_eq_none]
    rfl

theorem apply_allOrNothing (q : ScheduleCommit) :
    Work.AllOrNothing ((DocumentRequest.commitProposal q).work h x a) sound s ↔
      CommitWhole h x s q := by
  unfold CommitWhole
  cases found : s.live.sync.operations.get (q.operationId h) with
  | some existing =>
    have has : s.live.sync.operations.Has (q.operationId h) := by
      by_contra absent
      rw [Table.get_eq_none_iff.mpr absent] at found
      cases found
    refine iff_of_true (allOrNothing_of_refused fun db => ?_) (.inl has)
    simp only [DocumentRequest.work, ScheduleCommit.apply, Work.execute_read_bind, found]
    split <;> rfl
  | none =>
    have absent := Table.get_eq_none_iff.mp found
    have staged : ∀ db, ((DocumentRequest.commitProposal q).work h x a db).execute s =
        (stagedWrite h db x a q.updated.members false (some s.stateVersion)
          (q.logging h s.tournamentId)).execute s := by
      intro db
      simp only [DocumentRequest.work, ScheduleCommit.apply, Work.execute_read_bind, found]
    rw [Work.allOrNothing_congr staged, stagedWrite_allOrNothing]
    simp [ScheduleCommit.logging, absent, ProjectsWhole]

theorem patchSetupSection_allOrNothing (q : SetupPatch) :
    Work.AllOrNothing ((DocumentRequest.patchSetup q).work h x a) sound s ↔
      PatchWhole h x s q := by
  unfold PatchWhole
  cases checked : checkedSection s q with
  | error e =>
    refine iff_of_true (allOrNothing_of_refused fun db => ?_) trivial
    simp only [DocumentRequest.work, patchSetupSection, Work.execute_read_bind, checked,
      Work.execute_error_bind]
  | ok newData =>
    dsimp only
    cases answered : regulationsToPublish h s q.regulationsText
        (textMember "publicSlug" newData) with
    | error e =>
      refine iff_of_true (allOrNothing_of_refused fun db => ?_) trivial
      simp only [DocumentRequest.work, patchSetupSection, Work.execute_read_bind, checked,
        Work.execute_ok_bind, answered, Work.execute_error_bind]
    | ok published =>
      have patched : ∀ db, ((DocumentRequest.patchSetup q).work h x a db).execute s =
          (patchWork h.platform x (patchedDocument x.nowIso s.data q newData) published
            s.stateVersion db).execute s := by
        intro db
        simp only [DocumentRequest.work, patchSetupSection, Work.execute_read_bind, checked,
          Work.execute_ok_bind, answered, patchWork]
      rw [Work.allOrNothing_congr patched]
      exact patchWork_allOrNothing

theorem restore_allOrNothing (filename : String) :
    Work.AllOrNothing ((DocumentRequest.restore filename).work h x a) sound s ↔
      RestoreWhole h x s filename := by
  unfold RestoreWhole
  cases found : s.backups.find? (fun b => b.filename = filename) with
  | none =>
    refine iff_of_true (allOrNothing_of_refused fun db => ?_) (by simp)
    simp only [DocumentRequest.work, restoreTournamentFromBackup, Work.execute_read_bind, found]
    rfl
  | some backup =>
    have saved : ∀ db, ((DocumentRequest.restore filename).work h x a db).execute s =
        (saveDocument h.platform db x backup.snapshot backup.snapshot none true).execute s := by
      intro db
      simp only [DocumentRequest.work, restoreTournamentFromBackup, Work.execute_read_bind, found]
    rw [Work.allOrNothing_congr saved, saveDocument_allOrNothing (show reserve none s = .ok () from rfl)]
    simp

/-- **Whole-document writes.** A request is all or nothing, whatever fails, exactly if it splits
neither its operation from its document nor one of its commits from the others. -/
theorem documentWrites_allOrNothing (h : Host) (x : Fresh) (a : Ambient) (s : Store)
    (request : DocumentRequest) :
    Work.AllOrNothing (request.work h x a) sound s ↔ StaysWhole h x s request := by
  cases request with
  | put q => exact putTournamentState_allOrNothing q
  | commitProposal q => exact apply_allOrNothing q
  | patchSetup q => exact patchSetupSection_allOrNothing q
  | restore filename => exact restore_allOrNothing filename

end

/-! ## A node without the authority -/

namespace Rehearsal

def player (id name : String) : Json := .obj [("id", .str id), ("name", .str name)]

def eventNode : Host where
  env := { Sync.Rehearsal.env with deploymentProfile := "event_node" }
  reading := ⟨fun _ value => some value, fun _ value => some value⟩
  platform := platform
  nodeId := "22222222-2222-4222-8222-222222222222"
  databaseUrl := "sqlite:///desk.db"
  uuid5 := id

def drawn : Ambient := ⟨none, ⟨[], [], "", "operation-1", "2026-03-01T09:00:00Z"⟩⟩

def elsewhere : Store :=
  let s := holding [("players", .arr [player "ann" "Ann"])]
  { s with live := { s.live with sync := { s.live.sync with authorities := ⟨[
      { tournamentId := eventId, epoch := 1, nodeId := "another-node", state := .active
        checkpointHash := "", checkpointSchemaVersion := 1, capabilityDigest := "" }],
      List.pairwise_singleton _ _⟩ } } }

def addMatch : StateRequest where
  state := blankState.update [("players", .arr [player "ann" "Ann", player "bea" "Bea"]),
    ("matches", .arr [.obj [("id", .str "m1"), ("sideA", .arr [.str "ann"]),
      ("sideB", .arr [.str "bea"])]])]
  ifMatch := .version 1
  user := some "director"

end Rehearsal

open Rehearsal in
/-- The operation is refused, and the document, its version and the new row are committed. -/
theorem documentWrite_split :
    ¬ Work.AllOrNothing ((DocumentRequest.put addMatch).work eventNode fresh drawn) sound
      elsewhere := by
  have refused : (((DocumentRequest.put addMatch).work eventNode fresh drawn sound).execute
      elsewhere).1.toOption.isNone = true := by decide +kernel
  have left : (((DocumentRequest.put addMatch).work eventNode fresh drawn sound).execute
      elsewhere).2.stateVersion = 2 := by decide +kernel
  intro all
  rcases all sound with same | ⟨answer, answered⟩
  · rw [same] at left
    exact absurd left (by decide)
  · rw [answered] at refused
    cases refused

end Documents
