import ShuttleWorks.Operations.Agreement

/-! The idempotency of operator commands over whole histories: one row keyed by the
client's id decides whether a submission is fresh, a replay or a repeated rejection. -/

namespace Operations
open Lib Sync

/-! ## Histories of submissions -/

structure Submission where
  tournamentId : Uuid
  ambient : Ambient
  submittedBy : Uuid
  request : CommandRequest

/-- The transaction a submission runs: a resolution has its own. -/
def Submission.process (u : Submission) (c : Settings) (s : LiveStore) :
    LiveStore × Except LiveError ProcessedCommand :=
  if u.request.action = .resolveCourt then
    processResolveCourtCommand c u.ambient u.tournamentId u.submittedBy u.request s
  else processCommand c u.ambient u.tournamentId u.submittedBy u.request s

/-- A submission and the store it met. -/
structure Entry where
  before : LiveStore
  submission : Submission

namespace Entry

def id (e : Entry) : Uuid := e.submission.request.id

def after (e : Entry) (c : Settings) : LiveStore := (e.submission.process c e.before).1

def answer (e : Entry) (c : Settings) : Except LiveError ProcessedCommand :=
  (e.submission.process c e.before).2

def Mutates (e : Entry) (c : Settings) : Prop := (e.after c).matchRows ≠ e.before.matchRows

def Applied (e : Entry) (c : Settings) : Prop := ∃ p, e.answer c = .ok p ∧ p.isReplay = false

/-- The two submissions are of one command: the same match, tournament and action. -/
def Repeats (e e' : Entry) : Prop :=
  e'.id = e.id ∧ e'.submission.tournamentId = e.submission.tournamentId ∧
    e'.submission.request.matchId.val = e.submission.request.matchId.val ∧
    e'.submission.request.action = e.submission.request.action

/-- The id is not that of an applied command of another tournament, match or action. -/
def Own (e : Entry) : Prop :=
  ∀ row ∈ e.before.commands.get e.id, row.appliedAt ≠ none →
    row.tournamentId = e.submission.tournamentId ∧
      row.matchId = e.submission.request.matchId.val ∧
      row.action = e.submission.request.action.value

instance (e : Entry) : Decidable e.Own :=
  inferInstanceAs (Decidable (∀ row ∈ e.before.commands.get e.id, row.appliedAt ≠ none →
    row.tournamentId = e.submission.tournamentId ∧
      row.matchId = e.submission.request.matchId.val ∧
      row.action = e.submission.request.action.value))

end Entry

/-- The submissions so far, newest first, from a store without commands. Between two of them other
writes may change anything but the commands. -/
inductive History (c : Settings) : List Entry → LiveStore → Prop
  | start {s : LiveStore} : (∀ id, s.commands.get id = none) → History c [] s
  | submit {es : List Entry} {s : LiveStore} (u : Submission) : History c es s →
      History c (⟨s, u⟩ :: es) (u.process c s).1
  | other {es : List Entry} {s s' : LiveStore} : History c es s → s'.commands = s.commands →
      History c es s'

/-- What is promised of a submission after the older ones. -/
structure Answered (c : Settings) (older : List Entry) (e : Entry) : Prop where
  /-- An id mutates match rows at most once. -/
  once : e.Mutates c → ∀ e' ∈ older, e'.Mutates c → e'.id ≠ e.id
  /-- What mutates was applied, to the version of the match that the client saw. -/
  current : e.Mutates c ∨ e.Applied c → e.Applied c ∧ ∃ m, e.before.matchRows.get
    (e.submission.tournamentId, e.submission.request.matchId.val) = some m ∧
      m.version = e.submission.request.seenVersion
  /-- A rejected id is answered with its first reason and changes nothing. -/
  final : ∀ e' ∈ older, ∀ row, (e'.after c).commands.get e.id = some row → row.rejectedAt ≠ none →
    e.after c = e.before ∧ ∃ reason, row.rejectionReason = some reason ∧
      e.answer c = conflict { matchId := e.submission.request.matchId.val, message := reason }
  /-- A successful replay is of the same command, applied before. -/
  replayed : ∀ p, e.answer c = .ok p → p.isReplay = true → ∃ e' ∈ older, e'.Applied c ∧ e.Repeats e'

/-! ## One submission -/

variable {submittedBy : Uuid} {r : CommandRequest} {existing : Option Command} {m : Match}
  {p : ProcessedCommand} {es : List Entry} {e : Entry}

section
variable {c : Settings} {x : Ambient} {t : Uuid} {s s' : LiveStore} {action : ResolutionAction}

theorem appendIfEventNode_commands {op : LocalOperation} {what : String}
    (h : appendIfEventNode c s x t op what = .ok s') : s'.commands = s.commands := by
  unfold appendIfEventNode at h
  rw [bind_eq_ok] at h
  obtain ⟨node, -, h⟩ := h
  split at h
  · cases h
    rfl
  · split at h
    · cases h
      rfl
    · cases h

theorem putCommand_commands {row : Command} (h : putCommand c s row = .ok s') :
    s'.commands = s.commands.put row := by
  unfold putCommand at h
  split at h
  · cases h
    rfl
  · cases h

theorem displace_commands {key : Json} (h : displace x t action s key = .ok s') :
    s'.commands = s.commands := by
  unfold displace at h
  split at h
  · split at h
    · cases h
      rfl
    · cases h
      rfl
  · cases h
  · cases h
  · cases h
    rfl

theorem applyCommandTo_spec (h : applyCommandTo c x t submittedBy r s existing m = .ok (p, s')) :
    p.isReplay = false ∧
      s'.commands = s.commands.put (appliedCommand x t submittedBy r existing) := by
  unfold applyCommandTo at h
  simp only [bind_eq_ok] at h
  obtain ⟨m', -, s₁, stored, s₂, appended, h⟩ := h
  cases h
  refine ⟨rfl, ?_⟩
  rw [appendIfEventNode_commands appended, putCommand_commands stored]
  rfl

theorem foldlM_displace_commands {keys : List Json}
    (h : keys.foldlM (displace x t action) s = .ok s') : s'.commands = s.commands :=
  foldlM_keeps (I := fun s' => s'.commands = s.commands)
    (fun _ _ _ same h => (displace_commands h).trans same) rfl h

theorem validateCommandMatch_version {found : Option Match}
    (h : validateCommandMatch t r found = .ok m) : m.version = r.seenVersion := by
  unfold validateCommandMatch at h
  split at h
  · cases h
  · split at h
    · cases h
    · next same =>
      cases h
      exact not_not.mp same

theorem validateCommand_version (h : validateCommand t r s = .ok m) :
    m.version = r.seenVersion := by
  unfold validateCommand at h
  simp only [bind_eq_ok] at h
  obtain ⟨m', checked, _, -, _, -, _, -, _, -, h⟩ := h
  cases h
  exact validateCommandMatch_version checked

end

/-- What a fresh submission does: it fails and changes nothing, it is rejected and the reason is
stored, or it is applied. -/
inductive Processed (u : Submission) (s : LiveStore) :
    LiveStore → Except LiveError ProcessedCommand → Prop
  | failed {e : LiveError} : Processed u s s (.error e)
  | rejected {s' : LiveStore} {row : Command} {reason : String} {e : ConflictError} :
      row.id = u.request.id → row.appliedAt = none → row.rejectedAt ≠ none →
      row.rejectionReason = some reason → s'.commands = s.commands.put row →
      s'.matchRows = s.matchRows → Processed u s s' (conflict e)
  | applied {s' : LiveStore} {m : Match} {p : ProcessedCommand} :
      s.matchRows.get (u.tournamentId, u.request.matchId.val) = some m →
      m.version = u.request.seenVersion → p.isReplay = false →
      s'.commands = s.commands.put (appliedCommand u.ambient u.tournamentId u.submittedBy u.request
        (s.commands.get u.request.id)) → Processed u s s' (.ok p)

theorem commandRow_id {t : Uuid} {s : LiveStore} :
    (commandRow t submittedBy r (s.commands.get r.id)).id = r.id := by
  cases found : s.commands.get r.id with
  | none => rfl
  | some row => exact (Table.key_of_get found : row.id = r.id)

theorem rejected_processed (u : Submission) (c : Settings) (s : LiveStore) (e : Rejection) :
    Processed u s (rejected c u.ambient u.tournamentId u.submittedBy u.request s
        (s.commands.get u.request.id) e).1
      (rejected c u.ambient u.tournamentId u.submittedBy u.request s
        (s.commands.get u.request.id) e).2 := by
  unfold rejected
  split
  · next s' stored =>
    exact @Processed.rejected u s s' { commandRow u.tournamentId u.submittedBy u.request
      (s.commands.get u.request.id) with
        appliedAt := none, rejectedAt := some u.ambient.inputs.now, rejectionReason := some e.1 }
      e.1 e.2 commandRow_id rfl (by simp) rfl (putCommand_commands stored)
      (putCommand_tables stored).1
  · exact .failed

theorem process_cases (u : Submission) (c : Settings) (s : LiveStore) :
    (∃ answer, replayExistingCommand u.tournamentId u.request s (s.commands.get u.request.id) =
        some answer ∧ u.process c s = (s, answer)) ∨
      (replayExistingCommand u.tournamentId u.request s (s.commands.get u.request.id) = none ∧
        Processed u s (u.process c s).1 (u.process c s).2) := by
  let P (y : LiveStore × Except LiveError ProcessedCommand) : Prop :=
    (∃ answer, replayExistingCommand u.tournamentId u.request s (s.commands.get u.request.id) =
      some answer ∧ y = (s, answer)) ∨
    (replayExistingCommand u.tournamentId u.request s (s.commands.get u.request.id) = none ∧
      Processed u s y.1 y.2)
  show P (u.process c s)
  unfold Submission.process
  split
  · refine processResolveCourtCommand_ends (fun answer replay => .inl ⟨answer, replay, rfl⟩)
      (fun e fresh => .inr ⟨fresh, .failed⟩)
      (fun e fresh => .inr ⟨fresh, rejected_processed u c s e⟩)
      fun chosen action keys s₁ s₂ m fresh valid displaced stored => .inr ⟨fresh, ?_⟩
    unfold validateResolution at valid
    simp only [bind_eq_ok] at valid
    obtain ⟨chosen, checked, shape, -, valid⟩ := valid
    exact .applied (validateCommandMatch_eq_ok checked) (validateCommandMatch_version checked) rfl
      (by rw [putCommand_commands stored, foldlM_displace_commands displaced])
  · refine processCommand_ends (fun answer replay => .inl ⟨answer, replay, rfl⟩)
      (fun e fresh => .inr ⟨fresh, .failed⟩)
      (fun e fresh => .inr ⟨fresh, rejected_processed u c s e⟩)
      fun m p s' fresh valid applied => .inr ⟨fresh, ?_⟩
    obtain ⟨first, stored⟩ := applyCommandTo_spec applied
    exact .applied (validateCommand_eq_ok valid) (validateCommand_version valid) first stored

/-! ## Histories -/

/-- A stored command says what became of it: applied, or rejected for a reason. -/
def Settled (c : Settings) (es : List Entry) (row : Command) : Prop :=
  (row.appliedAt ≠ none ∧ row.rejectedAt = none ∧ ∃ e ∈ es, e.Applied c ∧ e.id = row.id ∧
      row.tournamentId = e.submission.tournamentId ∧
      row.matchId = e.submission.request.matchId.val ∧
      row.action = e.submission.request.action.value) ∨
    (row.appliedAt = none ∧ row.rejectedAt ≠ none ∧ ∃ reason, row.rejectionReason = some reason)

/-- The command table after the submissions `es`. -/
structure Kept (c : Settings) (es : List Entry) (s : LiveStore) : Prop where
  settled : ∀ id row, s.commands.get id = some row → Settled c es row
  stored : ∀ e ∈ es, ∀ id row, (e.after c).commands.get id = some row →
    s.commands.get id = some row
  mutated : ∀ e ∈ es, e.Mutates c → ∃ row, s.commands.get e.id = some row ∧ row.appliedAt ≠ none

theorem Settled.mono {c : Settings} {row : Command} (h : Settled c es row) :
    Settled c (e :: es) row := by
  rcases h with ⟨applied, kept, e', he', rest⟩ | rejected
  · exact .inl ⟨applied, kept, e', List.mem_cons_of_mem _ he', rest⟩
  · exact .inr rejected

theorem Kept.fresh {c : Settings} {s : LiveStore} (h : Kept c es s) {t : Uuid}
    (replay : replayExistingCommand t r s (s.commands.get r.id) = none) :
    s.commands.get r.id = none := by
  cases found : s.commands.get r.id with
  | none => rfl
  | some row =>
    rw [found, replayExistingCommand] at replay
    rcases h.settled _ row found with ⟨applied, -⟩ | ⟨applied, rejected, -⟩
    · rw [if_pos applied] at replay
      split at replay <;> cases replay
    · rw [if_neg (not_not.mpr applied), if_pos rejected] at replay
      cases replay

theorem replayExistingCommand_ok {t : Uuid} {s : LiveStore}
    (h : replayExistingCommand t r s existing = some (.ok p)) :
    p.isReplay = true ∧ ∃ row, existing = some row ∧ row.appliedAt ≠ none := by
  unfold replayExistingCommand at h
  split at h
  · cases h
  · next row =>
    split at h
    · next applied =>
      split at h
      · cases h
        exact ⟨rfl, row, rfl, applied⟩
      · cases h
    · split at h
      · cases h
      · cases h

theorem get_put_new {s : LiveStore} {row : Command} (fresh : s.commands.get row.id = none)
    {id : Uuid} {old : Command} (h : s.commands.get id = some old) :
    (s.commands.put row).get id = some old := by
  rw [Table.get_put_of_ne _ (fun same => by rw [same, h] at fresh; cases fresh)]
  exact h

theorem Kept.same {c : Settings} {s : LiveStore} (h : Kept c es s) (before : e.before = s)
    (after : e.after c = s) : Kept c (e :: es) s := by
  refine ⟨fun id row found => (h.settled id row found).mono, ?_, ?_⟩
  · intro e' he' id row found
    rcases List.mem_cons.mp he' with rfl | he'
    · rwa [after] at found
    · exact h.stored e' he' id row found
  · intro e' he' mutates
    rcases List.mem_cons.mp he' with rfl | he'
    · exact absurd (by rw [after, before]) mutates
    · exact h.mutated e' he' mutates

theorem Kept.put {c : Settings} {s s' : LiveStore} (h : Kept c es s) (after : e.after c = s')
    {row : Command} (fresh : s.commands.get row.id = none)
    (stored : s'.commands = s.commands.put row) (settled : Settled c (e :: es) row)
    (mutates : e.Mutates c → e.id = row.id ∧ row.appliedAt ≠ none) : Kept c (e :: es) s' := by
  refine ⟨?_, ?_, ?_⟩
  · intro id row' found
    rw [stored, Table.get_put] at found
    split at found
    · cases found
      exact settled
    · exact (h.settled id row' found).mono
  · intro e' he' id row' found
    rcases List.mem_cons.mp he' with rfl | he'
    · rwa [after] at found
    · rw [stored]
      exact get_put_new fresh (h.stored e' he' id row' found)
  · intro e' he' changed
    rw [stored]
    rcases List.mem_cons.mp he' with rfl | he'
    · obtain ⟨same, applied⟩ := mutates changed
      exact ⟨row, by rw [same, Table.get_put_self], applied⟩
    · obtain ⟨row', found, applied⟩ := h.mutated e' he' changed
      exact ⟨row', get_put_new fresh found, applied⟩

theorem Kept.submit {c : Settings} {s : LiveStore} (h : Kept c es s) (u : Submission) :
    Kept c (⟨s, u⟩ :: es) (u.process c s).1 := by
  rcases process_cases u c s with ⟨answer, -, same⟩ | ⟨replay, processed⟩
  · have after : (u.process c s).1 = s := by rw [same]
    rw [after]
    exact h.same rfl after
  · have fresh := h.fresh replay
    generalize result : u.process c s = out at processed ⊢
    obtain ⟨s', answer⟩ := out
    have after : Entry.after ⟨s, u⟩ c = s' := congrArg Prod.fst result
    have answered : Entry.answer ⟨s, u⟩ c = answer := congrArg Prod.snd result
    cases processed with
    | failed => exact h.same rfl after
    | rejected id unapplied rejected reason stored rows =>
      refine h.put after (id ▸ fresh) stored (.inr ⟨unapplied, rejected, _, reason⟩) ?_
      exact fun changed => absurd (by rw [after]; exact rows) changed
    | applied found version new stored =>
      rw [fresh] at stored
      exact h.put after fresh stored (.inl ⟨nofun, rfl, ⟨s, u⟩, List.mem_cons_self,
        ⟨_, answered, new⟩, rfl, rfl, rfl, rfl⟩) (fun _ => ⟨rfl, nofun⟩)

theorem History.kept {c : Settings} {s : LiveStore} (h : History c es s) :
    Kept c es s := by
  induction h with
  | start empty =>
    refine ⟨fun id row found => ?_, fun e he => absurd he List.not_mem_nil,
      fun e he => absurd he List.not_mem_nil⟩
    rw [empty] at found
    cases found
  | submit u _ ih => exact ih.submit u
  | other _ same ih =>
    exact ⟨fun id row found => ih.settled id row (same ▸ found),
      fun e he id row found => same ▸ ih.stored e he id row found, same ▸ ih.mutated⟩

theorem MatchAction.value_injective {a b : MatchAction} (h : a.value = b.value) : a = b := by
  cases a <;> cases b <;> first | rfl | (simp [MatchAction.value] at h)

theorem Kept.answered {c : Settings} {s : LiveStore} (h : Kept c es s) (u : Submission)
    (own : Entry.Own ⟨s, u⟩) : Answered c es ⟨s, u⟩ := by
  rcases process_cases u c s with ⟨answer, replay, same⟩ | ⟨replay, processed⟩
  · have after : Entry.after ⟨s, u⟩ c = s := congrArg Prod.fst same
    have answered : Entry.answer ⟨s, u⟩ c = answer := congrArg Prod.snd same
    have still : ¬ Entry.Mutates ⟨s, u⟩ c := fun changed => changed (by rw [after])
    refine ⟨fun changed => absurd changed still, ?_, ?_, ?_⟩
    · rintro (changed | ⟨p, ok, new⟩)
      · exact absurd changed still
      · rw [answered] at ok
        subst ok
        rw [(replayExistingCommand_ok replay).1] at new
        cases new
    · intro e he row found rejected
      have found' : s.commands.get u.request.id = some row := h.stored e he _ row found
      rcases h.settled _ row found' with ⟨-, unrejected, -⟩ | ⟨unapplied, -, reason, stored⟩
      · exact absurd unrejected rejected
      · refine ⟨after, reason, stored, ?_⟩
        rw [found', replayExistingCommand, if_neg (not_not.mpr unapplied), if_pos rejected,
          stored] at replay
        rw [answered]
        exact (Option.some.inj replay).symm
    · intro p ok _
      rw [answered] at ok
      subst ok
      obtain ⟨-, row, found, applied⟩ := replayExistingCommand_ok replay
      obtain ⟨tournament, matchId, action⟩ := own row found applied
      rcases h.settled _ row found with ⟨-, -, e, he, done, id, tournament', matchId', action'⟩ | gone
      · refine ⟨e, he, done, id.trans (Table.key_of_get found), tournament'.symm.trans tournament,
          matchId'.symm.trans matchId, ?_⟩
        exact MatchAction.value_injective (action'.symm.trans action)
      · exact absurd gone.1 applied
  · have fresh := h.fresh replay
    generalize result : u.process c s = out at processed
    obtain ⟨s', answer⟩ := out
    have after : Entry.after ⟨s, u⟩ c = s' := congrArg Prod.fst result
    have answered : Entry.answer ⟨s, u⟩ c = answer := congrArg Prod.snd result
    have once : ∀ e ∈ es, e.Mutates c → e.id ≠ u.request.id := by
      intro e he changed same
      obtain ⟨row, found, -⟩ := h.mutated e he changed
      rw [same, fresh] at found
      cases found
    have unknown : ∀ e ∈ es, ∀ row, (e.after c).commands.get u.request.id ≠ some row := by
      intro e he row found
      rw [h.stored e he _ row found] at fresh
      cases fresh
    refine ⟨fun _ => once, ?_, fun e he row found => absurd found (unknown e he row), ?_⟩
    · cases processed with
      | failed =>
        rintro (changed | ⟨p, ok, -⟩)
        · exact absurd (by rw [after]) changed
        · rw [answered] at ok
          cases ok
      | rejected _ _ _ _ _ rows =>
        rintro (changed | ⟨p, ok, -⟩)
        · exact absurd (by rw [after]; exact rows) changed
        · rw [answered] at ok
          cases ok
      | applied found version new => exact fun _ => ⟨⟨_, answered, new⟩, _, found, version⟩
    · intro p ok old
      rw [answered] at ok
      subst ok
      cases processed with
      | applied _ _ new =>
        rw [new] at old
        cases old

/-- **Commands are idempotent.** In every history whose submissions never carry the id of an applied
command of another tournament, match or action: an id mutates match rows at most once, what is
applied saw the current version, a rejected id is answered with its first reason and changes
nothing, and a successful replay repeats a command that was applied before. -/
theorem commands_idempotent {c : Settings} {es : List Entry} {s : LiveStore} (h : History c es s)
    (own : ∀ e ∈ es, e.Own) {newer older : List Entry} {e : Entry}
    (split : es = newer ++ e :: older) : Answered c older e := by
  induction h generalizing newer with
  | start => simp at split
  | submit u run ih =>
    cases newer with
    | nil =>
      cases split
      exact run.kept.answered u (own _ List.mem_cons_self)
    | cons last newer =>
      cases split
      exact ih (fun e he => own e (List.mem_cons_of_mem _ he)) rfl
  | other _ _ ih => exact ih own split

namespace CommandRehearsal

open Sync.Rehearsal (eventId director)
open ImportRehearsal (settings ambient)
open CourtsideRehearsal (first first_bounded second crowded)

/-- A call of a match under one id. -/
def call (matchId : Bounded 1 100) : Submission where
  tournamentId := eventId
  ambient := ambient
  submittedBy := director
  request :=
    { id := "88888888-8888-4888-8888-888888888888", matchId := matchId, action := .callToCourt
      payload := none, seenVersion := 1 }

def called : Entry := ⟨crowded, call ⟨first, first_bounded⟩⟩

def repeated : Entry := ⟨called.after settings, call ⟨first, first_bounded⟩⟩

def reused : Entry := ⟨called.after settings, call ⟨second, by decide⟩⟩

theorem called_history : History settings [called] (called.after settings) :=
  .submit _ (.start (s := crowded) fun _ => rfl)

end CommandRehearsal

open CommandRehearsal ImportRehearsal in
theorem commands_idempotent_repeated :
    Answered settings [called] repeated ∧ (repeated.answer settings).toOption.isSome :=
  ⟨commands_idempotent (.submit _ called_history) (by decide +kernel)
    (show [repeated, called] = [] ++ repeated :: [called] from rfl), by decide +kernel⟩

open CommandRehearsal ImportRehearsal in
/-- The id of an applied call, sent for another match, is answered as a successful replay though
nothing was applied to that match. -/
theorem reused_id_replayed :
    History settings [reused, called] (reused.after settings) ∧
      (∃ p, reused.answer settings = .ok p ∧ p.isReplay = true) ∧
      ¬ Answered settings [called] reused := by
  have answered : ∃ p, reused.answer settings = .ok p ∧ p.isReplay = true := by
    have ok : (reused.answer settings).toOption.any ProcessedCommand.isReplay = true := by
      decide +kernel
    cases answer : reused.answer settings with
    | ok p =>
      rw [answer] at ok
      exact ⟨p, rfl, ok⟩
    | error e =>
      rw [answer] at ok
      cases ok
  refine ⟨.submit _ called_history, answered, fun promised => ?_⟩
  obtain ⟨p, ok, replay⟩ := answered
  obtain ⟨e, he, -, -, -, same, -⟩ := promised.replayed p ok replay
  rw [List.mem_singleton.mp he] at same
  exact absurd same (by decide)

end Operations
