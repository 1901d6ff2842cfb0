import ShuttleWorks.Entries.KeptAnswers

/-! Between two statements a transaction fits the committed rows: it is about to begin a call, on
its way through an act, or thrown back by a rollback. Statements keep this, and commits of the
others leave it. -/

namespace Entries
open Lib
open Sync (Uuid)

variable {p : Platform} {l : Locking} {books books' : Books} {store : Registry}
  {others : List CreateTx} {tx tx' : CreateTx} {call : CreateCall} {calls : List CreateCall}
  {first : List Uuid} {relied created : List Core} {acts : List Submission}

/-- How a transaction stands against the committed rows. -/
inductive Fitting (store : Registry) (tx : CreateTx) : Prop
  | ready (phase : tx.phase = .replay ∨ tx.phase = .submission) (players : tx.players = [])
      (entries : tx.entries = []) (relied : List Core) (acts : List Submission)
      (created : List Core) (sound : Sound store tx.writes tx.answers [] relied acts created)
  | underway (call : CreateCall) (calls : List CreateCall) (begun : tx.calls = call :: calls)
      (relied : List Core) (acts : List Submission) (created : List Core)
      (sound : Sound store tx.writes tx.answers [tx.submission] relied acts created)
      (act : call.submission tx.submission ∈ acts)
      (entries : tx.entries = (ofAct created tx.submission).map Core.id)
      (players : ∀ id ∈ tx.players, (store.writeAll tx.writes).players.Has id)
      (stage : Underway call tx.players (ofAct created tx.submission) tx.phase)
  | undone (constraint : String) (phase : tx.phase = .reread constraint) (more : tx.calls ≠ [])
      (nothing : tx.writes = [])
      (kept : recorded tx.answers = [] →
        ∀ a ∈ tx.answers, Known store.submissions.rows (cores store) store.players.Has a)

/-- A call that loses the race for its key loses it before its transaction recorded an act. -/
def LosesFirst (books : Books) (_ : List CreateTx) (tx : CreateTx) : Prop :=
  match tx.calls, tx.phase with
  | call :: _, .reread _ =>
    (replay (tx.view books.registry) call.form.idempotencyKey call.form.accountId).isSome →
      recorded tx.answers = []
  | _, _ => True

instance (books : Books) (others : List CreateTx) (tx : CreateTx) :
    Decidable (LosesFirst books others tx) := by
  unfold LosesFirst
  split <;> infer_instance

theorem Fitting.start (sane : UniqueKeys store.submissions.rows) (calls : List CreateCall) :
    Fitting store (.start calls) :=
  .ready (.inl rfl) rfl rfl [] [] [] (.nothing sane rfl (by simp [CreateTx.start]))

theorem Fitting.rolledBack (h : Fitting store tx) (more : tx.calls ≠ []) (constraint : String) :
    Fitting store (tx.rolledBack constraint) := by
  refine .undone constraint rfl more rfl ?_
  cases h with
  | ready phase players entries relied acts created sound => exact sound.unwritten
  | underway call calls begun relied acts created sound => exact sound.unwritten
  | undone constraint phase more nothing kept => exact kept

theorem Fitting.answered {a : CreateAnswer}
    (sound : Sound store tx.writes (tx.answers ++ [a]) [] relied acts created) :
    Fitting store (tx.answer calls a) :=
  .ready (.inl rfl) rfl rfl relied acts created sound

theorem ofAct_new {ws : List RowWrite} {answers : List CreateAnswer} {current : List Uuid}
    {id : Uuid} (sound : Sound store ws answers current relied acts created)
    (new : ¬ (store.writeAll ws).submissions.Has id) : ofAct created id = [] := by
  apply ofAct_eq_nil sound.owned
  rintro s hs rfl
  apply new
  rw [Table.Has, sound.submissions, List.map_append]
  exact List.mem_append_right _ (List.mem_map_of_mem hs)

theorem Fitting.idle (fits : Fitting store tx)
    (phase : tx.phase = .replay ∨ tx.phase = .submission) :
    tx.players = [] ∧ tx.entries = [] ∧ ∃ relied acts created,
      Sound store tx.writes tx.answers [] relied acts created := by
  cases fits with
  | ready _ players entries relied acts created sound =>
    exact ⟨players, entries, relied, acts, created, sound⟩
  | underway call calls begun relied acts created sound act entries players stage =>
    rcases phase with phase | phase
    all_goals
      rw [phase] at stage
      exact stage.elim
  | undone constraint reread => rcases phase with phase | phase <;> simp [phase] at reread

theorem Fitting.writing (fits : Fitting store tx) (begun : tx.calls = call :: calls)
    (idle : tx.phase ≠ .replay ∧ tx.phase ≠ .submission)
    (reads : ∀ constraint, tx.phase ≠ .reread constraint) :
    ∃ relied acts created, Sound store tx.writes tx.answers [tx.submission] relied acts created ∧
      call.submission tx.submission ∈ acts ∧
      tx.entries = (ofAct created tx.submission).map Core.id ∧
      (∀ id ∈ tx.players, (store.writeAll tx.writes).players.Has id) ∧
      Underway call tx.players (ofAct created tx.submission) tx.phase := by
  cases fits with
  | ready phase => exact (phase.elim idle.1 idle.2).elim
  | underway call' calls' begun' relied acts created sound act entries players stage =>
    obtain ⟨rfl, rfl⟩ := List.cons.inj (begun.symm.trans begun')
    exact ⟨relied, acts, created, sound, act, entries, players, stage⟩
  | undone constraint phase => exact absurd phase (reads constraint)

theorem Fitting.rereads (fits : Fitting store tx) {constraint : String}
    (phase : tx.phase = .reread constraint) : tx.writes = [] ∧ (recorded tx.answers = [] →
      ∀ a ∈ tx.answers, Known store.submissions.rows (cores store) store.players.Has a) := by
  cases fits with
  | ready idle => simp [phase] at idle
  | underway call calls begun relied acts created sound act entries players stage =>
    rw [phase] at stage
    exact stage.elim
  | undone _ _ _ nothing kept => exact ⟨nothing, kept⟩

theorem Fitting.flushed (sane : Sane first books) (fits : Fitting books.registry tx)
    (begun : tx.calls = call :: calls) (met : LosesFirst books others tx)
    (h : CreateTx.Flushed p l books.registry others tx call calls tx') :
    Fitting books.registry tx' := by
  cases h with
  | replayed result phase known =>
    obtain ⟨-, -, relied, acts, created, sound⟩ := fits.idle (.inl phase)
    exact answered (sound.replays rfl ⟨rfl, rfl⟩ known)
  | unknown phase none =>
    obtain ⟨players, entries, relied, acts, created, sound⟩ := fits.idle (.inl phase)
    exact .ready (.inr rfl) players entries relied acts created sound
  | refused constraint => exact fits.rolledBack (by simp [begun]) constraint
  | act id r' phase ok free =>
    obtain ⟨unused, new, written⟩ := insertSubmission_ok ok
    obtain ⟨players, entries, relied, acts, created, sound⟩ := fits.idle (.inr phase)
    have none := ofAct_new sound new
    refine .underway call calls begun relied (acts ++ [call.submission id]) created ?_ ?_ ?_ ?_ ?_
    · rw [written]
      exact sound.inserts rfl rfl unused new
    · exact List.mem_append_right _ List.mem_cons_self
    · rw [none]
      exact entries
    · simp [players]
    · refine ⟨[], (map_fst_perPlayerFee _).symm, ?_⟩
      rw [none, players]
      exact entered_nil
  | recorded phase =>
    obtain ⟨relied, acts, created, sound, act, entries, staffed, stage⟩ :=
      fits.writing begun (by simp [phase]) (by simp [phase])
    rw [phase] at stage
    obtain ⟨done, players, entered⟩ := stage
    rw [List.map_nil, List.append_nil] at players
    subst players
    have whole := sound.completes tx.invites rfl act sane.billed entered staffed
    rw [← entries] at whole
    exact answered whole
  | met spec priced people person events r' phase ok free =>
    obtain ⟨rfl, selects, has, only⟩ := meetPerson_ok ok
    obtain ⟨relied, acts, created, sound, act, entries, staffed, stage⟩ :=
      fits.writing begun (by simp [phase]) (by simp [phase])
    rw [phase] at stage
    obtain ⟨done, players, entered⟩ := stage
    refine .underway call calls begun _ acts created (sound.players only) act entries ?_
      ⟨done, players, .begins entered selects⟩
    intro id mem
    rcases List.mem_append.mp mem with mem | mem
    · exact has_player_append (staffed id mem)
    · rw [List.mem_singleton.mp mem]
      exact has_player_changes rfl has
  | finished person people phase =>
    obtain ⟨relied, acts, created, sound, act, entries, staffed, stage⟩ :=
      fits.writing begun (by simp [phase]) (by simp [phase])
    rw [phase] at stage
    obtain ⟨done, players, midway⟩ := stage
    refine .underway call calls begun relied acts created sound act entries staffed
      ⟨done ++ [person.spec], ?_, midway.ends⟩
    rw [players, List.append_assoc]
    rfl
  | entered person share event events people e r' phase ok free =>
    obtain ⟨core, new, written⟩ := insertEntry_ok ok
    obtain ⟨relied, acts, created, sound, act, entries, staffed, stage⟩ :=
      fits.writing begun (by simp [phase]) (by simp [phase])
    rw [phase] at stage
    obtain ⟨done, players, midway⟩ := stage
    have of_act : e.core.submissionId = some tx.submission := by rw [core]
    have grown : ofAct (created ++ [e.core]) tx.submission =
        ofAct created tx.submission ++ [e.core] := by
      rw [ofAct_append]
      simp [ofAct, of_act]
    refine .underway call calls begun relied acts (created ++ [e.core]) ?_ act ?_
      (fun id mem => has_player_append (staffed id mem)) ⟨done, players, ?_⟩
    · rw [written]
      exact sound.enters rfl rfl of_act new
    · rw [grown, List.map_append, ← entries]
      rfl
    · rw [grown]
      exact midway.enters (by rw [core]) (by rw [core])
  | nominated e event person events people invites r' phase ok free =>
    obtain ⟨same, submissions⟩ := nominateNamed_cores ok
    obtain ⟨relied, acts, created, sound, act, entries, staffed, stage⟩ :=
      fits.writing begun (by simp [phase]) (by simp [phase])
    rw [phase] at stage
    exact .underway call calls begun _ acts created (sound.again rfl same submissions) act
      entries (fun id mem => has_player_append (staffed id mem)) stage
  | lost constraint winner phase known =>
    obtain ⟨nothing, kept⟩ := fits.rereads phase
    have none : recorded tx.answers = [] := by
      unfold LosesFirst at met
      rw [begun, phase] at met
      exact met (by simp [known])
    have sound := Sound.nothing sane.unique none (kept none)
    refine Fitting.answered (show Sound _ tx.writes _ [] [] [] [] from ?_)
    rw [nothing]
    refine sound.replays rfl ⟨?_, ?_⟩ known
    · simp [CreateTx.view, nothing]
    · simp [CreateTx.view, nothing, cores]

theorem Fitting.rebase {other : CreateTx}
    (sound : Sound store tx.writes tx.answers [] relied acts created) (fits : Fitting store other)
    (apart : Apart CreateTx.locks tx other) :
    Fitting (store.writeAll tx.writes) other := by
  cases fits with
  | ready phase players entries relied' acts' created' sound' =>
    exact .ready phase players entries relied' acts' created' (sound.rebase sound' apart)
  | underway call calls begun relied' acts' created' sound' act entries players stage =>
    exact .underway call calls begun relied' acts' created' (sound.rebase sound' apart) act entries
      (fun id mem => has_player_under (players id mem)) stage
  | undone constraint phase more nothing kept =>
    exact .undone constraint phase more nothing fun none a ha => sound.keeps_stored (kept none a ha)

theorem Fitting.through (fits : Fitting store tx) (done : tx.calls = []) :
    ∃ relied acts created, Sound store tx.writes tx.answers [] relied acts created := by
  cases fits with
  | ready phase players entries relied acts created sound => exact ⟨relied, acts, created, sound⟩
  | underway call calls begun => simp [done] at begun
  | undone constraint phase more => exact absurd done more

/-- **Calls recorded side by side.** However the transactions start, each of them stays right
against the committed rows as long as races are lost first. -/
theorem recording_rule {ρ : Type} (start : ρ → List CreateCall) :
    Interleaved.Rule (fun request => CreateTx.start (start request)) (CreateTx.exec p l) LosesFirst
      (Sane first) (fun books tx => Fitting books.registry tx) (Apart CreateTx.locks) where
  symm _ _ := Apart.symm
  starts _ _ sane := .start sane.unique _
  startsApart _ _ _ _ held := absurd held List.not_mem_nil
  goesOn store others tx tx' placed met ran := by
    obtain ⟨call, calls, begun, flushed⟩ := CreateTx.exec_goesOn ran
    exact ⟨placed.fits.flushed placed.holds begun met flushed,
      fun other mem => flushed.apart mem (placed.rest other mem).2⟩
  commits store others tx store' placed met ran := by
    obtain ⟨done, rfl⟩ := CreateTx.exec_commits.mp ran
    obtain ⟨relied, acts, created, sound⟩ := placed.fits.through done
    exact ⟨sound.commits rfl placed.holds, fun other fits apart => fits.rebase sound apart⟩

end Entries
