import ShuttleWorks.Entries.Guarantees
import ShuttleWorks.Entries.OtherAccounts

/-! One act under a key. Whatever calls an account makes with one idempotency key, in turn or at
the same time, one of them records its act, and every other one is answered with it. -/

namespace Entries
open Lib
open Sync (Uuid)

variable {p : Platform} {l : Locking} {books : Books} {others : List CreateTx} {tx tx' : CreateTx}
  {call : CreateCall} {calls : List CreateCall} {first : List Uuid} {x : Submission} {r : Registry}

/-! ## Transactions of one call -/

/-- A transaction of one call: it only reads, it writes its act, or it is through. -/
inductive Lone (tx : CreateTx) : Prop
  | reads (call : CreateCall) (calls : tx.calls = [call]) (answers : tx.answers = [])
      (writes : tx.writes = []) (phase : tx.phase = .replay ∨ tx.phase = .submission ∨
        ∃ constraint, tx.phase = .reread constraint)
  | writes (call : CreateCall) (calls : tx.calls = [call]) (answers : tx.answers = [])
      (idle : tx.phase ≠ .replay ∧ tx.phase ≠ .submission)
      (reads : ∀ constraint, tx.phase ≠ .reread constraint)
  | through (a : CreateAnswer) (calls : tx.calls = []) (answers : tx.answers = [a])
      (silent : a.result.replayed = true → tx.writes = [])

theorem Lone.start (call : CreateCall) : Lone (.start [call]) :=
  .reads call rfl rfl rfl (.inl rfl)

theorem Lone.answers_eq_nil (lone : Lone tx) (begun : tx.calls = call :: calls) :
    tx.answers = [] := by
  cases lone with
  | reads call calls answers => exact answers
  | writes call calls answers => exact answers
  | through a calls => simp [calls] at begun

theorem Lone.calls_eq_nil (lone : Lone tx) (begun : tx.calls = call :: calls) : calls = [] := by
  cases lone with
  | reads call' only => exact (List.cons.inj (begun.symm.trans only)).2
  | writes call' only => exact (List.cons.inj (begun.symm.trans only)).2
  | through a none => simp [none] at begun

theorem Lone.writes_eq_nil (lone : Lone tx) (begun : tx.calls = call :: calls)
    (phase : tx.phase = .replay ∨ tx.phase = .submission ∨
      ∃ constraint, tx.phase = .reread constraint) : tx.writes = [] := by
  cases lone with
  | reads call' calls' answers writes => exact writes
  | writes call' calls' answers idle reads =>
    rcases phase with phase | phase | ⟨constraint, phase⟩
    · exact absurd phase idle.1
    · exact absurd phase idle.2
    · exact absurd phase (reads constraint)
  | through a none => simp [none] at begun

theorem Lone.flushed {registry : Registry} (lone : Lone tx) (begun : tx.calls = call :: calls)
    (h : CreateTx.Flushed p l registry others tx call calls tx') : Lone tx' := by
  have none := lone.answers_eq_nil begun
  have only := lone.calls_eq_nil begun
  subst only
  have answered : ∀ a : CreateAnswer, (a.result.replayed = true → tx.writes = []) →
      Lone (tx.answer [] a) := by
    intro a silent
    refine .through a rfl ?_ silent
    show tx.answers ++ [a] = [a]
    rw [none]
    rfl
  cases h with
  | replayed result phase =>
    exact answered _ fun _ => lone.writes_eq_nil begun (.inl phase)
  | unknown phase =>
    exact .reads call begun none (lone.writes_eq_nil begun (.inl phase)) (.inr (.inl rfl))
  | refused constraint => exact .reads call begun none rfl (.inr (.inr ⟨constraint, rfl⟩))
  | act => exact .writes call begun none ⟨nofun, nofun⟩ nofun
  | recorded => exact answered _ nofun
  | met => exact .writes call begun none ⟨nofun, nofun⟩ nofun
  | finished => exact .writes call begun none ⟨nofun, nofun⟩ nofun
  | entered => exact .writes call begun none ⟨nofun, nofun⟩ nofun
  | nominated => exact .writes call begun none ⟨nofun, nofun⟩ nofun
  | lost constraint winner phase =>
    exact answered _ fun _ => lone.writes_eq_nil begun (.inr (.inr ⟨constraint, phase⟩))

theorem single_rule : Interleaved.Rule (fun call => CreateTx.start [call]) (CreateTx.exec p l)
    (fun _ _ _ => True) (Sane first)
    (fun books tx => Fitting books.registry tx ∧ Lone tx ∧ ∃ account, Owned account tx)
    (Apart CreateTx.locks) := by
  apply (recording_rule fun call => [call]).along
  · intro call
    refine ⟨.start call, call.form.accountId, ?_, by simp [CreateTx.start],
      by simp [CreateTx.start]⟩
    intro c hc
    rw [List.mem_singleton.mp hc]
  · rintro store others tx tx' - ⟨lone, account, own⟩ ran
    obtain ⟨call, calls, begun, flushed⟩ := CreateTx.exec_goesOn ran
    exact ⟨lone.flushed begun flushed, account, own.flushed begun flushed⟩
  · rintro store others tx ⟨lone, -⟩ -
    unfold LosesFirst
    split
    · next call calls constraint begun phase =>
      rw [lone.answers_eq_nil begun]
      exact fun _ => rfl
    · trivial

/-! ## A key that is taken -/

theorem UniqueKeys.eq {acts : List Submission} (h : UniqueKeys acts) {y : Submission}
    (hx : x ∈ acts) (hy : y ∈ acts) (same : SameKey x y) : x = y := by
  by_contra other
  have symm : Std.Symm fun s s' => ¬ SameKey s s' := ⟨fun _ _ free taken => free taken.symm⟩
  exact h.forall hx hy other same

def whole (r : Registry) (x : Submission) : SubmissionResult :=
  { submission := x.id, entries := (entriesOf r x.id).map Entry.id, replayed := true }

theorem replay_whole (unique : UniqueKeys r.submissions.rows) (hx : x ∈ r.submissions.rows)
    (act : ActOf call x) (keyed : x.idempotencyKey ≠ none) :
    replay r call.form.idempotencyKey call.form.accountId = some (whole r x) := by
  cases found : replay r call.form.idempotencyKey call.form.accountId with
  | none => exact absurd (replay_eq_none.mp found x hx act.1 act.2) keyed
  | some result =>
    obtain ⟨y, hy, account, key, -, rfl⟩ := replay_eq_some found
    obtain rfl := unique.eq hx hy ⟨act.1.trans account.symm, act.2.trans key.symm, keyed⟩
    rw [whole, ids_entriesOf]

theorem insertSubmission_taken (taken : KeyTaken r call.form) :
    insertSubmission p r call = .error (.integrity "submissions.idempotency_key") := by
  unfold insertSubmission
  simp only [Registry.mint]
  show (require (¬ KeyTaken r call.form) _ >>= fun _ => _) = _
  rw [require, if_neg (not_not_intro taken)]
  rfl

/-- The call is answered with the act: at once, or after the index refused its row and the key
is read again. It has written nothing. -/
structure AnsweredBy (p : Platform) (l : Locking) (books : Books) (others : List CreateTx)
    (tx : CreateTx) (call : CreateCall) (x : Submission) : Prop where
  writes : tx.writes = []
  goesOn : CreateTx.exec p l books others tx =
      .goesOn (tx.answer [] ⟨call, whole books.registry x, []⟩) ∨
    (tx.phase = .submission ∧ CreateTx.exec p l books others tx =
      .goesOn (tx.rolledBack "submissions.idempotency_key"))

theorem answered_by (sane : Sane first books) (fits : Fitting books.registry tx) (lone : Lone tx)
    (begun : tx.calls = [call]) (hx : x ∈ books.registry.submissions.rows) (act : ActOf call x)
    (keyed : x.idempotencyKey ≠ none) :
    AnsweredBy p l books others tx call x := by
  cases lone with
  | reads call' calls answers writes phase =>
    obtain rfl := (List.cons.inj (begun.symm.trans calls)).1
    have found := replay_whole sane.unique hx act keyed
    have view : replay (tx.view books.registry) call.form.idempotencyKey call.form.accountId =
        some (whole books.registry x) := by
      rw [← found, CreateTx.view, writes]
      rfl
    refine ⟨writes, ?_⟩
    unfold CreateTx.exec
    simp only [begun]
    rcases phase with phase | phase | ⟨constraint, phase⟩
    · simp [phase, view]
    · have taken : KeyTaken (tx.view books.registry) call.form := by
        refine keyTaken_iff.mpr ⟨x, ?_, act.1, act.2, keyed⟩
        rw [CreateTx.view, writes]
        exact hx
      simp only [phase, insertSubmission_taken taken]
      exact .inr ⟨trivial, rfl⟩
    · simp [phase, view]
  | writes call' calls answers idle reads =>
    obtain ⟨relied, acts, created, sound, own, -⟩ := fits.writing begun idle reads
    have cross := (List.pairwise_append.mp sound.unique).2.2 x hx _ own
    exact absurd ⟨act.1, act.2, keyed⟩ cross
  | through a none => simp [none] at begun

/-! ## Every interleaving -/

/-- The acts of a tournament before any of the calls: one at most under a key, and every entry
that belongs to an act belongs to one that is there. -/
structure Lawful (r : Registry) : Prop where
  unique : UniqueKeys r.submissions.rows
  billed : ∀ e ∈ r.entries.rows, ∀ id, e.submissionId = some id → r.submissions.Has id

theorem Lawful.sane (h : Lawful r) :
    Sane (r.submissions.rows.map Submission.id) ⟨r, []⟩ where
  unique := h.unique
  billed := by
    intro c hc
    obtain ⟨e, he, rfl⟩ := List.mem_map.mp hc
    exact h.billed e he
  known := by simp
  counted := (List.append_nil _).symm

/-- What the calls side by side have come to. -/
structure Idempotent (p : Platform) (l : Locking) (first : List Uuid)
    (s : Interleaved Books CreateTx) : Prop where
  /-- An account has one act at most under a key. -/
  one : ∀ x ∈ s.store.registry.submissions.rows, ∀ y ∈ s.store.registry.submissions.rows,
    SameKey x y → x = y
  /-- Every act since is the act of one call, with an entry for every player and event of it. -/
  won : ∀ x ∈ s.store.registry.submissions.rows, x.id ∈ first ∨ ∃ a ∈ s.store.answers,
    a.result.replayed = false ∧ a.result.submission = x.id ∧ ActOf a.call x ∧
    Entered a.call.form.players a.players (ofAct (cores s.store.registry) x.id)
  /-- Every answer is an act of the calling account under the call's key, with all its entries. -/
  told : ∀ a ∈ s.store.answers, ∃ x ∈ s.store.registry.submissions.rows,
    x.id = a.result.submission ∧ ActOf a.call x ∧
    a.result.entries = (entriesOf s.store.registry x.id).map Entry.id
  /-- A call that is answered with an earlier act writes nothing. -/
  silent : ∀ tx ∈ s.running, tx.calls = [] → ∀ a ∈ tx.answers, a.result.replayed = true →
    ∀ others, CreateTx.exec p l s.store others tx =
      .commits ⟨s.store.registry, s.store.answers ++ tx.answers⟩
  /-- A call whose key is taken is answered with the act that has it. -/
  answered : ∀ n tx call x, s.running[n]? = some tx → tx.calls = [call] →
    x ∈ s.store.registry.submissions.rows → ActOf call x → x.idempotencyKey ≠ none →
    AnsweredBy p l s.store (s.others n) tx call x
  /-- What a call does next does not depend on the keys of other accounts. -/
  blind : ∀ n tx, s.running[n]? = some tx → ∃ account,
    (∀ call ∈ tx.calls, call.form.accountId = account) ∧
    (∀ a ∈ tx.answers, a.call.form.accountId = account) ∧
    CreateTx.exec p l (s.store.hush account) ((s.others n).map (CreateTx.hush account)) tx =
      (CreateTx.exec p l s.store (s.others n) tx).onStore (Books.hush account)

/-- **Every interleaving of calls records one act under a key and answers every call with it.** -/
theorem createSubmission_idempotent {registry : Registry} (lawful : Lawful registry)
    {s : Interleaved Books CreateTx}
    (h : Reachable (fun s => s = ⟨⟨registry, []⟩, []⟩)
      (Interleaved.Steps (fun call => CreateTx.start [call]) (CreateTx.exec p l)
        fun _ _ _ => True) s) :
    Idempotent p l (registry.submissions.rows.map Submission.id) s := by
  have fits : Interleaved.Fits (Sane (registry.submissions.rows.map Submission.id))
      (fun books tx => Fitting books.registry tx ∧ Lone tx ∧ ∃ account, Owned account tx)
      (Apart CreateTx.locks) s := by
    apply Interleaved.Fits.reachable single_rule ?_ h
    rintro s rfl
    exact ⟨lawful.sane, by simp, List.Pairwise.nil⟩
  have sane := fits.store
  refine ⟨?_, ?_, ?_, ?_, ?_, ?_⟩
  · intro x hx y hy same
    exact sane.unique.eq hx hy same
  · intro x hx
    have mem := List.mem_map_of_mem (f := Submission.id) hx
    rw [sane.counted, List.mem_append] at mem
    refine mem.imp_right fun mem => ?_
    obtain ⟨a, ha, same⟩ := List.mem_map.mp mem
    obtain ⟨ha, fresh⟩ := List.mem_filter.mp ha
    obtain ⟨y, hy, id, act, -, entered, -⟩ := sane.known a ha
    obtain rfl := Table.eq_of_key_eq hx hy (same.symm.trans id.symm)
    have fresh : a.result.replayed = false := by simpa using fresh
    exact ⟨a, ha, fresh, same, act, entered fresh⟩
  · intro a ha
    obtain ⟨x, hx, id, act, entries, -⟩ := sane.known a ha
    refine ⟨x, hx, id, act, ?_⟩
    rw [entries, ids_entriesOf]
  · intro tx htx done a ha replayed others
    have writes : tx.writes = [] := by
      cases (fits.running tx htx).2.1 with
      | reads call calls => simp [done] at calls
      | writes call calls => simp [done] at calls
      | through b _ answers silent =>
        rw [answers] at ha
        exact silent (List.mem_singleton.mp ha ▸ replayed)
    rw [CreateTx.exec_commits.mpr ⟨done, rfl⟩, writes]
    rfl
  · intro n tx call x found begun hx act keyed
    obtain ⟨fitting, lone, -⟩ := fits.running tx (List.mem_of_getElem? found)
    exact answered_by sane fitting lone begun hx act keyed
  · intro n tx found
    obtain ⟨-, -, account, own⟩ := fits.running tx (List.mem_of_getElem? found)
    exact ⟨account, own.calls, own.answers, exec_hush own⟩

/-- One person for the doubles event under a key; the drawn ids start with the letter. -/
def keyed (account : Uuid) (key letter : String) : CreateCall where
  form := { accountId := account, feeTotalCents := none, feeBasis := none
            players := [{ fullName := "Ann", gender := "F", events := ["md"] }]
            idempotencyKey := some key }
  page := some ⟨true, 1, none, none, none, none⟩
  now := 1
  uuid4 n := letter ++ letters.uuid4 n
  tokenUrlsafe n := letter ++ letters.tokenUrlsafe n

/-- The same call twice side by side: the second one waits for the first one's index entry, is
refused when that is committed, and is answered with the first one's act. -/
theorem createSubmission_idempotent_twice :
    let moves : List (Interleaved.Move CreateCall) :=
      [.start (keyed "ann" "k" "a"), .start (keyed "ann" "k" "b"), .run 0, .run 1, .run 0, .run 1,
        .run 0, .run 0, .run 0, .run 0, .run 0, .run 0, .run 0, .run 0, .run 0]
    let s := Interleaved.after (fun call => CreateTx.start [call]) (CreateTx.exec letters .rows)
      ⟨⟨hall.registry, []⟩, []⟩ moves
    Idempotent letters .rows [] s ∧
      s.store.answers.map (fun a => (a.result.submission, a.result.entries, a.result.replayed)) =
        [("au", ["auuu"], false), ("au", ["auuu"], true)] := by
  intro moves s
  have lawful : Lawful hall.registry := ⟨List.Pairwise.nil, by simp [hall, Table.empty]⟩
  refine ⟨createSubmission_idempotent lawful (Interleaved.Along.reachable (.init rfl) ?_), ?_⟩
  · show Interleaved.Along _ _ _ _ moves
    decide +kernel
  · decide +kernel

end Entries
