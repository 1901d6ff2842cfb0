import ShuttleWorks.Entries.Fitting

/-! The keys of other accounts. A call does the same whatever keys the acts of other accounts have,
committed or on their way: it neither finds them nor waits for them. -/

namespace Entries
open Lib
open Sync (Uuid)

variable {p : Platform}

/-! ## What does not read the acts -/

section
variable (t : Table Submission.id) (r : Registry)

def Registry.withActs (r : Registry) : Registry := { r with submissions := t }

theorem adoptOrMint_withActs (account : Uuid) (spec : PlayerInput) (blankClears : Bool) :
    adoptOrMint p (r.withActs t) account spec blankClears =
      (adoptOrMint p r account spec blankClears).map fun x => (x.1.withActs t, x.2) := by
  unfold adoptOrMint
  have same : samePerson p (r.withActs t) account spec = samePerson p r account spec := rfl
  refine bind_map_same fun representation _ => ?_
  rw [same]
  cases samePerson p r account spec with
  | some x => rfl
  | none => exact bind_map_same fun players _ => rfl

theorem meetPerson_withActs (form : SubmissionForm) (spec : PlayerInput) :
    meetPerson p (r.withActs t) form spec =
      (meetPerson p r form spec).map fun x => (x.1.withActs t, x.2) := by
  refine bind_map (adoptOrMint_withActs t r _ _ _) fun x _ => ?_
  obtain ⟨r', player, adopted⟩ := x
  refine bind_map_same fun _ _ => ?_
  exact bind_map_same fun selected _ => rfl

theorem insertEntry_withActs (form : SubmissionForm) (submission : Uuid) (person : Person)
    (event : EntryEvent) (share : Option Int) (now : Instant) :
    insertEntry p (r.withActs t) form submission person event share now =
      (insertEntry p r form submission person event share now).map fun x => (x.1.withActs t, x.2) := by
  refine bind_map_same fun e _ => ?_
  exact bind_map_same fun entries _ => rfl

theorem mapReasons_withActs (f : List String → List String) (id : Uuid) :
    (r.withActs t).mapReasons f id = (r.mapReasons f id).withActs t := by
  unfold Registry.mapReasons
  have same : (r.withActs t).entries.get id = r.entries.get id := rfl
  rw [same]
  cases r.entries.get id <;> rfl

theorem flagConflict_withActs (ids : List Uuid) :
    flagConflict (r.withActs t) ids = (flagConflict r ids).withActs t := by
  induction ids generalizing r with
  | nil => rfl
  | cons id ids ih =>
    show flagConflict ((r.withActs t).mapReasons _ id) ids = _
    rw [mapReasons_withActs]
    exact ih _

theorem nominate_withActs (id : Uuid) (email : String) (now : Instant) :
    nominate p (r.withActs t) id email now =
      (nominate p r id email now).map fun x => (x.1.withActs t, x.2) := by
  unfold nominate
  cases normalizeEmail email with
  | none => rfl
  | some address =>
    refine bind_map_same fun _ _ => ?_
    refine bind_map (f := Registry.withActs t) ?_ fun r' _ => ?_
    · refine bind_map_same fun _ _ => ?_
      exact bind_map_same fun invitations _ => rfl
    · rw [mapReasons_withActs]
      rfl

theorem conflicting_withActs (e : Entry) (email : String) :
    conflicting (r.withActs t) e email = conflicting r e email := by
  unfold conflicting
  cases normalizeEmail email <;> rfl

theorem nominateNamed_withActs (spec : PlayerInput) (e : Entry) (event : EntryEvent)
    (now : Instant) : nominateNamed p (r.withActs t) spec e event now =
      (nominateNamed p r spec e event now).map fun x => (x.1.withActs t, x.2) := by
  unfold nominateNamed
  cases Assoc.get event.id spec.partners with
  | none => rfl
  | some named =>
    by_cases doubles : named ≠ "" ∧ isDoubles p event
    · simp only [if_pos doubles]
      rw [nominate_withActs]
      cases nominate p r e.id named now with
      | error e => rfl
      | ok x =>
        obtain ⟨r', token⟩ := x
        cases token with
        | none => rfl
        | some token =>
          show Except.ok _ = Except.ok _
          simp only [conflicting_withActs, flagConflict_withActs]
          split <;> rfl
    · simp only [if_neg doubles]
      rfl

end

/-! ## Keys taken off -/

def Submission.hush (account : Uuid) (s : Submission) : Submission :=
  if s.accountId = account then s else { s with idempotencyKey := none }

@[simp] theorem Submission.id_hush (account : Uuid) (s : Submission) :
    (s.hush account).id = s.id := by
  unfold Submission.hush
  split <;> rfl

@[simp] theorem Submission.accountId_hush (account : Uuid) (s : Submission) :
    (s.hush account).accountId = s.accountId := by
  unfold Submission.hush
  split <;> rfl

theorem Submission.hush_of_account {account : Uuid} {s : Submission} (h : s.accountId = account) :
    s.hush account = s := by
  simp [Submission.hush, h]

def Registry.hush (account : Uuid) (r : Registry) : Registry :=
  r.withActs (r.submissions.update (Submission.hush account) (Submission.id_hush account))

def RowWrite.hush (account : Uuid) : RowWrite → RowWrite
  | .submission s => .submission (s.hush account)
  | .player x => .player x
  | .entry e => .entry e
  | .invitation i => .invitation i
  | .touch row => .touch row

def CreateTx.hush (account : Uuid) (tx : CreateTx) : CreateTx :=
  { tx with writes := tx.writes.map (RowWrite.hush account) }

def Books.hush (account : Uuid) (books : Books) : Books :=
  { books with registry := books.registry.hush account }

/-- All that the transaction calls, writes and answers is for the account. -/
structure Owned (account : Uuid) (tx : CreateTx) : Prop where
  calls : ∀ call ∈ tx.calls, call.form.accountId = account
  answers : ∀ a ∈ tx.answers, a.call.form.accountId = account
  writes : ∀ s, .submission s ∈ tx.writes → s.accountId = account

section
variable {account : Uuid} {r : Registry} {tx : CreateTx}

theorem write_hush (w : RowWrite) : (r.hush account).write (w.hush account) =
    (r.write w).hush account := by
  cases w with
  | submission s =>
    have rows := Table.update_put r.submissions s (Submission.id_hush account)
    simp only [Registry.write, RowWrite.hush, Registry.hush, Registry.withActs, rows]
  | player | entry | invitation | touch => rfl

theorem writeAll_hush (ws : List RowWrite) :
    (r.hush account).writeAll (ws.map (RowWrite.hush account)) =
      (r.writeAll ws).hush account := by
  induction ws generalizing r with
  | nil => rfl
  | cons w ws ih =>
    show ((r.hush account).write (w.hush account)).writeAll _ = ((r.write w).writeAll ws).hush _
    rw [write_hush, ih]

theorem Owned.hush_writes (own : Owned account tx) :
    tx.writes.map (RowWrite.hush account) = tx.writes := by
  rw [List.map_congr_left (g := id), List.map_id]
  intro w hw
  cases w with
  | submission s => exact congrArg RowWrite.submission (Submission.hush_of_account (own.writes s hw))
  | player | entry | invitation | touch => rfl

theorem Owned.writeAll (own : Owned account tx) :
    (r.hush account).writeAll tx.writes = (r.writeAll tx.writes).hush account := by
  rw [← writeAll_hush, own.hush_writes]

theorem Owned.view (own : Owned account tx) :
    tx.view (r.hush account) = (tx.view r).hush account := by
  unfold CreateTx.view
  rw [own.writeAll]
  rfl

end

/-! ## Waiting -/

section
variable {account : Uuid} {l : Locking} {others : List CreateTx} {tx tx' : CreateTx} {k : RowKey}

theorem mem_keys_hush {w : RowWrite} : k ∈ (w.hush account).keys ↔
    k ∈ w.keys ∧ ∀ other key, k = .act other key → other = account := by
  cases w with
  | submission s =>
    by_cases own : s.accountId = account
    · rw [RowWrite.hush, Submission.hush_of_account own]
      constructor
      · intro hk
        refine ⟨hk, ?_⟩
        rintro other key rfl
        simp only [RowWrite.keys, List.mem_cons, reduceCtorEq, false_or, Option.mem_toList,
          Option.map_eq_some_iff, RowKey.act.injEq] at hk
        obtain ⟨_, -, rfl, -⟩ := hk
        exact own
      · exact And.left
    · simp only [RowWrite.hush, RowWrite.keys, Submission.hush, own, if_false, Option.map_none,
        Option.toList_none, List.mem_cons, List.not_mem_nil, or_false, Option.mem_toList,
        Option.map_eq_some_iff]
      constructor
      · rintro rfl
        exact ⟨.inl rfl, by simp⟩
      · rintro ⟨rfl | ⟨key, -, rfl⟩, same⟩
        · rfl
        · exact absurd (same _ _ rfl) own
  | player | entry | invitation | touch =>
    simp only [RowWrite.hush, iff_self_and]
    rintro hk other key rfl
    simp [RowWrite.keys] at hk

theorem mem_locks_hush : k ∈ (tx.hush account).locks ↔
    k ∈ tx.locks ∧ ∀ other key, k = .act other key → other = account := by
  simp only [CreateTx.locks, CreateTx.hush, List.mem_flatMap, List.mem_map]
  constructor
  · rintro ⟨_, ⟨w, hw, rfl⟩, hk⟩
    obtain ⟨held, own⟩ := mem_keys_hush.mp hk
    exact ⟨⟨w, hw, held⟩, own⟩
  · rintro ⟨⟨w, hw, held⟩, own⟩
    exact ⟨_, ⟨w, hw, rfl⟩, mem_keys_hush.mpr ⟨held, own⟩⟩

theorem locks_eq_nil : tx.locks = [] ↔ tx.writes = [] := by
  rw [CreateTx.locks, List.flatMap_eq_nil_iff]
  constructor
  · intro none
    apply List.eq_nil_iff_forall_not_mem.mpr
    intro w hw
    cases w <;> simp [RowWrite.keys] at none <;> exact absurd (none _ hw) (by simp)
  · rintro none w hw
    simp [none] at hw

theorem blocked_hush {ws : List RowWrite} (own : ∀ w ∈ ws, w.hush account = w) :
    l.Blocked CreateTx.locks (others.map (CreateTx.hush account)) (ws.flatMap RowWrite.keys) ↔
      l.Blocked CreateTx.locks others (ws.flatMap RowWrite.keys) := by
  cases l with
  | rows =>
    simp only [Locking.Blocked, List.mem_map, exists_exists_and_eq_and, mem_locks_hush]
    constructor
    · rintro ⟨other, mem, k, hk, held, -⟩
      exact ⟨other, mem, k, hk, held⟩
    · rintro ⟨other, mem, k, hk, held⟩
      refine ⟨other, mem, k, hk, held, ?_⟩
      obtain ⟨w, hw, kw⟩ := List.mem_flatMap.mp hk
      rw [← own w hw] at kw
      exact (mem_keys_hush.mp kw).2
  | database =>
    simp only [Locking.Blocked, List.mem_map, exists_exists_and_eq_and, ne_eq, locks_eq_nil]
    simp [CreateTx.hush]

end

/-! ## Flushes -/

section
variable {account : Uuid} {r r' : Registry} {call : CreateCall} {form : SubmissionForm} {α : Type}

theorem replay_hush (key : Option String) :
    replay (r.hush account) key account = replay r key account := by
  cases key with
  | none => rfl
  | some key =>
    have same : findByIdempotencyKey (r.hush account) key account =
        findByIdempotencyKey r key account := by
      show (r.submissions.rows.map (Submission.hush account)).find? _ = _
      rw [List.find?_map]
      have kept : ∀ s : Submission, s.accountId = account → s.hush account = s :=
        fun s => Submission.hush_of_account
      have test : ((fun s : Submission => decide (s.accountId = account ∧
          s.idempotencyKey = some key)) ∘ Submission.hush account) =
          fun s : Submission => decide (s.accountId = account ∧ s.idempotencyKey = some key) := by
        funext s
        by_cases own : s.accountId = account
        · simp [kept s own]
        · simp [own]
      rw [test]
      cases found : r.submissions.rows.find? (fun s : Submission =>
          decide (s.accountId = account ∧ s.idempotencyKey = some key)) with
      | none => exact found.symm
      | some s =>
        have own := List.find?_some found
        simp only [decide_eq_true_eq] at own
        rw [Option.map_some, kept s own.1]
        exact found.symm
    unfold replay
    simp only [same]
    rfl

theorem keyTaken_hush (own : form.accountId = account) :
    KeyTaken (r.hush account) form ↔ KeyTaken r form := by
  rw [keyTaken_iff, keyTaken_iff]
  constructor
  · rintro ⟨_, mem, of_account, key, keyed⟩
    obtain ⟨s, hs, rfl⟩ := List.mem_map.mp mem
    rw [Submission.accountId_hush] at of_account
    rw [Submission.hush_of_account (of_account.trans own)] at key keyed
    exact ⟨s, hs, of_account, key, keyed⟩
  · rintro ⟨s, hs, of_account, key, keyed⟩
    refine ⟨s, List.mem_map.mpr ⟨s, hs, ?_⟩, of_account, key, keyed⟩
    exact Submission.hush_of_account (of_account.trans own)

theorem insertSubmission_hush (own : call.form.accountId = account) :
    insertSubmission p (r.hush account) call =
      (insertSubmission p r call).map fun x => (x.1.hush account, x.2) := by
  have unused : require (¬ KeyTaken (r.hush account) call.form)
        (.integrity "submissions.idempotency_key") =
      require (¬ KeyTaken r call.form) (.integrity "submissions.idempotency_key") := by
    unfold require
    simp only [keyTaken_hush own]
  have inserted := Table.update_insert r.submissions (call.submission (p.uuid4 r.drawn))
    (Submission.id_hush account)
  rw [Submission.hush_of_account own] at inserted
  unfold insertSubmission
  simp only [Registry.mint]
  show (require (¬ KeyTaken (r.hush account) call.form) _ >>= fun _ => _) = _
  rw [unused]
  refine bind_map_same fun _ _ => ?_
  refine bind_map (f := fun t => t.update _ (Submission.id_hush account)) ?_ fun t _ => rfl
  refine (congrArg (fun t => found t (.integrity "submissions.id")) inserted).trans ?_
  cases r.submissions.insert (call.submission (p.uuid4 r.drawn)) <;> rfl

variable {l : Locking} {others : List CreateTx} {tx tx' : CreateTx} {books : Books}

theorem flush_hush {answer : Except Refused (Registry × α)} {next : α → CreateTx}
    {f : Registry → Registry} (drawn : ∀ r, (f r).drawn = r.drawn)
    (same : ∀ r' a, answer = .ok (r', a) → (r.hush account).changes (f r') = r.changes r')
    (own : ∀ r' a, answer = .ok (r', a) → ∀ w ∈ r.changes r', w.hush account = w) :
    tx.flush l (others.map (CreateTx.hush account)) (r.hush account)
      (answer.map fun x => (f x.1, x.2)) next = tx.flush l others r answer next := by
  cases answer with
  | error e => cases e <;> rfl
  | ok x =>
    obtain ⟨r', a⟩ := x
    have blocked : l.Blocked CreateTx.locks (others.map (CreateTx.hush account))
        ((r.changes r').flatMap RowWrite.keys) ↔
          l.Blocked CreateTx.locks others ((r.changes r').flatMap RowWrite.keys) :=
      blocked_hush (own r' a rfl)
    simp only [CreateTx.flush, Except.map, same r' a rfl, blocked, drawn]

theorem changes_withActs (t : Table Submission.id) (h : r'.submissions = r.submissions) :
    (r.withActs t).changes (r'.withActs t) = r.changes r' := by
  simp [Registry.changes, Registry.withActs, h]

theorem not_submission_mem_changes (h : r'.submissions = r.submissions) (s : Submission) :
    .submission s ∉ r.changes r' := by
  simp [Registry.changes, h]

theorem hush_of_mem_changes (h : r'.submissions = r.submissions) :
    ∀ w ∈ r.changes r', w.hush account = w := by
  intro w hw
  cases w with
  | submission s => exact absurd hw (not_submission_mem_changes h s)
  | player | entry | invitation | touch => rfl

theorem flush_withActs {answer answer' : Except Refused (Registry × α)} {next : α → CreateTx}
    (apart : answer' = answer.map fun x => (x.1.withActs (r.hush account).submissions, x.2))
    (kept : ∀ r' a, answer = .ok (r', a) → r'.submissions = r.submissions) :
    tx.flush l (others.map (CreateTx.hush account)) (r.hush account) answer' next =
      tx.flush l others r answer next := by
  subst apart
  apply flush_hush (f := Registry.withActs (r.hush account).submissions)
  · exact fun _ => rfl
  · exact fun r' a ok => changes_withActs _ (kept r' a ok)
  · exact fun r' a ok => hush_of_mem_changes (kept r' a ok)

theorem meetPerson_submissions {spec : PlayerInput} {x : Person × List EntryEvent}
    (h : meetPerson p r form spec = .ok (r', x)) : r'.submissions = r.submissions := by
  simp only [meetPerson, bind_eq_ok] at h
  obtain ⟨⟨r₁, player, adopted⟩, minted, _, -, selected, -, h⟩ := h
  obtain ⟨players, drawn, rfl⟩ := adoptOrMint_tables minted
  cases h
  rfl

theorem insertEntry_submissions {submission : Uuid} {person : Person} {event : EntryEvent}
    {share : Option Int} {now : Instant} {e : Entry}
    (h : insertEntry p r form submission person event share now = .ok (r', e)) :
    r'.submissions = r.submissions := by
  simp only [insertEntry, Registry.mint, bind_eq_ok, found_eq_ok] at h
  obtain ⟨e', -, entries, -, h⟩ := h
  cases h
  rfl

theorem onStore_flush {answer : Except Refused (Registry × α)} {next : α → CreateTx}
    {f : Books → Books} :
    (tx.flush l others r answer next).onStore f = tx.flush l others r answer next := by
  unfold CreateTx.flush
  split
  · rfl
  · rfl
  · split <;> rfl

/-- **Other accounts' keys.** The next flush of an account's transaction is the same with the keys
of all other accounts taken off, of the committed acts and of those on their way. -/
theorem exec_hush (own : Owned account tx) :
    CreateTx.exec p l (books.hush account) (others.map (CreateTx.hush account)) tx =
      (CreateTx.exec p l books others tx).onStore (Books.hush account) := by
  unfold CreateTx.exec
  cases begun : tx.calls with
  | nil =>
    show Progress.commits _ = Progress.commits _
    rw [Books.hush, own.writeAll]
    rfl
  | cons call calls =>
    have of_account := own.calls call (by simp [begun])
    have view : tx.view (books.hush account).registry =
        (tx.view books.registry).hush account := own.view
    simp only [view]
    cases tx.phase with
    | replay =>
      simp only [of_account, replay_hush]
      cases replay (tx.view books.registry) call.form.idempotencyKey account <;> rfl
    | submission =>
      rw [onStore_flush]
      simp only [insertSubmission_hush of_account]
      apply flush_hush (f := Registry.hush account) fun _ => rfl
      · intro r' id ok
        obtain ⟨-, -, written⟩ := insertSubmission_ok ok
        have hushed := insertSubmission_hush (p := call.platform p)
          (r := tx.view books.registry) of_account
        rw [ok] at hushed
        rw [(insertSubmission_ok hushed).2.2, written]
      · intro r' id ok w hw
        rw [(insertSubmission_ok ok).2.2, List.mem_singleton] at hw
        rw [hw, RowWrite.hush, Submission.hush_of_account of_account]
    | person people =>
      cases people with
      | nil => rfl
      | cons x people =>
        rw [onStore_flush]
        exact flush_withActs (meetPerson_withActs _ _ _ _) fun _ _ => meetPerson_submissions
    | entry person events people =>
      cases events with
      | nil => rfl
      | cons x events =>
        rw [onStore_flush]
        exact flush_withActs (insertEntry_withActs _ _ _ _ _ _ _ _) fun _ _ =>
          insertEntry_submissions
    | nominate e event person events people =>
      rw [onStore_flush]
      exact flush_withActs (nominateNamed_withActs _ _ _ _ _ _) fun _ _ ok =>
        (nominateNamed_cores ok).2
    | reread constraint =>
      simp only [of_account, replay_hush]
      cases replay (tx.view books.registry) call.form.idempotencyKey account <;> rfl

theorem Owned.flushed {registry : Registry} {calls : List CreateCall} (own : Owned account tx)
    (begun : tx.calls = call :: calls)
    (h : CreateTx.Flushed p l registry others tx call calls tx') : Owned account tx' := by
  have answered : ∀ result players,
      Owned account (tx.answer calls ⟨call, result, players⟩) := by
    intro result players
    refine ⟨fun c hc => own.calls c (by simp [begun, CreateTx.answer] at hc ⊢; exact .inr hc), ?_,
      own.writes⟩
    intro a ha
    rcases List.mem_append.mp ha with ha | ha
    · exact own.answers a ha
    · rw [List.mem_singleton.mp ha]
      exact own.calls call (by simp [begun])
  have wrote : ∀ {r' : Registry}, r'.submissions = (tx.view registry).submissions →
      ∀ s, .submission s ∈ tx.writes ++ (tx.view registry).changes r' → s.accountId = account := by
    intro r' same s hs
    rcases List.mem_append.mp hs with hs | hs
    · exact own.writes s hs
    · exact absurd hs (not_submission_mem_changes same s)
  cases h with
  | replayed result => exact answered result []
  | unknown => exact ⟨own.calls, own.answers, own.writes⟩
  | refused => exact ⟨own.calls, own.answers, fun s hs => absurd hs List.not_mem_nil⟩
  | act id r' phase ok =>
    refine ⟨own.calls, own.answers, fun s hs => ?_⟩
    rw [(insertSubmission_ok ok).2.2] at hs
    rcases List.mem_append.mp hs with hs | hs
    · exact own.writes s hs
    · obtain rfl : s = call.submission id := by simpa using hs
      exact own.calls call (by simp [begun])
  | recorded => exact answered _ tx.players
  | met spec priced people person events r' phase ok =>
    exact ⟨own.calls, own.answers, wrote (meetPerson_submissions ok)⟩
  | finished => exact ⟨own.calls, own.answers, own.writes⟩
  | entered person share event events people e r' phase ok =>
    exact ⟨own.calls, own.answers, wrote (insertEntry_submissions ok)⟩
  | nominated e event person events people invites r' phase ok =>
    exact ⟨own.calls, own.answers, wrote (nominateNamed_cores ok).2⟩
  | lost constraint winner => exact answered winner []

end

end Entries
