import ShuttleWorks.Entries.SideBySide

/-! A transaction on its way through a call: what each of its flushes changes, and how far the
entries of the act have come. -/

namespace Entries
open Lib
open Sync (Uuid)

variable {p : Platform} {l : Locking} {books : Books} {others : List CreateTx} {tx tx' : CreateTx}

/-! ## The flushes -/

namespace CreateTx

variable {α : Type} {r : Registry} {books' : Books}

theorem flush_eq_goesOn {answer : Except Refused (Registry × α)} {next : α → CreateTx} :
    tx.flush l others r answer next = .goesOn tx' ↔
      (∃ constraint, answer = .error (.integrity constraint) ∧ tx' = tx.rolledBack constraint) ∨
      ∃ r' a, answer = .ok (r', a) ∧
        ¬ l.Blocked locks others ((r.changes r').flatMap RowWrite.keys) ∧
        tx' = { next a with writes := tx.writes ++ r.changes r', drawn := r'.drawn } := by
  unfold flush
  split
  · simp [eq_comm]
  · next e refused =>
    constructor
    · intro h
      cases h
    · rintro (⟨constraint, same, -⟩ | ⟨r', a, same, -⟩)
      · cases same
        exact absurd rfl (refused constraint)
      · cases same
  · next r' a =>
    by_cases blocked : l.Blocked locks others ((r.changes r').flatMap RowWrite.keys)
    · simp [blocked]
    · simp [blocked, eq_comm]

/-- What a flush changes. -/
inductive Flushed (p : Platform) (l : Locking) (registry : Registry) (others : List CreateTx)
    (tx : CreateTx) (call : CreateCall) (calls : List CreateCall) : CreateTx → Prop
  | replayed (result : SubmissionResult) (phase : tx.phase = .replay)
      (found : Entries.replay (tx.view registry) call.form.idempotencyKey call.form.accountId =
        some result) :
      Flushed p l registry others tx call calls (tx.answer calls ⟨call, result, []⟩)
  | unknown (phase : tx.phase = .replay)
      (none : Entries.replay (tx.view registry) call.form.idempotencyKey call.form.accountId =
        none) :
      Flushed p l registry others tx call calls { tx with phase := .submission }
  | refused (constraint : String) :
      Flushed p l registry others tx call calls (tx.rolledBack constraint)
  | act (id : Uuid) (r' : Registry) (phase : tx.phase = .submission)
      (ok : insertSubmission (call.platform p) (tx.view registry) call = .ok (r', id))
      (free : ¬ l.Blocked locks others (((tx.view registry).changes r').flatMap RowWrite.keys)) :
      Flushed p l registry others tx call calls
        { tx with
          phase := .person (perPlayerFee call.form), submission := id
          writes := tx.writes ++ (tx.view registry).changes r', drawn := r'.drawn }
  | recorded (phase : tx.phase = .person []) :
      Flushed p l registry others tx call calls (tx.answer calls ⟨call,
        { submission := tx.submission, entries := tx.entries, invites := tx.invites }, tx.players⟩)
  | met (spec : PlayerInput) (priced : Option Int) (people : List (PlayerInput × Option Int))
      (person : Person) (events : List EntryEvent) (r' : Registry)
      (phase : tx.phase = .person ((spec, priced) :: people))
      (ok : meetPerson (call.platform p) (tx.view registry) call.form spec =
        .ok (r', person, events))
      (free : ¬ l.Blocked locks others (((tx.view registry).changes r').flatMap RowWrite.keys)) :
      Flushed p l registry others tx call calls
        { tx with
          phase := .entry person ((split priced events.length).zip events) people
          players := tx.players ++ [person.player.id]
          writes := tx.writes ++ (tx.view registry).changes r', drawn := r'.drawn }
  | finished (person : Person) (people : List (PlayerInput × Option Int))
      (phase : tx.phase = .entry person [] people) :
      Flushed p l registry others tx call calls { tx with phase := .person people }
  | entered (person : Person) (share : Option Int) (event : EntryEvent)
      (events : List (Option Int × EntryEvent)) (people : List (PlayerInput × Option Int))
      (e : Entry) (r' : Registry) (phase : tx.phase = .entry person ((share, event) :: events) people)
      (ok : insertEntry (call.platform p) (tx.view registry) call.form tx.submission person event
        share call.now = .ok (r', e))
      (free : ¬ l.Blocked locks others (((tx.view registry).changes r').flatMap RowWrite.keys)) :
      Flushed p l registry others tx call calls
        { tx with
          phase := .nominate e event person events people, entries := tx.entries ++ [e.id]
          writes := tx.writes ++ (tx.view registry).changes r', drawn := r'.drawn }
  | nominated (e : Entry) (event : EntryEvent) (person : Person)
      (events : List (Option Int × EntryEvent)) (people : List (PlayerInput × Option Int))
      (invites : List (Uuid × String)) (r' : Registry)
      (phase : tx.phase = .nominate e event person events people)
      (ok : nominateNamed (call.platform p) (tx.view registry) person.spec e event call.now =
        .ok (r', invites))
      (free : ¬ l.Blocked locks others (((tx.view registry).changes r').flatMap RowWrite.keys)) :
      Flushed p l registry others tx call calls
        { tx with
          phase := .entry person events people, invites := tx.invites ++ invites
          writes := tx.writes ++ (tx.view registry).changes r', drawn := r'.drawn }
  | lost (constraint : String) (winner : SubmissionResult) (phase : tx.phase = .reread constraint)
      (found : Entries.replay (tx.view registry) call.form.idempotencyKey call.form.accountId =
        some winner) :
      Flushed p l registry others tx call calls (tx.answer calls ⟨call, winner, []⟩)

theorem exec_goesOn (h : exec p l books others tx = .goesOn tx') : ∃ call calls,
    tx.calls = call :: calls ∧ Flushed p l books.registry others tx call calls tx' := by
  unfold exec at h
  split at h
  · cases h
  · next call calls first =>
    refine ⟨call, calls, first, ?_⟩
    simp only at h
    split at h
    · next phase =>
      split at h
      · next result found =>
        cases h
        exact .replayed result phase found
      · next none =>
        cases h
        exact .unknown phase none
    · next phase =>
      rcases flush_eq_goesOn.mp h with ⟨constraint, -, rfl⟩ | ⟨r', id, ok, free, rfl⟩
      · exact .refused constraint
      · exact .act id r' phase ok free
    · next phase =>
      cases h
      exact .recorded phase
    · next spec priced people phase =>
      rcases flush_eq_goesOn.mp h with ⟨constraint, -, rfl⟩ | ⟨r', ⟨person, events⟩, ok, free, rfl⟩
      · exact .refused constraint
      · exact .met spec priced people person events r' phase ok free
    · next person people phase =>
      cases h
      exact .finished person people phase
    · next person share event events people phase =>
      rcases flush_eq_goesOn.mp h with ⟨constraint, -, rfl⟩ | ⟨r', e, ok, free, rfl⟩
      · exact .refused constraint
      · exact .entered person share event events people e r' phase ok free
    · next e event person events people phase =>
      rcases flush_eq_goesOn.mp h with ⟨constraint, -, rfl⟩ | ⟨r', invites, ok, free, rfl⟩
      · exact .refused constraint
      · exact .nominated e event person events people invites r' phase ok free
    · next constraint phase =>
      split at h
      · next winner found =>
        cases h
        exact .lost constraint winner phase found
      · cases h

theorem flush_ne_commits {answer : Except Refused (Registry × α)} {next : α → CreateTx} :
    tx.flush l others r answer next ≠ .commits books' := by
  unfold flush
  split
  · simp
  · simp
  · split <;> simp

theorem exec_commits : exec p l books others tx = .commits books' ↔
    tx.calls = [] ∧ books' = ⟨books.registry.writeAll tx.writes, books.answers ++ tx.answers⟩ := by
  unfold exec
  split
  · next none => simp [none, eq_comm]
  · next call calls first =>
    simp only [first, reduceCtorEq, false_and, iff_false]
    split
    case h_1 => split <;> simp
    case h_3 | h_5 => simp
    case h_2 | h_4 | h_6 | h_7 => exact flush_ne_commits
    case h_8 => split <;> simp

theorem Flushed.apart {call : CreateCall} {calls : List CreateCall} {registry : Registry}
    (h : Flushed p l registry others tx call calls tx') {other : CreateTx} (mem : other ∈ others)
    (before : Apart locks tx other) : Apart locks tx' other := by
  have grown : ∀ {r' : Registry} {tx' : CreateTx},
      ¬ l.Blocked locks others (((tx.view registry).changes r').flatMap RowWrite.keys) →
      tx'.writes = tx.writes ++ (tx.view registry).changes r' → Apart locks tx' other := by
    intro r' tx' free writes
    apply Locking.apart free mem before
    intro k hk
    rw [locks, writes, List.flatMap_append] at hk
    exact List.mem_append.mp hk
  cases h with
  | replayed | unknown | recorded | finished | lost => exact before
  | refused => exact fun k hk => absurd hk List.not_mem_nil
  | act id r' phase ok free => exact grown free rfl
  | met spec priced people person events r' phase ok free => exact grown free rfl
  | entered person share event events people e r' phase ok free => exact grown free rfl
  | nominated e event person events people invites r' phase ok free => exact grown free rfl

end CreateTx

/-! ## How far an act has come -/

/-- Between two events of one person: the earlier ones have their entries. -/
def Midway (done : List PlayerInput) (person : Person) (events : List (Option Int × EntryEvent))
    (players : List Uuid) (cs : List Core) : Prop :=
  ∃ before rows part selected, players = before ++ [person.player.id] ∧ cs = rows ++ part ∧
    Entered done before rows ∧ Selects person.spec (selected ++ events.map (·.2.id)) ∧
    part.map (fun c => (c.entryPlayerId, c.entryEventId)) =
      selected.map (some person.player.id, ·)

section
variable {done : List PlayerInput} {person : Person} {players : List Uuid} {cs : List Core}

theorem length_split (cents : Option Int) (count : Nat) : (split cents count).length = count := by
  cases cents with
  | none => simp [split]
  | some cents => cases count <;> simp [split]

theorem Midway.begins (h : Entered done players cs) {priced : Option Int} {events : List EntryEvent}
    (selects : Selects person.spec (events.map EntryEvent.id)) :
    Midway done person ((split priced events.length).zip events) (players ++ [person.player.id])
      cs := by
  have ids : ((split priced events.length).zip events).map (·.2.id) = events.map EntryEvent.id := by
    have second : ((split priced events.length).zip events).map Prod.snd = events :=
      List.map_snd_zip (length_split priced events.length).ge
    calc ((split priced events.length).zip events).map (·.2.id)
      _ = (((split priced events.length).zip events).map Prod.snd).map EntryEvent.id := by
        rw [List.map_map]
        rfl
      _ = events.map EntryEvent.id := by rw [second]
  refine ⟨players, cs, [], [], rfl, (List.append_nil cs).symm, h, ?_, rfl⟩
  rw [ids]
  exact selects

theorem Midway.enters {share : Option Int} {event : EntryEvent}
    {events : List (Option Int × EntryEvent)}
    (h : Midway done person ((share, event) :: events) players cs) {c : Core}
    (player : c.entryPlayerId = some person.player.id) (at_event : c.entryEventId = event.id) :
    Midway done person events players (cs ++ [c]) := by
  obtain ⟨before, rows, part, selected, rfl, rfl, entered, selects, same⟩ := h
  refine ⟨before, rows, part ++ [c], selected ++ [event.id], rfl, ?_, entered, ?_, ?_⟩
  · rw [List.append_assoc]
  · simpa using selects
  · rw [List.map_append, List.map_append, same]
    simp [player, at_event]

theorem Midway.ends (h : Midway done person [] players cs) :
    Entered (done ++ [person.spec]) players cs := by
  obtain ⟨before, rows, part, selected, rfl, rfl, entered, selects, same⟩ := h
  rw [List.map_nil, List.append_nil] at selects
  exact entered.snoc selects same

end

/-- How far a call has come in an act whose entries so far are `cs`. -/
def Underway (call : CreateCall) (players : List Uuid) (cs : List Core) : CreatePhase → Prop
  | .person people => ∃ done, call.form.players = done ++ people.map Prod.fst ∧
      Entered done players cs
  | .entry person events people => ∃ done,
      call.form.players = done ++ person.spec :: people.map Prod.fst ∧
      Midway done person events players cs
  | .nominate _ _ person events people => ∃ done,
      call.form.players = done ++ person.spec :: people.map Prod.fst ∧
      Midway done person events players cs
  | .replay | .submission | .reread _ => False

theorem map_fst_perPlayerFee (form : SubmissionForm) :
    (perPlayerFee form).map Prod.fst = form.players := by
  apply List.ext_getElem?
  intro i
  rw [perPlayerFee, List.getElem?_map, List.getElem?_mapIdx, Option.map_map]
  exact Option.map_id'

end Entries
