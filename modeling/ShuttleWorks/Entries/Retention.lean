import ShuttleWorks.Entries.Guarantees

/-! The retention sweep: event by event, the players of the entries of a due event are erased.
A player is shared by all entries the same person has, so the sweep keeps the window of every
event only when no player has entries on both sides of the line. -/

namespace Entries
open Lib
open Sync (Uuid)
open Competition (Workspace)

variable (p : Platform) {ws : Workspace}

/-! ## The sweep -/

def dayLength : Nat := 24 * 60 * 60 * 1000000

def lastDay : Nat := 3652059

/-- Date arithmetic that leaves the calendar. -/
inductive CalendarError
  | overflow
  deriving DecidableEq, Repr

/-- When the entries of an event become erasable. The date is the number of the event's day, so
that many days have passed at the midnight after it. -/
def dueAt (eventDate : Option Nat) (retentionDays : Option Int) :
    Except CalendarError (Option Instant) :=
  match eventDate, retentionDays with
  | some day, some days =>
    if days < 0 then .ok none
    else if lastDay ≤ day + days.toNat then .error .overflow
    else .ok (some ((day + days.toNat) * dayLength))
  | _, _ => .ok none

structure RetentionResult where
  scanned : Nat := 0
  erased : Nat := 0
  skippedNoPolicy : Nat := 0
  skippedNotDue : Nat := 0
  deriving DecidableEq, Repr

section
variable (eventDate : Option Nat) (moment : Instant) (clock : Uuid → Instant)

/-- One entry of a due event; `clock` is read when its player is erased. -/
def sweepEntry (acc : Workspace × RetentionResult) (e : Entry) : Workspace × RetentionResult :=
  let result := { acc.2 with scanned := acc.2.scanned + 1 }
  match acc.1.registry.playerOf e with
  | none => (acc.1, result)
  | some player =>
    if player.erasedAt.isSome then (acc.1, result)
    else (erasePlayer p acc.1 e (clock e.id), { result with erased := result.erased + 1 })

def sweepEvent (acc : Workspace × RetentionResult) (event : EntryEvent) :
    Except CalendarError (Workspace × RetentionResult) := do
  match ← dueAt eventDate event.retentionDays with
  | none => pure (acc.1, { acc.2 with skippedNoPolicy := acc.2.skippedNoPolicy + 1 })
  | some deadline =>
    if moment < deadline then
      pure (acc.1, { acc.2 with skippedNotDue := acc.2.skippedNotDue + 1 })
    else pure ((acc.1.registry.entries.rows.filter (·.entryEventId = event.id)).foldl
      (sweepEntry p clock) acc)

def sweepWorkspace (ws : Workspace) : Except CalendarError (Workspace × RetentionResult) :=
  ws.registry.events.rows.foldlM (sweepEvent p eventDate moment clock) (ws, {})

end

/-! ## What a sweep does to the players -/

def DueEvent (eventDate : Option Nat) (moment : Instant) (event : EntryEvent) : Prop :=
  ∃ deadline, dueAt eventDate event.retentionDays = .ok (some deadline) ∧ deadline ≤ moment

/-- The players in `touched` are erased, every other one stays as it is; so does a player who was
erased before. -/
structure Swept (touched : Uuid → Prop) (r r' : Registry) : Prop where
  entries : r'.entries = r.entries
  events : r'.events = r.events
  kept : ∀ id, ¬ touched id → r'.players.get id = r.players.get id
  erased : ∀ id x, touched id → r.players.get id = some x →
    ∃ x', r'.players.get id = some x' ∧ x'.erasedAt.isSome ∧ (x.erasedAt.isSome → x' = x)
  absent : ∀ id, r.players.get id = none → r'.players.get id = none

namespace Swept

variable {r r' r'' : Registry} {touched touched' : Uuid → Prop}

theorem refl (r : Registry) : Swept (fun _ => False) r r :=
  ⟨rfl, rfl, fun _ _ => rfl, fun _ _ h => h.elim, fun _ h => h⟩

theorem trans (h : Swept touched r r') (h' : Swept touched' r' r'') :
    Swept (fun id => touched id ∨ touched' id) r r'' where
  entries := h'.entries.trans h.entries
  events := h'.events.trans h.events
  kept := by
    intro id untouched
    rw [h'.kept id fun t => untouched (.inr t), h.kept id fun t => untouched (.inl t)]
  erased := by
    intro id x hit hx
    by_cases first : touched id
    · obtain ⟨x', hx', gone, same⟩ := h.erased id x first hx
      by_cases second : touched' id
      · obtain ⟨x'', hx'', gone', same'⟩ := h'.erased id x' second hx'
        exact ⟨x'', hx'', gone', fun before => (same' gone).trans (same before)⟩
      · exact ⟨x', (h'.kept id second).trans hx', gone, same⟩
    · have second := hit.resolve_left first
      exact h'.erased id x second ((h.kept id first).trans hx)
  absent := fun id none => h'.absent id (h.absent id none)

theorem congr (h : Swept touched r r') (same : ∀ id, touched id ↔ touched' id) :
    Swept touched' r r' := by
  obtain rfl : touched = touched' := funext fun id => propext (same id)
  exact h

end Swept

variable {p} {eventDate : Option Nat} {moment : Instant} {clock : Uuid → Instant}

theorem erasePlayer_swept (ws : Workspace) (e : Entry) (now : Instant) :
    Swept (fun id => e.entryPlayerId = some id) ws.registry (erasePlayer p ws e now).registry := by
  unfold erasePlayer
  cases hp : ws.registry.playerOf e with
  | none =>
    refine ⟨rfl, rfl, fun _ _ => rfl, ?_, fun _ h => h⟩
    intro id x hid hx
    rw [Registry.playerOf, hid, Option.bind_some, hx] at hp
    cases hp
  | some player =>
    obtain ⟨id, hid, found⟩ := Option.bind_eq_some_iff.mp hp
    have key : player.id = id := Table.key_of_get found
    simp only
    split
    · next gone =>
      refine ⟨rfl, rfl, fun _ _ => rfl, ?_, fun _ h => h⟩
      intro id' x hid' hx
      obtain rfl := Option.some.inj (hid.symm.trans hid')
      obtain rfl := Option.some.inj (found.symm.trans hx)
      exact ⟨player, found, gone, fun _ => rfl⟩
    · next alive =>
      have scrubbed : (scrub player now).id = id := by
        rw [scrub, if_neg alive]
        exact key
      rw [Competition.project_registry]
      refine ⟨rfl, rfl, ?_, ?_, ?_⟩
      · intro id' other
        apply Table.get_put_of_ne
        rw [scrubbed]
        exact fun same => other (same ▸ hid)
      · intro id' x hid' hx
        obtain rfl := Option.some.inj (hid.symm.trans hid')
        obtain rfl := Option.some.inj (found.symm.trans hx)
        refine ⟨scrub player now, ?_, ?_, fun gone => absurd gone alive⟩
        · rw [← scrubbed]
          exact Table.get_put_self _ _
        · simp [scrub, alive]
      · intro id' none
        refine (Table.get_put_of_ne _ ?_).trans none
        rw [scrubbed]
        rintro rfl
        rw [found] at none
        cases none

theorem sweepEntry_fst (acc : Workspace × RetentionResult) (e : Entry) :
    (sweepEntry p clock acc e).1 = erasePlayer p acc.1 e (clock e.id) := by
  unfold sweepEntry erasePlayer
  cases acc.1.registry.playerOf e with
  | none => rfl
  | some player =>
    by_cases gone : player.erasedAt.isSome <;> simp [gone]

theorem sweepEntries_swept (entries : List Entry) (acc : Workspace × RetentionResult) :
    Swept (fun id => ∃ e ∈ entries, e.entryPlayerId = some id) acc.1.registry
      (entries.foldl (sweepEntry p clock) acc).1.registry := by
  induction entries generalizing acc with
  | nil => exact (Swept.refl _).congr (by simp)
  | cons e entries ih =>
    have first := erasePlayer_swept (p := p) acc.1 e (clock e.id)
    rw [← sweepEntry_fst acc e] at first
    exact (first.trans (ih _)).congr (by simp)

variable {acc acc' : Workspace × RetentionResult}

theorem sweepEvent_swept {event : EntryEvent}
    (h : sweepEvent p eventDate moment clock acc event = .ok acc') :
    Swept (fun id => DueEvent eventDate moment event ∧ ∃ e ∈ acc.1.registry.entries.rows,
      e.entryEventId = event.id ∧ e.entryPlayerId = some id) acc.1.registry acc'.1.registry := by
  rw [sweepEvent, bind_eq_ok] at h
  obtain ⟨deadline, due, h⟩ := h
  cases deadline with
  | none =>
    cases h
    exact (Swept.refl _).congr (by simp [DueEvent, due])
  | some deadline =>
    simp only at h
    split at h
    · next early =>
      cases h
      exact (Swept.refl _).congr (by simp [DueEvent, due, early])
    · next late =>
      cases h
      refine (sweepEntries_swept _ acc).congr fun id => ?_
      simp [DueEvent, due, Nat.le_of_not_lt late, and_assoc]

theorem sweepEvents_swept {events : List EntryEvent}
    (h : events.foldlM (sweepEvent p eventDate moment clock) acc = .ok acc') :
    Swept (fun id => ∃ event ∈ events, DueEvent eventDate moment event ∧
      ∃ e ∈ acc.1.registry.entries.rows, e.entryEventId = event.id ∧ e.entryPlayerId = some id)
      acc.1.registry acc'.1.registry := by
  induction events generalizing acc with
  | nil =>
    cases h
    exact (Swept.refl _).congr (by simp)
  | cons event events ih =>
    rw [List.foldlM_cons, bind_eq_ok] at h
    obtain ⟨next, first, rest⟩ := h
    have here := sweepEvent_swept first
    have later := ih rest
    rw [here.entries] at later
    exact (here.trans later).congr fun id => by simp

def InCalendar (eventDate : Option Nat) (r : Registry) : Prop :=
  ∀ event ∈ r.events.rows, ∃ deadline, dueAt eventDate event.retentionDays = .ok deadline

theorem sweepEvent_ok {event : EntryEvent} {deadline : Option Instant}
    (due : dueAt eventDate event.retentionDays = .ok deadline)
    (acc : Workspace × RetentionResult) :
    ∃ acc', sweepEvent p eventDate moment clock acc event = .ok acc' := by
  simp only [sweepEvent, due, ok_bind]
  cases deadline with
  | none => exact ⟨_, rfl⟩
  | some deadline =>
    by_cases early : moment < deadline
    · exact ⟨_, if_pos early⟩
    · exact ⟨_, if_neg early⟩

theorem sweepWorkspace_ok_iff (ws : Workspace) :
    (∃ swept, sweepWorkspace p eventDate moment clock ws = .ok swept) ↔
      InCalendar eventDate ws.registry := by
  constructor
  · rintro ⟨swept, h⟩
    have dates : ∀ {events : List EntryEvent} {acc : Workspace × RetentionResult},
        events.foldlM (sweepEvent p eventDate moment clock) acc = .ok swept →
          ∀ event ∈ events, ∃ deadline, dueAt eventDate event.retentionDays = .ok deadline := by
      intro events
      induction events with
      | nil => simp
      | cons event events ih =>
        intro acc h
        rw [List.foldlM_cons, bind_eq_ok] at h
        obtain ⟨next, first, rest⟩ := h
        rw [sweepEvent, bind_eq_ok] at first
        obtain ⟨deadline, due, -⟩ := first
        intro event' mem
        rcases List.mem_cons.mp mem with rfl | mem
        · exact ⟨deadline, due⟩
        · exact ih rest event' mem
    exact dates h
  · intro dates
    obtain ⟨swept, h, -⟩ := foldlM_total (f := sweepEvent p eventDate moment clock)
      (I := fun _ => True) (l := ws.registry.events.rows) (b := (ws, {}))
      (fun event mem acc _ => by
        obtain ⟨deadline, due⟩ := dates event mem
        exact (sweepEvent_ok due acc).imp fun acc' step => ⟨step, trivial⟩) trivial
    exact ⟨swept, h⟩

/-! ## A sweep with nothing to do -/

/-- Every player of a due entry is erased already. -/
def Settled (eventDate : Option Nat) (moment : Instant) (r : Registry) : Prop :=
  ∀ event ∈ r.events.rows, DueEvent eventDate moment event → ∀ e ∈ r.entries.rows,
    e.entryEventId = event.id → ∀ x, r.playerOf e = some x → x.erasedAt.isSome

theorem sweepEntries_idle {entries : List Entry}
    (h : ∀ e ∈ entries, ∀ x, acc.1.registry.playerOf e = some x → x.erasedAt.isSome) :
    (entries.foldl (sweepEntry p clock) acc).1 = acc.1 ∧
      (entries.foldl (sweepEntry p clock) acc).2.erased = acc.2.erased := by
  induction entries generalizing acc with
  | nil => exact ⟨rfl, rfl⟩
  | cons e entries ih =>
    have here : (sweepEntry p clock acc e).1 = acc.1 ∧
        (sweepEntry p clock acc e).2.erased = acc.2.erased := by
      unfold sweepEntry
      cases hp : acc.1.registry.playerOf e with
      | none => exact ⟨rfl, rfl⟩
      | some player =>
        have gone := h e List.mem_cons_self player hp
        simp [gone]
    rw [List.foldl_cons]
    obtain ⟨same, count⟩ := @ih (sweepEntry p clock acc e)
      (by rw [here.1]; exact fun e' mem => h e' (List.mem_cons_of_mem _ mem))
    exact ⟨same.trans here.1, count.trans here.2⟩

theorem sweepEvent_idle {event : EntryEvent}
    (settled : DueEvent eventDate moment event → ∀ e ∈ acc.1.registry.entries.rows,
      e.entryEventId = event.id → ∀ x, acc.1.registry.playerOf e = some x → x.erasedAt.isSome)
    (h : sweepEvent p eventDate moment clock acc event = .ok acc') :
    acc'.1 = acc.1 ∧ acc'.2.erased = acc.2.erased := by
  rw [sweepEvent, bind_eq_ok] at h
  obtain ⟨deadline, due, h⟩ := h
  cases deadline with
  | none =>
    cases h
    exact ⟨rfl, rfl⟩
  | some deadline =>
    simp only at h
    split at h
    · cases h
      exact ⟨rfl, rfl⟩
    · next late =>
      cases h
      apply sweepEntries_idle
      intro e mem
      simp only [List.mem_filter, decide_eq_true_eq] at mem
      exact settled ⟨deadline, due, Nat.le_of_not_lt late⟩ e mem.1 mem.2

theorem sweepWorkspace_idle (settled : Settled eventDate moment ws.registry)
    {swept : Workspace × RetentionResult}
    (h : sweepWorkspace p eventDate moment clock ws = .ok swept) :
    swept.1 = ws ∧ swept.2.erased = 0 := by
  have run : ∀ {events : List EntryEvent} {acc : Workspace × RetentionResult},
      (∀ event ∈ events, event ∈ ws.registry.events.rows) → acc.1 = ws →
      events.foldlM (sweepEvent p eventDate moment clock) acc = .ok swept →
        swept.1 = ws ∧ swept.2.erased = acc.2.erased := by
    intro events
    induction events with
    | nil =>
      intro acc _ same h
      cases h
      exact ⟨same, rfl⟩
    | cons event events ih =>
      intro acc listed same h
      rw [List.foldlM_cons, bind_eq_ok] at h
      obtain ⟨next, first, rest⟩ := h
      have here := sweepEvent_idle (by
        rw [same]
        exact settled event (listed event List.mem_cons_self)) first
      obtain ⟨still, count⟩ := ih (fun event' mem => listed event' (List.mem_cons_of_mem _ mem))
        (here.1.trans same) rest
      exact ⟨still, count.trans here.2⟩
  exact run (fun _ mem => mem) rfl h

/-! ## Whose window is kept -/

section
variable (eventDate moment)

def DueEntry (r : Registry) (e : Entry) : Prop :=
  ∃ event ∈ r.events.rows, e.entryEventId = event.id ∧ DueEvent eventDate moment event

def KeptEntry (r : Registry) (e : Entry) : Prop :=
  ∃ event ∈ r.events.rows, e.entryEventId = event.id ∧ ¬ DueEvent eventDate moment event

/-- A player who is not erased has entries of both kinds. -/
def Shared (r : Registry) (x : EntryPlayer) : Prop :=
  x.erasedAt = none ∧ ∃ e ∈ r.entries.rows, ∃ e' ∈ r.entries.rows,
    e.entryPlayerId = some x.id ∧ e'.entryPlayerId = some x.id ∧
      DueEntry eventDate moment r e ∧ KeptEntry eventDate moment r e'

/-- What retention promises of a sweep from `ws` to `ws'`. -/
structure Retains (p : Platform) (ws ws' : Workspace) : Prop where
  spared : ∀ x ∈ ws.registry.players.rows, x.erasedAt = none →
    (∃ e ∈ ws.registry.entries.rows, e.entryPlayerId = some x.id ∧
      KeptEntry eventDate moment ws.registry e) → ws'.registry.players.get x.id = some x
  erased : ∀ x ∈ ws.registry.players.rows,
    (∃ e ∈ ws.registry.entries.rows, e.entryPlayerId = some x.id) →
    (∀ e ∈ ws.registry.entries.rows, e.entryPlayerId = some x.id →
      DueEntry eventDate moment ws.registry e) →
    ∃ x', ws'.registry.players.get x.id = some x' ∧ x'.erasedAt.isSome
  settled : ∀ clock, ∃ result, sweepWorkspace p eventDate moment clock ws' = .ok (ws', result) ∧
    result.erased = 0

end

theorem sweepWorkspace_swept {swept : Workspace × RetentionResult}
    (h : sweepWorkspace p eventDate moment clock ws = .ok swept) :
    Swept (fun id => ∃ e ∈ ws.registry.entries.rows, e.entryPlayerId = some id ∧
      DueEntry eventDate moment ws.registry e) ws.registry swept.1.registry := by
  refine (sweepEvents_swept h).congr fun id => ?_
  constructor
  · rintro ⟨event, listed, due, e, he, same, player⟩
    exact ⟨e, he, player, event, listed, same, due⟩
  · rintro ⟨e, he, player, event, listed, same, due⟩
    exact ⟨event, listed, due, e, he, same, player⟩

theorem settled_of_swept {swept : Workspace × RetentionResult}
    (h : sweepWorkspace p eventDate moment clock ws = .ok swept) :
    Settled eventDate moment swept.1.registry := by
  have run := sweepWorkspace_swept h
  intro event listed due e he same x hx
  rw [run.events] at listed
  rw [run.entries] at he
  obtain ⟨id, player, found⟩ := Option.bind_eq_some_iff.mp hx
  have hit : ∃ e ∈ ws.registry.entries.rows, e.entryPlayerId = some id ∧
      DueEntry eventDate moment ws.registry e := ⟨e, he, player, event, listed, same, due⟩
  cases before : ws.registry.players.get id with
  | none =>
    rw [run.absent id before] at found
    cases found
  | some y =>
    obtain ⟨y', hy', gone, -⟩ := run.erased id y hit before
    obtain rfl := Option.some.inj (hy'.symm.trans found)
    exact gone

/-- **The sweep keeps every window exactly when it stays in the calendar and no player has an
entry that is due beside one that is not.** -/
theorem retains_iff (p : Platform) (eventDate : Option Nat) (moment : Instant)
    (clock : Uuid → Instant) (ws : Workspace) :
    (∃ ws' result, sweepWorkspace p eventDate moment clock ws = .ok (ws', result) ∧
      Retains eventDate moment p ws ws') ↔
    InCalendar eventDate ws.registry ∧
      ∀ x ∈ ws.registry.players.rows, ¬ Shared eventDate moment ws.registry x := by
  constructor
  · rintro ⟨ws', result, h, retains⟩
    refine ⟨(sweepWorkspace_ok_iff ws).mp ⟨_, h⟩, ?_⟩
    rintro x hx ⟨alive, e, he, e', he', player, player', due, kept⟩
    have run := sweepWorkspace_swept h
    have found : ws.registry.players.get x.id = some x := Table.get_eq_some_iff.mpr ⟨hx, rfl⟩
    obtain ⟨x', hx', gone, -⟩ := run.erased x.id x ⟨e, he, player, due⟩ found
    have same := retains.spared x hx alive ⟨e', he', player', kept⟩
    obtain rfl := Option.some.inj (same.symm.trans hx')
    simp [alive] at gone
  · rintro ⟨dates, apart⟩
    obtain ⟨⟨ws', result⟩, h⟩ : ∃ swept, sweepWorkspace p eventDate moment clock ws = .ok swept :=
      (sweepWorkspace_ok_iff ws).mpr dates
    have run := sweepWorkspace_swept h
    refine ⟨ws', result, h, ?_, ?_, ?_⟩
    · rintro x hx alive ⟨e', he', player', kept⟩
      have found : ws.registry.players.get x.id = some x := Table.get_eq_some_iff.mpr ⟨hx, rfl⟩
      rw [run.kept x.id, found]
      rintro ⟨e, he, player, due⟩
      exact apart x hx ⟨alive, e, he, e', he', player, player', due, kept⟩
    · rintro x hx ⟨e, he, player⟩ due
      have found : ws.registry.players.get x.id = some x := Table.get_eq_some_iff.mpr ⟨hx, rfl⟩
      obtain ⟨x', hx', gone, -⟩ := run.erased x.id x ⟨e, he, player, due e he player⟩ found
      exact ⟨x', hx', gone⟩
    · intro clock'
      have again : InCalendar eventDate ws'.registry := by
        intro event listed
        rw [run.events] at listed
        exact dates event listed
      obtain ⟨⟨ws'', result'⟩, h'⟩ :
          ∃ swept, sweepWorkspace p eventDate moment clock' ws' = .ok swept :=
        (sweepWorkspace_ok_iff ws').mpr again
      obtain ⟨rfl, count⟩ := sweepWorkspace_idle (settled_of_swept h) h'
      exact ⟨result', h', count⟩

def club : Workspace := { hall with
  registry := { hall.registry with
    events := Table.ofRows [
      { id := "club", code := "MS", discipline := "MS", retentionDays := some 1 },
      { id := "national", code := "WS", discipline := "WS", retentionDays := some 365 }]
    players := Table.ofRows [{ id := "ann", fullName := "Ann", gender := "F" }]
    entries := Table.ofRows [
      { id := "e1", entryEventId := "club", submissionId := none, entryPlayerId := some "ann",
        state := .confirmed, pendingReasons := [], feeCents := none, submittedAt := 1 },
      { id := "e2", entryEventId := "national", submissionId := none, entryPlayerId := some "ann",
        state := .confirmed, pendingReasons := [], feeCents := none, submittedAt := 1 }] } }

/-- A month after the day the player is erased, though the national event keeps its entries. -/
theorem shared_player_erased :
    ∃ ws' result, sweepWorkspace letters (some 739000) (739030 * dayLength) (fun _ => 0) club =
        .ok (ws', result) ∧
      ∃ x ∈ club.registry.players.rows, x.erasedAt = none ∧
        (∃ e ∈ club.registry.entries.rows, e.entryPlayerId = some x.id ∧
          KeptEntry (some 739000) (739030 * dayLength) club.registry e) ∧
        ∃ x', ws'.registry.players.get x.id = some x' ∧ x'.erasedAt.isSome := by
  have erased : ((sweepWorkspace letters (some 739000) (739030 * dayLength) (fun _ => 0)
      club).toOption.bind fun swept => swept.1.registry.players.get "ann").any
        (fun x => x.erasedAt.isSome) := by decide +kernel
  obtain ⟨x', found, gone⟩ := Option.any_eq_true _ _ |>.mp erased
  obtain ⟨⟨ws', result⟩, run, found⟩ := Option.bind_eq_some_iff.mp found
  refine ⟨ws', result, toOption_eq_some.mp run,
    { id := "ann", fullName := "Ann", gender := "F" }, List.mem_singleton_self _, rfl, ?_,
    x', found, gone⟩
  refine ⟨_, List.mem_cons_of_mem _ (List.mem_singleton_self _), rfl, _,
    List.mem_cons_of_mem _ (List.mem_singleton_self _), rfl, ?_⟩
  rintro ⟨deadline, due, late⟩
  cases due
  exact absurd late (by decide)

end Entries
