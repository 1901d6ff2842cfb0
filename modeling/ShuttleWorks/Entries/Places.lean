import ShuttleWorks.Entries.Guarantees
import ShuttleWorks.Entries.IntakeRule
import ShuttleWorks.Lib.Admission

/-! Places of an event with a cap. An act gives them away entry by entry, a withdrawal or a
rejection gives one back, and everything else leaves the places as they are, as long as no operator
takes an entry off the waitlist. -/

namespace Entries
open Lib Admission
open Sync (Uuid)
open Competition (Workspace)

variable {p : Platform} {r r' : Registry} {s : EntryState} {e e' : Entry} {es : List Entry}

/-! ## Seats -/

def EntryState.place : EntryState → Place
  | .unverified | .pending | .confirmed => .held
  | .waitlisted => .queued
  | .rejected | .withdrawn => .gone

def Entry.seat (e : Entry) : Seat Uuid Uuid := ⟨e.id, e.entryEventId, e.state.place⟩

def seats (r : Registry) : List (Seat Uuid Uuid) := r.entries.rows.map Entry.seat

def Full (events : Table EntryEvent.id) (event : Uuid) (n : Nat) : Prop :=
  ∃ row, events.get event = some row ∧ ∃ cap, row.cap = some cap ∧ cap ≤ (n : Int)

theorem place_eq_held :
    s.place = .held ↔ s ∈ [EntryState.unverified, .pending, .confirmed] := by
  cases s <;> simp [EntryState.place]

theorem place_eq_queued : s.place = .queued ↔ s = .waitlisted := by
  cases s <;> simp [EntryState.place]

theorem holding_eq (r : Registry) (event : Uuid) : holding r event = taken (seats r) event := by
  rw [holding, taken, seats, List.countP_map, List.countP_eq_length_filter]
  congr 1
  refine List.filter_congr fun e _ => ?_
  simp only [Function.comp, Entry.seat, place_eq_held]

theorem atCap_iff {event : EntryEvent} (found : r.events.get event.id = some event) :
    AtCap r event ↔ Full r.events event.id (taken (seats r) event.id) := by
  simp [AtCap, Full, found, holding_eq]

theorem full_upward {events : Table EntryEvent.id} (event : Uuid) (m n : Nat) (le : m ≤ n) :
    Full events event m → Full events event n := by
  rintro ⟨row, found, cap, limit, reached⟩
  exact ⟨row, found, cap, limit, by omega⟩

/-! ## Intake -/

/-- Entries are added behind those that are there, each as its event has a place left. -/
structure Admits (r r' : Registry) : Prop where
  events : r'.events = r.events
  seats : ∃ new, seats r' = seats r ++ new ∧ Lands (Full r.events) (seats r) new

namespace Admits

theorem of_seats (events : r'.events = r.events) (same : Entries.seats r' = Entries.seats r) :
    Admits r r' := ⟨events, [], by simp [same], trivial⟩

theorem trans {r'' : Registry} (h : Admits r r') (h' : Admits r' r'') : Admits r r'' := by
  obtain ⟨new, rows, lands⟩ := h.seats
  obtain ⟨new', rows', lands'⟩ := h'.seats
  refine ⟨h'.events.trans h.events, new ++ new', ?_, lands_append.mpr ⟨lands, ?_⟩⟩
  · rw [rows', rows, List.append_assoc]
  · rw [← rows, ← h.events]
    exact lands'

end Admits

theorem seats_put (found : r.entries.get e'.id = some e) (same : e'.seat = e.seat) :
    seats (r.putEntry e') = seats r :=
  Table.map_rows_put found same

theorem seat_placed {event : EntryEvent} {now : Instant}
    (landing : e.state ∈ [EntryState.pending, .unverified]) (ok : placeEntry r e event now = .ok e')
    : e'.seat.list = e.entryEventId ∧
      e'.seat.place ≠ .gone ∧ (e'.seat.place = .queued ↔ AtCap r event) := by
  obtain ⟨-, own, -, -, live, queued⟩ := placeEntry_ok landing ok
  refine ⟨own, ?_, place_eq_queued.trans queued⟩
  have alive : ∀ s ∈ liveStates, s.place ≠ .gone := by decide
  exact alive _ live

theorem intake_admits : IntakeRule Admits where
  refl r := .of_seats rfl rfl
  trans h h' := h.trans h'
  events h := h.events
  tables entries events := .of_seats events (by simp only [seats, entries])
  reasons _ found := .of_seats rfl (seats_put found rfl)
  placed := by
    intro r e e' event now entries found own landing ok inserted
    obtain ⟨list, alive, queued⟩ := seat_placed landing ok
    refine ⟨rfl, [e'.seat], ?_, ⟨alive, ?_⟩, trivial⟩
    · simp [seats, (Table.insert_eq_some.mp inserted).2]
    · rw [queued, list, own]
      exact atCap_iff found

/-! ## Other operations -/

theorem seats_recompute :
    seats (r.recompute p e) = seats (r.putEntry e) :=
  seats_put (Table.get_put_self r.entries e) rfl

theorem seats_leave (he : e ∈ r.entries.rows) {state : EntryState} (gone : state.place = .gone)
    (version : Nat) :
    seats (r.putEntry { e with state := state, machineVersion := version }) =
      (seats r).map (vacate e.id) := by
  let left : Entry := { e with state := state, machineVersion := version }
  have has : r.entries.Has left.id := Table.has_iff.mpr ⟨e, he, rfl⟩
  show (r.entries.put left).rows.map Entry.seat = _
  rw [Table.rows_put_of_has has, seats, List.map_map, List.map_map]
  refine List.map_congr_left fun x hx => ?_
  by_cases own : x.id = e.id
  · obtain rfl := Table.eq_of_key_eq hx he own
    simp [left, Entry.seat, vacate, gone]
  · simp [left, Entry.seat, vacate, own]

theorem verifyEntries_seats {now : Instant}
    (rows : ∀ e ∈ es, e ∈ r.entries.rows ∧ e.state = .unverified) (unique : (es.map Entry.id).Nodup)
    (ok : verifyEntries p now r es = .ok r') :
    r'.events = r.events ∧ seats r' = seats r := by
  induction es generalizing r with
  | nil =>
    cases ok
    exact ⟨rfl, rfl⟩
  | cons e es ih =>
    simp only [verifyEntries, bind_eq_ok] at ok
    obtain ⟨e', moved, ok⟩ := ok
    obtain ⟨rfl, -⟩ := transitionEntry_target .pending moved (by decide)
    simp only [List.map_cons, List.nodup_cons] at unique
    obtain ⟨he, unverified⟩ := rows e List.mem_cons_self
    let moved : Entry := { e with state := .pending, machineVersion := entryMachine.version }
    have first : seats (r.recompute p moved) = seats r := by
      rw [seats_recompute]
      refine seats_put (Table.get_eq_some_iff.mpr ⟨he, rfl⟩) ?_
      simp [moved, Entry.seat, unverified, EntryState.place]
    have still : ∀ x ∈ es, x ∈ (r.recompute p moved).entries.rows ∧ x.state = .unverified := by
      intro x hx
      obtain ⟨hx', state⟩ := rows x (List.mem_cons_of_mem _ hx)
      have apart : x.id ≠ e.id := fun clash => unique.1 (clash ▸ List.mem_map_of_mem hx)
      exact ⟨mem_recompute_of_ne hx' apart, state⟩
    obtain ⟨events, rest⟩ := ih still unique.2 ok
    exact ⟨events, rest.trans first⟩

theorem promoteVerifiedEntries_seats {account : Uuid} {now : Instant}
    (ok : promoteVerifiedEntries p r account now = .ok r') :
    r'.events = r.events ∧ seats r' = seats r := by
  refine verifyEntries_seats (fun e he => ?_)
    ((List.filter_sublist.map Entry.id).nodup r.entries.unique) ok
  obtain ⟨member, state⟩ := List.mem_filter.mp he
  simp only [Bool.decide_and, Bool.and_eq_true, decide_eq_true_eq] at state
  exact ⟨member, state.1⟩

theorem confirm_seats {id : Uuid} {now : Instant} (ok : confirm p r id now = .ok r') :
    r'.events = r.events ∧ seats r' = seats r := by
  unfold confirm at ok
  simp only [bind_eq_ok, found_eq_ok, lift_eq_ok] at ok
  obtain ⟨e, row, _, awaits, e', moved, ok⟩ := ok
  cases ok
  obtain rfl := Table.key_of_get row
  obtain ⟨rfl, -⟩ := transitionEntry_target .confirmed moved (by decide)
  refine ⟨rfl, seats_recompute.trans (seats_put row ?_)⟩
  unfold isPendingExactly at awaits
  split at awaits
  · next state => simp [Entry.seat, state, EntryState.place]
  · cases awaits
  · cases awaits
  · cases awaits

theorem recomputeAll_seats (rows : ∀ e ∈ es, e ∈ r.entries.rows) (unique : (es.map Entry.id).Nodup)
    : (recomputeAll p r es).events = r.events ∧
      seats (recomputeAll p r es) = seats r := by
  induction es generalizing r with
  | nil => exact ⟨rfl, rfl⟩
  | cons e es ih =>
    simp only [List.map_cons, List.nodup_cons] at unique
    have first : seats (r.recompute p e) = seats r := by
      rw [seats_recompute]
      exact seats_put (Table.get_eq_some_iff.mpr ⟨rows e List.mem_cons_self, rfl⟩) rfl
    have still : ∀ x ∈ es, x ∈ (r.recompute p e).entries.rows := by
      intro x hx
      have apart : x.id ≠ e.id := fun clash => unique.1 (clash ▸ List.mem_map_of_mem hx)
      exact mem_recompute_of_ne (rows x (List.mem_cons_of_mem _ hx)) apart
    obtain ⟨events, rest⟩ := ih still unique.2
    exact ⟨events, rest.trans first⟩

theorem recordPayment_seats {id : Uuid} {amount : Int} {currency actor request : String}
    {note : Option String} (ok : recordPayment p r id amount currency note actor request = .ok r') :
    r'.events = r.events ∧ seats r' = seats r := by
  unfold recordPayment at ok
  simp only [bind_eq_ok, found_eq_ok] at ok
  obtain ⟨_, -, _, -, s, -, _, -, _, -, ok⟩ := ok
  split at ok
  · simp only [bind_eq_ok] at ok
    obtain ⟨_, -, ok⟩ := ok
    cases ok
    exact ⟨rfl, rfl⟩
  · simp only [bind_eq_ok, found_eq_ok, Registry.mint] at ok
    obtain ⟨_, -, payments, -, ok⟩ := ok
    cases ok
    exact recomputeAll_seats (r := { r with
      drawn := r.drawn + 1
      payments := payments
      submissions := r.submissions.put { s with version := s.version + 1 } })
      (fun _ he => List.mem_of_mem_filter he)
      ((List.filter_sublist.map Entry.id).nodup r.entries.unique)

theorem reject_seats {id : Uuid} {now : Instant} (ok : reject p r id now = .ok r') :
    r'.events = r.events ∧ seats r' = (seats r).map (vacate id) := by
  unfold reject at ok
  simp only [bind_eq_ok, found_eq_ok] at ok
  obtain ⟨e, row, _, -, e', moved, ok⟩ := ok
  cases ok
  obtain ⟨he, rfl⟩ := Table.get_eq_some_iff.mp row
  obtain ⟨rfl, -⟩ := transitionEntry_target .rejected moved (by decide)
  exact ⟨rfl, seats_recompute.trans (seats_leave he rfl _)⟩

theorem awaitPartnerAgain_seats :
    (awaitPartnerAgain r e).events = r.events ∧ seats (awaitPartnerAgain r e) = seats r ∧
      ∀ x, r.entries.get e.id = some x →
        ∃ y, (awaitPartnerAgain r e).entries.get e.id = some y ∧ y.seat = x.seat := by
  unfold awaitPartnerAgain
  split
  · exact ⟨rfl, rfl, fun x found => ⟨x, found, rfl⟩⟩
  · next partner paired =>
    obtain ⟨q, -, row⟩ := Option.bind_eq_some_iff.mp paired
    obtain rfl := Table.key_of_get row
    split
    · refine ⟨rfl, seats_put row rfl, fun x found => ?_⟩
      simp only [Registry.putEntry, Table.get_put]
      split
      · next same =>
        obtain rfl := Option.some.inj ((same ▸ found).symm.trans row)
        exact ⟨_, rfl, rfl⟩
      · exact ⟨x, found, rfl⟩
    · exact ⟨rfl, rfl, fun x found => ⟨x, found, rfl⟩⟩

theorem withdraw_seats {ws ws' : Workspace} {id : Uuid} {erase byOperator : Bool} {now : Instant}
    (ok : withdraw p ws id erase byOperator now = .ok ws') :
    ws'.registry.events = ws.registry.events ∧
      seats ws'.registry = (seats ws.registry).map (vacate id) := by
  unfold withdraw at ok
  simp only [bind_eq_ok, found_eq_ok] at ok
  obtain ⟨e, row, _, -, e', moved, ws₁, left, ok⟩ := ok
  cases ok
  obtain ⟨he, rfl⟩ := Table.get_eq_some_iff.mp row
  have moved : e' = { e with state := .withdrawn, machineVersion := entryMachine.version } := by
    cases byOperator
    · exact (transitionEntry_target .withdrawn moved (by decide)).1
    · exact (transitionEntry_target .withdrawn moved (by decide)).1
  subst moved
  let gone : Entry := { e with state := .withdrawn, machineVersion := entryMachine.version }
  let stamped : Entry := { gone with withdrawnAt := some now }
  have registry : ws₁.registry = ws.registry.putEntry gone :=
    Competition.withdrawMembership_registry p left
  have left : (ws.registry.putEntry gone).entries.get stamped.id = some gone :=
    Table.get_put_self ws.registry.entries gone
  have first : seats ((ws.registry.putEntry gone).putEntry stamped) =
      (seats ws.registry).map (vacate e.id) :=
    (seats_put left rfl).trans (seats_leave he rfl _)
  have there : ((ws.registry.putEntry gone).putEntry stamped).entries.get stamped.id =
      some stamped := Table.get_put_self _ stamped
  rw [registry]
  obtain ⟨events, again, stays⟩ :=
    awaitPartnerAgain_seats (r := (ws.registry.putEntry gone).putEntry stamped) (e := stamped)
  obtain ⟨y, found, same⟩ := stays stamped there
  set marked := awaitPartnerAgain ((ws.registry.putEntry gone).putEntry stamped) stamped
  have erased : ∀ r₂ : Registry, (∃ players, r₂ = { marked with players := players }) →
      (r₂.recompute p stamped).events = ws.registry.events ∧
        seats (r₂.recompute p stamped) = (seats ws.registry).map (vacate e.id) := by
    rintro r₂ ⟨players, rfl⟩
    refine ⟨events, seats_recompute.trans ?_⟩
    exact (seats_put (r := { marked with players := players }) found same.symm).trans
      (again.trans first)
  refine erased _ ?_
  cases erase
  · exact ⟨marked.players, rfl⟩
  · exact erasePlayer_tables _ _ _

theorem perform_seats {ws ws' : Workspace} {op : Operation}
    (unpromoted : ∀ entry now, op ≠ .promote entry now) (ok : perform p ws op = .ok ws') :
    ws'.registry.events = ws.registry.events ∧ ∃ m, Admission.Step (Full ws.registry.events)
      (seats ws.registry) m (seats ws'.registry) ∧ ∀ id, m = .leave id →
        (∃ erase byOperator now, op = .withdraw id erase byOperator now) ∨
          ∃ now, op = .reject id now := by
  have admits : ∀ {r}, Admits ws.registry r → r.events = ws.registry.events ∧
      ∃ m, Admission.Step (Full ws.registry.events) (seats ws.registry) m (seats r) ∧
        ∀ id, m = .leave id → (∃ erase byOperator now, op = .withdraw id erase byOperator now) ∨
          ∃ now, op = .reject id now := by
    intro r h
    obtain ⟨new, rows, lands⟩ := h.seats
    exact ⟨h.events, .arrive new, rows ▸ .arrive lands, fun id same => by cases same⟩
  cases op with
  | createSubmission form now =>
    obtain ⟨r, done, rfl⟩ := onRegistry_eq_ok.mp ok
    obtain ⟨result, done⟩ := map_fst_eq_ok.mp done
    exact admits (intake_admits.createSubmission done)
  | accept entry a now =>
    obtain ⟨r, done, rfl⟩ := onRegistry_eq_ok.mp ok
    obtain ⟨half, done⟩ := map_fst_eq_ok.mp done
    exact admits (intake_admits.accept done)
  | withdraw entry erase byOperator now =>
    obtain ⟨events, left⟩ := withdraw_seats ok
    refine ⟨events, .leave entry, left ▸ .leave entry, fun id same => .inl ?_⟩
    cases same
    exact ⟨erase, byOperator, now, rfl⟩
  | reject entry now =>
    obtain ⟨r, done, rfl⟩ := onRegistry_eq_ok.mp ok
    obtain ⟨events, left⟩ := reject_seats done
    refine ⟨events, .leave entry, left ▸ .leave entry, fun id same => .inr ?_⟩
    cases same
    exact ⟨now, rfl⟩
  | promote entry now => exact absurd rfl (unpromoted entry now)
  | confirm entry now =>
    obtain ⟨r, done, rfl⟩ := onRegistry_eq_ok.mp ok
    obtain ⟨events, same⟩ := confirm_seats done
    exact admits (.of_seats events same)
  | promoteVerifiedEntries account now =>
    obtain ⟨r, done, rfl⟩ := onRegistry_eq_ok.mp ok
    obtain ⟨events, same⟩ := promoteVerifiedEntries_seats done
    exact admits (.of_seats events same)
  | recordPayment submission amountCents currency note actorId requestId =>
    obtain ⟨r, done, rfl⟩ := onRegistry_eq_ok.mp ok
    obtain ⟨events, same⟩ := recordPayment_seats done
    exact admits (.of_seats events same)

/-! ## Runs without promotion -/

def Unpromoted (p : Platform) (ws : Workspace) (op : Operation) (ws' : Workspace) : Prop :=
  ws' = after p ws op ∧ ∀ entry now, op ≠ .promote entry now

def entered (ws ws' : Workspace) : List Entry :=
  ws'.registry.entries.rows.drop ws.registry.entries.rows.length

/-- An entry that holds a place of the event is withdrawn or rejected. -/
def GivesBack (p : Platform) (event : Uuid) (ws : Workspace) (op : Operation) : Prop :=
  (∃ done, perform p ws op = .ok done) ∧ ∃ e ∈ ws.registry.entries.rows,
    e.entryEventId = event ∧ e.state ∈ [EntryState.unverified, .pending, .confirmed] ∧
      ((∃ erase byOperator now, op = .withdraw e.id erase byOperator now) ∨
        ∃ now, op = .reject e.id now)

section
variable {ws ws' : Workspace} {op : Operation}

/-- **Step.** Every operation is one move on the lists, and gives back no place but an entry's. -/
theorem Unpromoted.move (h : Unpromoted p ws op ws') :
    ws'.registry.events = ws.registry.events ∧ ∃ m, Admission.Step (Full ws.registry.events)
      (seats ws.registry) m (seats ws'.registry) ∧
        ∀ event, Frees (seats ws.registry) event m → GivesBack p event ws op := by
  obtain ⟨rfl, unpromoted⟩ := h
  unfold after
  split
  · next done ok =>
    obtain ⟨events, m, step, leaves⟩ := perform_seats unpromoted ok
    refine ⟨events, m, step, fun event freed => ?_⟩
    cases m with
    | arrive new => exact freed.elim
    | leave id =>
      obtain ⟨s, hs, rfl, list, held⟩ := freed
      obtain ⟨e, he, rfl⟩ := List.mem_map.mp hs
      exact ⟨⟨done, ok⟩, e, he, list, place_eq_held.mp held, leaves _ rfl⟩
  · refine ⟨rfl, .arrive [], ?_, fun event freed => freed.elim⟩
    have none : Lands (Full ws.registry.events) (seats ws.registry) [] := trivial
    simpa using Admission.Step.arrive none

theorem entered_lands {full : Uuid → Nat → Prop} {m : Move Uuid Uuid}
    (h : Admission.Step full (seats ws.registry) m (seats ws'.registry)) :
    Lands full (seats ws.registry) ((entered ws ws').map Entry.seat) ∧
      (entered ws ws' ≠ [] →
        seats ws'.registry = seats ws.registry ++ (entered ws ws').map Entry.seat) := by
  have added : (entered ws ws').map Entry.seat =
      (seats ws'.registry).drop (seats ws.registry).length := by
    rw [entered, List.map_drop, seats, seats, List.length_map]
  generalize hs : seats ws'.registry = ss at h added ⊢
  cases h with
  | arrive lands =>
    rw [List.drop_left] at added
    rw [added]
    exact ⟨lands, fun _ => rfl⟩
  | leave id =>
    rw [List.drop_eq_nil_of_le (by simp)] at added
    rw [added]
    exact ⟨trivial, fun some => absurd (List.map_eq_nil_iff.mp added) some⟩

theorem taken_entered (r : Registry) (a : List Entry) (event : Uuid) :
    taken (seats r ++ a.map Entry.seat) event = holding r event + a.countP (fun x =>
      x.entryEventId = event ∧ x.state ∈ [EntryState.unverified, .pending, .confirmed]) := by
  rw [taken_append, ← holding_eq, taken, List.countP_map]
  congr 1
  refine List.countP_congr fun e _ => ?_
  simp only [Function.comp, Entry.seat, place_eq_held]

end

theorem full_or_freed {ws ws' : Workspace} {ops : List Operation} {event : Uuid}
    (run : Run (Unpromoted p) ws ops ws')
    (full : Full ws.registry.events event (taken (seats ws.registry) event)) :
    Full ws'.registry.events event (taken (seats ws'.registry) event) ∨
      ∃ before op later t, ops = before ++ op :: later ∧ Run (Unpromoted p) ws before t ∧
        GivesBack p event t op := by
  refine run.holds_or (I := fun ws =>
    Full ws.registry.events event (taken (seats ws.registry) event)) (Q := GivesBack p event)
    (fun s op s' full step keeps => ?_) full
  obtain ⟨events, m, move, freed⟩ := step.move
  rw [events]
  exact full_upward event _ _ (move.taken_ge fun frees => keeps (freed event frees)) full

/-- **Places under a cap.** In runs in which no operator takes an entry off the waitlist, the
entries that hold a place of an event are not more than its cap, unless they were so at the start;
a new entry is put on the waitlist if and only if the places are taken by then; and one that is
given a place before an entry on the waitlist has it from somebody who was withdrawn or rejected
while that one was waiting. -/
theorem places_by_cap (p : Platform) :
    (∀ ws ops ws', Run (Unpromoted p) ws ops ws' → ∀ event ∈ ws.registry.events.rows, ∀ cap,
      event.cap = some cap →
        holding ws'.registry event.id ≤ max (holding ws.registry event.id) cap.toNat) ∧
    (∀ ws op ws', Unpromoted p ws op ws' → ∀ a e b, entered ws ws' = a ++ e :: b →
      e.state ∈ liveStates ∧ (e.state = .waitlisted ↔ Full ws.registry.events e.entryEventId
        (holding ws.registry e.entryEventId + a.countP fun x => x.entryEventId = e.entryEventId ∧
          x.state ∈ [EntryState.unverified, .pending, .confirmed]))) ∧
    ∀ ws first ws₁ ops ws₂ last ws₃, Unpromoted p ws first ws₁ → Run (Unpromoted p) ws₁ ops ws₂ →
      Unpromoted p ws₂ last ws₃ → ∀ w ∈ entered ws ws₁, w.state = .waitlisted →
        ∀ e ∈ entered ws₂ ws₃, e.entryEventId = w.entryEventId → e.state ≠ .waitlisted →
          ∃ before op later t, ops = before ++ op :: later ∧ Run (Unpromoted p) ws₁ before t ∧
            GivesBack p w.entryEventId t op := by
  refine ⟨?_, ?_, ?_⟩
  · intro ws ops ws' run event listed cap limit
    have start : ws.registry.events.get event.id = some event :=
      Table.get_eq_some_iff.mpr ⟨listed, rfl⟩
    refine (run.invariant (I := fun s => s.registry.events = ws.registry.events ∧
      holding s.registry event.id ≤ max (holding ws.registry event.id) cap.toNat) ?_
      ⟨rfl, le_max_left _ _⟩).2
    rintro s op s' ⟨same, bounded⟩ step
    obtain ⟨events, m, move, -⟩ := step.move
    refine ⟨events.trans same, ?_⟩
    rw [holding_eq] at bounded ⊢
    refine (move.taken_le fun n (enough : cap.toNat ≤ n) => ?_).trans
      (max_le bounded (le_max_right _ _))
    rw [same]
    exact ⟨event, start, cap, limit, by omega⟩
  · intro ws op ws' step a e b split
    obtain ⟨-, m, move, -⟩ := step.move
    have lands := (entered_lands move).1
    rw [split, List.map_append, List.map_cons] at lands
    obtain ⟨alive, queued⟩ := lands_cons_of_split lands
    rw [taken_entered] at queued
    refine ⟨?_, place_eq_queued.symm.trans queued⟩
    have living : ∀ s : EntryState, s.place ≠ .gone → s ∈ liveStates := by
      intro s
      cases s <;> simp [EntryState.place, liveStates]
    exact living _ alive
  · intro ws first ws₁ ops ws₂ last ws₃ queueing run entering w hw waits e he same placed
    obtain ⟨events, m, move, -⟩ := queueing.move
    obtain ⟨lands, rows⟩ := entered_lands move
    have full := lands.full_of_queued full_upward (List.mem_map_of_mem hw)
      (place_eq_queued.mpr waits)
    rw [← rows (List.ne_nil_of_mem hw), ← events] at full
    refine (full_or_freed run full).resolve_left fun full => placed ?_
    obtain ⟨-, m', move', -⟩ := entering.move
    exact place_eq_queued.mp
      ((entered_lands move').1.queued full_upward full (List.mem_map_of_mem he) same)

def studio : Workspace := { hall with
  registry := { hall.registry with
    events := Table.ofRows [{ id := "ms", code := "MS", discipline := "MS", cap := some 1 }] } }

/-- Somebody enters the event by themselves. -/
def single (account : Uuid) (fullName : String) : Operation :=
  .createSubmission
    { accountId := account, feeTotalCents := none, feeBasis := none,
      players := [{ fullName := fullName, gender := "M", events := ["ms"] }] } 1

/-- Ann has the place, Bob waits, Ann withdraws and Cem has her place. -/
theorem places_by_cap_studio :
    let ws₀ := after letters studio (single "ann" "Ann")
    let ws₁ := after letters ws₀ (single "bob" "Bob")
    let ws₂ := after letters ws₁ (.withdraw "uuu" false false 2)
    let ws₃ := after letters ws₂ (single "cem" "Cem")
    ws₃.registry.entries.rows.map Entry.state = [.withdrawn, .waitlisted, .pending] ∧
      holding ws₃.registry "ms" ≤ 1 ∧
      ∃ before op later t, [Operation.withdraw "uuu" false false 2] = before ++ op :: later ∧
        Run (Unpromoted letters) ws₁ before t ∧ GivesBack letters "ms" t op := by
  intro ws₀ ws₁ ws₂ ws₃
  have first : Unpromoted letters studio (single "ann" "Ann") ws₀ := ⟨rfl, by simp [single]⟩
  have second : Unpromoted letters ws₀ (single "bob" "Bob") ws₁ := ⟨rfl, by simp [single]⟩
  have leaves : Unpromoted letters ws₁ (.withdraw "uuu" false false 2) ws₂ := ⟨rfl, by simp⟩
  have last : Unpromoted letters ws₂ (single "cem" "Cem") ws₃ := ⟨rfl, by simp [single]⟩
  obtain ⟨bounded, -, freed⟩ := places_by_cap letters
  have states : ws₃.registry.entries.rows.map Entry.state =
      [.withdrawn, .waitlisted, .pending] := by decide +kernel
  have run : Run (Unpromoted letters) ws₁ [.withdraw "uuu" false false 2] ws₂ :=
    .cons leaves (.nil ws₂)
  have came : (entered ws₀ ws₁).map (fun e => (e.entryEventId, e.state)) =
      [("ms", .waitlisted)] := by decide +kernel
  have came' : (entered ws₂ ws₃).map (fun e => (e.entryEventId, e.state)) =
      [("ms", .pending)] := by decide +kernel
  obtain ⟨w, hw, of_w⟩ := List.mem_map.mp (came ▸ List.mem_singleton_self _)
  obtain ⟨e, he, of_e⟩ := List.mem_map.mp (came' ▸ List.mem_singleton_self _)
  obtain ⟨event, waits⟩ := Prod.mk.inj of_w
  obtain ⟨event', placed⟩ := Prod.mk.inj of_e
  refine ⟨states, ?_, ?_⟩
  · have whole := bounded studio _ ws₃ (.cons first (.cons second (.cons leaves (.cons last
      (.nil ws₃))))) { id := "ms", code := "MS", discipline := "MS", cap := some 1 }
      (Table.mem_of_get (k := "ms") rfl) 1 rfl
    exact whole.trans (by decide +kernel)
  · have given := freed ws₀ _ ws₁ _ ws₂ _ ws₃ second run last w hw waits e he
      (event'.trans event.symm) (by simp [placed])
    rwa [event] at given

/-- A new entry can have a place while one that was there before it waits. -/
theorem waitlist_overtaken :
    ¬ ∀ (p : Platform) (ws : Workspace) (ops : List Operation) (last : Operation),
      Unentered ws.registry → (∀ op ∈ ops ++ [last], ∀ entry now, op ≠ .promote entry now) →
        ∀ w ∈ (ops.foldl (after p) ws).registry.entries.rows, w.state = .waitlisted →
          ∀ e ∈ entered (ops.foldl (after p) ws) (after p (ops.foldl (after p) ws) last),
            e.entryEventId = w.entryEventId → e.state = .waitlisted := by
  intro always
  have run := always letters studio [single "ann" "Ann", single "bob" "Bob",
    .withdraw "uuu" false false 2] (single "cem" "Cem") ⟨rfl, rfl, rfl, rfl⟩
    (by simp [single])
  have overtaken : ∃ w ∈ ([single "ann" "Ann", single "bob" "Bob",
      .withdraw "uuu" false false 2].foldl (after letters) studio).registry.entries.rows,
      w.state = .waitlisted ∧ ∃ e ∈ entered ([single "ann" "Ann", single "bob" "Bob",
        .withdraw "uuu" false false 2].foldl (after letters) studio) (after letters
          ([single "ann" "Ann", single "bob" "Bob", .withdraw "uuu" false false 2].foldl
            (after letters) studio) (single "cem" "Cem")),
        e.entryEventId = w.entryEventId ∧ e.state ≠ .waitlisted := by decide +kernel
  obtain ⟨w, hw, waits, e, he, same, placed⟩ := overtaken
  exact placed (run w hw waits e he same)

end Entries
