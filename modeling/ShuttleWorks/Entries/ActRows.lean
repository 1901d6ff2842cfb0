import ShuttleWorks.Entries.Acts
import ShuttleWorks.Entries.Transactions

/-! What the flushes of a call write, as far as it tells acts and entries apart: the row of the act,
players, one entry after the other, and rewritten rows that stay the same entry. -/

namespace Entries
open Lib
open Sync (Uuid)

variable {p : Platform} {r r' : Registry} {e : Entry}

/-! ## The core of an entry -/

/-- What of an entry no later write changes. -/
structure Core where
  id : Uuid
  submissionId : Option Uuid
  entryPlayerId : Option Uuid
  entryEventId : Uuid
  deriving DecidableEq

def Entry.core (e : Entry) : Core := ⟨e.id, e.submissionId, e.entryPlayerId, e.entryEventId⟩

def cores (r : Registry) : List Core := r.entries.rows.map Entry.core

def ofAct (cs : List Core) (act : Uuid) : List Core := cs.filter (·.submissionId = some act)

theorem ofAct_append (cs cs' : List Core) (act : Uuid) :
    ofAct (cs ++ cs') act = ofAct cs act ++ ofAct cs' act := List.filter_append ..

theorem map_core_entriesOf (r : Registry) (act : Uuid) :
    (entriesOf r act).map Entry.core = ofAct (cores r) act := by
  rw [entriesOf, ofAct, cores, List.filter_map]
  rfl

theorem ids_entriesOf (r : Registry) (act : Uuid) :
    (entriesOf r act).map Entry.id = (ofAct (cores r) act).map Core.id := by
  rw [← map_core_entriesOf, List.map_map]
  rfl

theorem has_iff_mem_cores {id : Uuid} : r.entries.Has id ↔ id ∈ (cores r).map Core.id := by
  rw [Table.Has, cores, List.map_map]
  rfl

theorem cores_put_same (h : e.core ∈ cores r) : cores (r.putEntry e) = cores r := by
  obtain ⟨x, hx, same⟩ := List.mem_map.mp h
  have id : x.id = e.id := congrArg Core.id same
  exact Table.map_rows_put (Table.get_eq_some_iff.mpr ⟨hx, id⟩) same.symm

theorem cores_put_new (h : ¬ r.entries.Has e.id) :
    cores (r.putEntry e) = cores r ++ [e.core] := by
  unfold cores Registry.putEntry
  rw [Table.rows_put_of_not_has h, List.map_append]
  rfl

/-! ## Flushes -/

section
variable {call : CreateCall} {form : SubmissionForm} {spec : PlayerInput} {person : Person}

theorem insertSubmission_ok {id : Uuid} (h : insertSubmission p r call = .ok (r', id)) :
    ¬ KeyTaken r call.form ∧ ¬ r.submissions.Has id ∧
      r.changes r' = [.submission (call.submission id)] := by
  simp only [insertSubmission, Registry.mint, bind_eq_ok, found_eq_ok] at h
  obtain ⟨_, free, submissions, inserted, h⟩ := h
  cases h
  refine ⟨require_eq_ok.mp free, (Table.insert_eq_some.mp inserted).1, ?_⟩
  simp [Registry.changes, Table.changes_insert inserted]

def Selects (spec : PlayerInput) (events : List Uuid) : Prop :=
  events.Nodup ∧ ∀ id, id ∈ events ↔ id ∈ spec.events

theorem nodup_distinct (events : List EntryEvent) : ((distinct events).map EntryEvent.id).Nodup := by
  induction events with
  | nil => exact List.nodup_nil
  | cons event events ih =>
    rw [distinct, List.map_cons, List.nodup_cons]
    refine ⟨?_, ih.sublist (List.Sublist.map _ List.filter_sublist)⟩
    intro mem
    obtain ⟨x, hx, same⟩ := List.mem_map.mp mem
    simp only [List.mem_filter, decide_eq_true_eq] at hx
    exact hx.2 same

theorem mem_ids_distinct {events : List EntryEvent} {id : Uuid} :
    id ∈ (distinct events).map EntryEvent.id ↔ id ∈ events.map EntryEvent.id := by
  induction events with
  | nil => rfl
  | cons event events ih =>
    rw [distinct, List.map_cons, List.map_cons, List.mem_cons, List.mem_cons]
    by_cases same : id = event.id
    · simp [same]
    · have later : id ∈ ((distinct events).filter fun x => x.id ≠ event.id).map EntryEvent.id ↔
          id ∈ (distinct events).map EntryEvent.id := by
        simp only [List.mem_map, List.mem_filter, decide_eq_true_eq]
        constructor
        · rintro ⟨x, ⟨hx, -⟩, rfl⟩
          exact ⟨x, hx, rfl⟩
        · rintro ⟨x, hx, rfl⟩
          exact ⟨x, ⟨hx, same⟩, rfl⟩
      rw [later, ih]

theorem adoptOrMint_has {account : Uuid} {blankClears adopted : Bool} {player : EntryPlayer}
    (h : adoptOrMint p r account spec blankClears = .ok (r', player, adopted)) :
    r'.players.Has player.id := by
  unfold adoptOrMint at h
  simp only [bind_eq_ok] at h
  obtain ⟨representation, -, h⟩ := h
  split at h
  · simp only [bind_eq_ok, Registry.mint, found_eq_ok] at h
    obtain ⟨players, inserted, h⟩ := h
    cases h
    rw [Table.Has, (Table.insert_eq_some.mp inserted).2, List.map_append]
    exact List.mem_append_right _ List.mem_cons_self
  · cases h
    exact Table.has_put_iff.mpr (.inl rfl)

theorem meetPerson_ok {events : List EntryEvent}
    (h : meetPerson p r form spec = .ok (r', person, events)) :
    person.spec = spec ∧ Selects spec (events.map EntryEvent.id) ∧
      r'.players.Has person.player.id ∧ ∀ w ∈ r.changes r', ∃ x, w = .player x := by
  simp only [meetPerson, bind_eq_ok] at h
  obtain ⟨⟨r₁, player, adopted⟩, minted, _, -, selected, rows, h⟩ := h
  have has := adoptOrMint_has minted
  obtain ⟨players, drawn, rfl⟩ := adoptOrMint_tables minted
  cases h
  have ids : selected.map EntryEvent.id = spec.events := by
    clear minted has
    generalize spec.events = ids at rows
    induction ids generalizing selected with
    | nil =>
      cases rows
      rfl
    | cons id ids ih =>
      simp only [List.mapM_cons, bind_eq_ok] at rows
      obtain ⟨event, row, rest, others, rows⟩ := rows
      cases rows
      rw [List.map_cons, ih rest others, Table.key_of_get (found_eq_ok.mp row)]
  refine ⟨rfl, ⟨nodup_distinct _, fun id => ?_⟩, has, ?_⟩
  · rw [mem_ids_distinct, ids]
  · intro w hw
    simp only [Registry.changes, Table.changes_self, List.map_nil, List.nil_append,
      List.append_nil, List.mem_map] at hw
    obtain ⟨x, -, rfl⟩ := hw
    exact ⟨x, rfl⟩

theorem placeEntry_core {e' : Entry} {event : EntryEvent} {now : Instant}
    (h : placeEntry r e event now = .ok e') : e'.core = e.core := by
  unfold placeEntry at h
  split at h
  · simp only [transitionEntry, bind_eq_ok] at h
    obtain ⟨edge, -, h⟩ := h
    cases h
    rfl
  · cases h
    rfl

theorem insertEntry_ok {submission : Uuid} {event : EntryEvent} {share : Option Int} {now : Instant}
    (h : insertEntry p r form submission person event share now = .ok (r', e)) :
    e.core = ⟨e.id, some submission, some person.player.id, event.id⟩ ∧ ¬ r.entries.Has e.id ∧
      r.changes r' = [.entry e] := by
  simp only [insertEntry, Registry.mint, bind_eq_ok, found_eq_ok] at h
  obtain ⟨e', placed, entries, inserted, h⟩ := h
  cases h
  have core := placeEntry_core placed
  refine ⟨?_, (Table.insert_eq_some.mp inserted).1, ?_⟩
  · have id := congrArg Core.id core
    rw [core, Entry.core]
    simp only [Entry.core] at id
    rw [id]
  · simp [Registry.changes, Table.changes_insert inserted]

/-! ## Reasons and invitations -/

theorem mapReasons_cores (f : List String → List String) (id : Uuid) :
    cores (r.mapReasons f id) = cores r ∧ (r.mapReasons f id).submissions = r.submissions := by
  unfold Registry.mapReasons
  split
  · exact ⟨rfl, rfl⟩
  · next e found =>
    refine ⟨cores_put_same ?_, rfl⟩
    exact List.mem_map.mpr ⟨e, Table.mem_of_get found, rfl⟩

theorem flagConflict_cores (ids : List Uuid) :
    cores (flagConflict r ids) = cores r ∧ (flagConflict r ids).submissions = r.submissions := by
  induction ids generalizing r with
  | nil => exact ⟨rfl, rfl⟩
  | cons id ids ih =>
    have first := mapReasons_cores (r := r) (fun reasons => withReason reasons pairConflict) id
    have rest := ih (r := r.mapReasons (fun reasons => withReason reasons pairConflict) id)
    exact ⟨rest.1.trans first.1, rest.2.trans first.2⟩

theorem nominate_cores {id : Uuid} {email : String} {now : Instant} {token : Option String}
    (h : nominate p r id email now = .ok (r', token)) :
    cores r' = cores r ∧ r'.submissions = r.submissions := by
  unfold nominate at h
  split at h
  · cases h
    exact ⟨rfl, rfl⟩
  · simp only [bind_eq_ok, Registry.mint, Registry.insertInvitation] at h
    obtain ⟨_, -, r₁, ⟨_, -, invitations, -, inserted⟩, h⟩ := h
    cases inserted
    cases h
    exact mapReasons_cores (r := { r.revokeSent id with
      drawn := (r.revokeSent id).drawn + 1, invitations := invitations }) _ id

theorem nominateNamed_cores {event : EntryEvent} {now : Instant} {invites : List (Uuid × String)}
    (h : nominateNamed p r spec e event now = .ok (r', invites)) :
    cores r' = cores r ∧ r'.submissions = r.submissions := by
  unfold nominateNamed at h
  split at h
  · cases h
    exact ⟨rfl, rfl⟩
  · split at h
    · simp only [bind_eq_ok] at h
      obtain ⟨⟨r₁, token⟩, nominated, h⟩ := h
      have first := nominate_cores nominated
      split at h
      · cases h
        exact first
      · obtain ⟨rfl, -⟩ := Prod.mk.inj (Except.ok.inj h)
        rw [← first.1, ← first.2]
        split
        · exact ⟨rfl, rfl⟩
        · exact flagConflict_cores _
    · cases h
      exact ⟨rfl, rfl⟩

end

end Entries
