import ShuttleWorks.Entries.Acceptance

/-! The rule for what intake does to the entries. A submission and an acceptance write reasons over
entries that are there and place new entries, one after the other; what both do to an entry, whole
acts do to all of them. -/

namespace Entries
open Lib
open Sync (Uuid)

variable {p : Platform} {r r' : Registry} {R : Registry → Registry → Prop}
  {invites : List (Uuid × String)} {spec : PlayerInput}

/-! ## Reasons added -/

/-- A relation that the writes of reasons over entries and all other writes but new entries are
in, as long as no reason is taken away. -/
structure FlushRule (R : Registry → Registry → Prop) : Prop where
  refl : ∀ r, R r r
  trans : ∀ {r r' r''}, R r r' → R r' r'' → R r r''
  tables : ∀ {r r'}, r'.entries = r.entries → r'.events = r.events → R r r'
  added : ∀ {r : Registry} {e : Entry} {codes : List String}, r.entries.get e.id = some e →
    e.pendingReasons ⊆ codes → R r (r.putEntry { e with pendingReasons := codes })

namespace FlushRule

theorem mapReasons (rule : FlushRule R) {f : List String → List String}
    (more : ∀ reasons, reasons ⊆ f reasons) (id : Uuid) : R r (r.mapReasons f id) := by
  unfold Registry.mapReasons
  split
  · exact rule.refl r
  · next e found =>
    obtain rfl := Table.key_of_get found
    exact rule.added found (more e.pendingReasons)

theorem withReason_more (c : String) (reasons : List String) : reasons ⊆ withReason reasons c :=
  fun _ mem => mem_withReason.mpr (.inl mem)

theorem flagConflict (rule : FlushRule R) (ids : List Uuid) : R r (flagConflict r ids) := by
  induction ids generalizing r with
  | nil => exact rule.refl r
  | cons id ids ih =>
    have first := rule.mapReasons (r := r) (withReason_more pairConflict) id
    exact rule.trans first ih

theorem nominate (rule : FlushRule R) {id : Uuid} {email : String} {now : Instant}
    {token : Option String} (ok : nominate p r id email now = .ok (r', token)) : R r r' := by
  unfold Entries.nominate at ok
  split at ok
  · cases ok
    exact rule.refl r
  · simp only [bind_eq_ok, Registry.mint] at ok
    obtain ⟨_, -, r₁, inserted, ok⟩ := ok
    cases ok
    obtain ⟨entries, events, -⟩ := insertInvitation_rows inserted
    exact rule.trans (rule.tables entries events)
      (rule.mapReasons (withReason_more awaitingPartner) _)

theorem nominateNamed (rule : FlushRule R) {e : Entry} {event : EntryEvent} {now : Instant}
    (ok : nominateNamed p r spec e event now = .ok (r', invites)) : R r r' := by
  unfold Entries.nominateNamed at ok
  split at ok
  · cases ok
    exact rule.refl r
  · split at ok
    · simp only [bind_eq_ok] at ok
      obtain ⟨⟨r₁, token⟩, nominated, ok⟩ := ok
      have first := rule.nominate nominated
      cases token with
      | none =>
        cases ok
        exact first
      | some token =>
        obtain ⟨rfl, -⟩ := Prod.mk.inj (Except.ok.inj ok)
        refine rule.trans first ?_
        split
        · exact rule.refl _
        · exact rule.flagConflict _
    · cases ok
      exact rule.refl r

end FlushRule

/-! ## Intake -/

/-- A relation that the single writes of an act are in. -/
structure IntakeRule (R : Registry → Registry → Prop) : Prop where
  refl : ∀ r, R r r
  trans : ∀ {r r' r''}, R r r' → R r' r'' → R r r''
  events : ∀ {r r'}, R r r' → r'.events = r.events
  tables : ∀ {r r'}, r'.entries = r.entries → r'.events = r.events → R r r'
  reasons : ∀ {r : Registry} {e : Entry} (codes : List String), r.entries.get e.id = some e →
    R r (r.putEntry { e with pendingReasons := codes })
  placed : ∀ {r : Registry} {e e' : Entry} {event : EntryEvent} {now : Instant}
    {entries : Table Entry.id}, r.events.get event.id = some event → e.entryEventId = event.id →
    e.state ∈ [EntryState.pending, .unverified] → placeEntry r e event now = .ok e' →
    r.entries.insert e' = some entries → R r { r with entries := entries }

namespace IntakeRule

theorem flush (rule : IntakeRule R) : FlushRule R where
  refl := rule.refl
  trans := rule.trans
  tables := rule.tables
  added found _ := rule.reasons _ found

theorem mapReasons (rule : IntakeRule R) (f : List String → List String) (id : Uuid) :
    R r (r.mapReasons f id) := by
  unfold Registry.mapReasons
  split
  · exact rule.refl r
  · next e found =>
    obtain rfl := Table.key_of_get found
    exact rule.reasons _ found

variable {form : SubmissionForm} {person : Person} {created : List Uuid}

theorem writeEntry (rule : IntakeRule R) {submission id : Uuid} {event : EntryEvent}
    {share : Option Int} {now : Instant} (found : r.events.get event.id = some event)
    (landing : person.landing ∈ [EntryState.pending, .unverified])
    (ok : writeEntry p r form submission person event share now = .ok (r', id, invites)) :
    R r r' := by
  unfold Entries.writeEntry at ok
  simp only [bind_eq_ok, found_eq_ok, Registry.mint] at ok
  obtain ⟨e, placed, entries, inserted, ⟨r₁, invites₁⟩, nominated, ok⟩ := ok
  cases ok
  let drawn : Registry := { r with drawn := r.drawn + 1 }
  have start : R r drawn := rule.tables rfl rfl
  have added : R drawn { drawn with entries := entries } :=
    rule.placed found rfl landing placed inserted
  exact rule.trans (rule.trans start added) (rule.flush.nominateNamed nominated)

theorem writeEntries (rule : IntakeRule R) {submission : Uuid} {now : Instant}
    {l : List (Option Int × EntryEvent)} (rows : ∀ x ∈ l, r.events.get x.2.id = some x.2)
    (landing : person.landing ∈ [EntryState.pending, .unverified])
    (ok : writeEntries p form submission person now r l = .ok (r', created, invites)) :
    R r r' := by
  induction l generalizing r created invites with
  | nil =>
    cases ok
    exact rule.refl _
  | cons x l ih =>
    obtain ⟨share, event⟩ := x
    simp only [Entries.writeEntries, bind_eq_ok] at ok
    obtain ⟨⟨r₁, id, first⟩, written, ⟨r₂, ids, rest⟩, others, ok⟩ := ok
    cases ok
    have one : R r r₁ := rule.writeEntry (rows (share, event) List.mem_cons_self) landing written
    refine rule.trans one (ih (fun x hx => ?_) others)
    rw [rule.events one]
    exact rows x (List.mem_cons_of_mem _ hx)

theorem writePerson (rule : IntakeRule R) {submission : Uuid} {priced : Option Int} {now : Instant}
    (ok : writePerson p r form submission priced spec now = .ok (r', created, invites)) :
    R r r' := by
  unfold Entries.writePerson at ok
  simp only [bind_eq_ok] at ok
  obtain ⟨⟨r₁, player, adopted⟩, minted, _, -, selected, rows, ok⟩ := ok
  obtain ⟨players, drawn, rfl⟩ := adoptOrMint_tables minted
  have landing : landingState form.emailVerified ∈ [EntryState.pending, .unverified] := by
    cases form.emailVerified <;> decide
  have known := mem_distinct_rows rows
  have met : R r { r with players := players, drawn := drawn } := rule.tables rfl rfl
  exact rule.trans met
    (rule.writeEntries (fun x hx => (known x.2 (List.of_mem_zip hx).2).1) landing ok)

theorem writePlayers (rule : IntakeRule R) {submission : Uuid} {now : Instant}
    {l : List (PlayerInput × Option Int)}
    (ok : writePlayers p form submission now r l = .ok (r', created, invites)) : R r r' := by
  induction l generalizing r created invites with
  | nil =>
    cases ok
    exact rule.refl _
  | cons x l ih =>
    obtain ⟨spec, priced⟩ := x
    simp only [Entries.writePlayers, bind_eq_ok] at ok
    obtain ⟨⟨r₁, ids, first⟩, written, ⟨r₂, ids', rest⟩, others, ok⟩ := ok
    cases ok
    exact rule.trans (rule.writePerson written) (ih others)

/-- **A submission.** -/
theorem createSubmission (rule : IntakeRule R) {now : Instant} {result : SubmissionResult}
    (ok : createSubmission p r form now = .ok (r', result)) :
    R r r' := by
  have written : ∀ {r' result}, writeSubmission p r form now = .ok (r', result) → R r r' := by
    intro r' result ok
    unfold writeSubmission at ok
    simp only [bind_eq_ok, found_eq_ok, Registry.mint] at ok
    obtain ⟨page, -, _, -, submissions, -, ⟨r₁, created, invites⟩, players, ok⟩ := ok
    cases ok
    have started : R r { r with submissions := submissions, drawn := r.drawn + 1 } :=
      rule.tables rfl rfl
    exact rule.trans started (rule.writePlayers players)
  unfold Entries.createSubmission at ok
  split at ok
  · cases ok
    exact rule.refl r
  · split at ok
    · split at ok
      · cases ok
        exact rule.refl r
      · cases ok
    · exact written ok

theorem link (rule : IntakeRule R) {i : PartnerInvitation} {entry partner : Uuid}
    {now : Instant} : R r (link r i entry partner now) := by
  unfold Entries.link
  refine rule.trans ?_ (rule.mapReasons _ _)
  refine rule.trans ?_ (rule.mapReasons _ _)
  exact rule.tables rfl rfl

/-- **An acceptance.** -/
theorem accept (rule : IntakeRule R) {id half : Uuid} {a : Acceptance} {now : Instant}
    (ok : accept p r id a now = .ok (r', half)) : R r r' := by
  unfold Entries.accept at ok
  simp only [bind_eq_ok, found_eq_ok, require_eq_ok] at ok
  obtain ⟨entry, -, i, last, -, -, r₁, claimed, page, -, event, -, -, -, -, -, ok⟩ := ok
  obtain ⟨_, -, -, -, ⟨r₂, result⟩, created, partner, -, row', -, entry', -, ok⟩ := ok
  obtain ⟨rfl, -⟩ := Prod.mk.inj (Except.ok.inj ok)
  obtain ⟨-, rfl⟩ := claim_spec (mem_of_invitation last) claimed
  have spend : R r { r with invitations := r.invitations.put (spent i) } := rule.tables rfl rfl
  have linked : R r (Entries.link r₂ row' entry.id partner now) :=
    rule.trans (rule.trans spend (rule.createSubmission created)) rule.link
  split
  · exact linked
  · exact rule.trans linked (rule.flush.flagConflict _)

end IntakeRule

end Entries
