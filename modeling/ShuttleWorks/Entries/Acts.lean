import ShuttleWorks.Entries.Intake

/-! Whole acts keep the reasons truthful: a submission from its row to its last entry,
and an acceptance from the claim of the invitation to the joined pair. -/

namespace Entries
open Lib
open Sync (Uuid pyStrip)

variable {p : Platform} {r r' : Registry} {X Y : Uuid → Prop} {total : Option Int} {e : Entry}
  {c : String} {invites : List (Uuid × String)} {spec : PlayerInput}

/-! ## One entry -/

/-- The act under the id bills the total, and nothing is paid on it yet. -/
structure Billing (r : Registry) (submission : Uuid) (total : Option Int) : Prop where
  row : ∃ s, r.submissions.get submission = some s ∧ s.feeTotalCents = total
  unpaid : ∀ x ∈ r.payments.rows, x.submissionId ≠ submission

theorem Billing.extends {submission : Uuid} {created : List Uuid} (h : Billing r submission total)
    (ext : Extends r r' created) :
    Billing r' submission total where
  row := ext.submissions ▸ h.row
  unpaid := ext.payments ▸ h.unpaid

theorem Billing.owes {submission : Uuid} (h : Billing r submission total)
    (act : e.submissionId = some submission) :
    Owes r e ↔ ∃ n, total = some n ∧ 0 < n := by
  obtain ⟨s, found, rfl⟩ := h.row
  obtain rfl := Table.key_of_get found
  have nothing : r.paymentsOf s.id = [] := by
    rw [Registry.paymentsOf, List.filter_eq_nil_iff]
    intro x hx
    simpa using h.unpaid x hx
  have row : r.submissionOf e = some s := by
    rw [Registry.submissionOf, act, Option.bind_some, found]
  simp only [Owes, row, Option.some.injEq, exists_eq_left', Registry.outstandingCents,
    Registry.paidCents, nothing, List.map_nil, List.sum_nil, Int.sub_zero]
  cases s.feeTotalCents <;> simp

theorem mem_landingReasons {form : SubmissionForm} {person : Person} {event : EntryEvent} :
    c ∈ landingReasons p r form person event ↔
      c ∈ initialReasons form.feeTotalCents ∨ c ∈ genderFlags p person.spec.gender event ∨
      (c = needsReview ∧ LooksDuplicate p r event.id person.spec.fullName) ∨
      (c = needsReviewPerson ∧ person.flagged = true) ∨ (c = overCap ∧ AtCap r event) := by
  unfold landingReasons
  simp only [List.mem_append, or_assoc]
  refine or_congr Iff.rfl (or_congr Iff.rfl (or_congr ?_ (or_congr ?_ ?_)))
  · split <;> simp_all
  · split <;> simp_all
  · split <;> simp_all

theorem mem_initialReasons :
    c ∈ initialReasons total ↔ c = awaitingPayment ∧ ∃ n, total = some n ∧ 0 < n := by
  unfold initialReasons
  cases total with
  | none => simp
  | some n =>
    by_cases positive : 0 < n <;> simp [positive]

section Landing

variable {form : SubmissionForm} {person : Person} {event : EntryEvent}

theorem awaitingPayment_mem_landing : awaitingPayment ∈ landingReasons p r form person event ↔
    ∃ n, form.feeTotalCents = some n ∧ 0 < n := by
  rw [mem_landingReasons, mem_initialReasons]
  constructor
  · rintro (⟨-, owed⟩ | h | ⟨h, -⟩ | ⟨h, -⟩ | ⟨h, -⟩)
    · exact owed
    · exact absurd (mem_genderFlags h) (by decide)
    · exact absurd h (by decide)
    · exact absurd h (by decide)
    · exact absurd h (by decide)
  · exact fun owed => Or.inl ⟨rfl, owed⟩

theorem overCap_mem_landing : overCap ∈ landingReasons p r form person event ↔ AtCap r event := by
  rw [mem_landingReasons, mem_initialReasons]
  constructor
  · rintro (⟨h, -⟩ | h | ⟨h, -⟩ | ⟨h, -⟩ | ⟨-, full⟩)
    · exact absurd h (by decide)
    · exact absurd (mem_genderFlags h) (by decide)
    · exact absurd h (by decide)
    · exact absurd h (by decide)
    · exact full
  · exact fun full => Or.inr (Or.inr (Or.inr (Or.inr ⟨rfl, full⟩)))

theorem awaitingPartner_not_mem_landing :
    awaitingPartner ∉ landingReasons p r form person event := by
  rw [mem_landingReasons, mem_initialReasons]
  rintro (⟨h, -⟩ | h | ⟨h, -⟩ | ⟨h, -⟩ | ⟨h, -⟩)
  · exact absurd h (by decide)
  · exact absurd (mem_genderFlags h) (by decide)
  · exact absurd h (by decide)
  · exact absurd h (by decide)
  · exact absurd h (by decide)

end Landing

theorem placeEntry_ok {e' : Entry} {event : EntryEvent} {now : Instant}
    (landing : e.state ∈ [EntryState.pending, .unverified])
    (ok : placeEntry r e event now = .ok e') :
    e'.id = e.id ∧ e'.entryEventId = e.entryEventId ∧ e'.submissionId = e.submissionId ∧
      e'.pendingReasons = e.pendingReasons ∧ e'.state ∈ liveStates ∧
      (e'.state = .waitlisted ↔ AtCap r event) := by
  have lands : ∀ s ∈ [EntryState.pending, .unverified], s ∈ liveStates ∧ s ≠ .waitlisted := by
    decide
  unfold placeEntry at ok
  split at ok
  · next full =>
    obtain ⟨rfl, -⟩ := transitionEntry_target .waitlisted ok (by decide)
    have live : EntryState.waitlisted ∈ liveStates := by decide
    exact ⟨rfl, rfl, rfl, rfl, live, fun _ => full, fun _ => rfl⟩
  · next places =>
    cases ok
    obtain ⟨live, unqueued⟩ := lands e.state landing
    exact ⟨rfl, rfl, rfl, rfl, live, fun queued => absurd queued unqueued,
      fun full => absurd full places⟩

def Born (r : Registry) (selected : List Uuid) (id : Uuid) : Prop :=
  ∃ e ∈ r.entries.rows, e.id = id ∧ e.state ∈ liveStates ∧ e.entryEventId ∈ selected

theorem Born.extends {selected selected' created : List Uuid} {id : Uuid}
    (h : Born r selected id) (ext : Extends r r' created) (more : selected ⊆ selected') :
    Born r' selected' id := by
  obtain ⟨e, he, rfl, live, member⟩ := h
  obtain ⟨e', he', kept⟩ := ext.kept e he
  exact ⟨e', he', kept.id, kept.live.mpr live, kept.event ▸ more member⟩

/-- What the writes of an act leave: the reasons right up to the doubles entries that
name no partner, the new entries alive, and no invitation where nobody is named. -/
structure Written (p : Platform) (X Y : Uuid → Prop) (r r' : Registry) (created : List Uuid)
    (selected : List Uuid) (lacks quiet : Prop) : Prop where
  truthful : Truthful p (fun x => X x ∨ (x ∈ created ∧ lacks)) Y r'
  extended : Extends r r' created
  born : ∀ id ∈ created, Born r' selected id
  silent : quiet → r'.invitations = r.invitations

theorem writeEntry_written {form : SubmissionForm} {submission id : Uuid} {person : Person}
    {event : EntryEvent} {share : Option Int} {now : Instant} (h : Truthful p X Y r)
    (bill : Billing r submission form.feeTotalCents) (found : r.events.get event.id = some event)
    (landing : person.landing ∈ [EntryState.pending, .unverified])
    (ok : writeEntry p r form submission person event share now = .ok (r', id, invites)) :
    Written p X Y r r' [id] [event.id] (Unpartnered p person.spec event)
      (person.spec.partners = []) := by
  unfold writeEntry at ok
  simp only [bind_eq_ok, found_eq_ok, Registry.mint] at ok
  obtain ⟨e, placed, entries, inserted, ⟨r₁, invites₁⟩, nominated, ok⟩ := ok
  cases ok
  let drawn : Registry := { r with drawn := r.drawn + 1 }
  obtain ⟨-, onEvent, act, reasons, live, queued⟩ := placeEntry_ok landing placed
  obtain ⟨fresh, rows⟩ := Table.insert_eq_some.mp inserted
  have billed : ∃ s, drawn.submissionOf e = some s := by
    obtain ⟨s, row, -⟩ := bill.row
    exact ⟨s, by rw [Registry.submissionOf, act, Option.bind_some]; exact row⟩
  have fair : Fair drawn e := by
    have owes : Owes drawn e ↔ Owes r e := Iff.rfl
    constructor
    · rw [reasons, overCap_mem_landing]
      exact queued.symm
    · rw [reasons, awaitingPayment_mem_landing, owes, bill.owes act]
  have start : Truthful p X Y drawn := h.of_tables rfl rfl rfl rfl rfl
  have added := start.insert inserted billed fair
  have member : e ∈ entries.rows := by
    rw [rows]
    exact List.mem_append_right _ List.mem_cons_self
  have untouched : Untouched drawn e.id := untouched_of_fresh start.invited fresh
  obtain ⟨truthful, extended, silent⟩ := nominateNamed_spec added member untouched
    (onEvent ▸ found) (reasons ▸ awaitingPartner_not_mem_landing) nominated
  have grown : Extends r { drawn with entries := entries } [e.id] := by
    refine ⟨rfl, rfl, rfl, ?_, fun x hx => ⟨x, ?_, Kept.refl x⟩⟩
    · show entries.rows.map Entry.id = _
      rw [rows, List.map_append]
      rfl
    · show x ∈ entries.rows
      rw [rows]
      exact List.mem_append_left _ hx
  refine ⟨truthful.mono (fun _ hx => hx.imp_right (And.imp_left (fun same => by simp [same])))
    (fun _ hx => hx), grown.trans extended, ?_, fun empty => ?_⟩
  · intro x hx
    obtain rfl := List.mem_singleton.mp hx
    have born : Born { drawn with entries := entries } [event.id] e.id :=
      ⟨e, member, rfl, live, by simp [onEvent]⟩
    exact born.extends extended (List.Subset.refl _)
  · rw [silent empty]

/-! ## The entries of an act -/

namespace Written

variable {r'' : Registry} {created created' selected selected' : List Uuid}
  {lacks lacks' quiet quiet' : Prop}

theorem start (ext : Extends r r' []) (same : Truthful p X Y r')
    (silent : r'.invitations = r.invitations) :
    Written p X Y r r' [] selected lacks quiet where
  truthful := same.mono (fun _ => Or.inl) (fun _ hx => hx)
  extended := ext
  born _ member := absurd member List.not_mem_nil
  silent _ := silent

theorem append (h : Written p X Y r r' created selected lacks quiet)
    (h' : Written p (fun x => X x ∨ (x ∈ created ∧ lacks)) Y r' r'' created' selected lacks quiet) :
    Written p X Y r r'' (created ++ created') selected lacks quiet where
  truthful := h'.truthful.mono (fun x hx => by
    rw [List.mem_append]
    tauto) (fun _ hx => hx)
  extended := h.extended.trans h'.extended
  born id member := by
    rcases List.mem_append.mp member with member | member
    · exact (h.born id member).extends h'.extended (List.Subset.refl _)
    · exact h'.born id member
  silent quiet := (h'.silent quiet).trans (h.silent quiet)

theorem weaken (h : Written p X Y r r' created selected lacks quiet)
    (more : selected ⊆ selected') (lack : lacks → lacks') (still : quiet' → quiet) :
    Written p X Y r r' created selected' lacks' quiet' where
  truthful := h.truthful.mono (fun _ hx => hx.imp_right (And.imp_right lack)) (fun _ hx => hx)
  extended := h.extended
  born id member := (h.born id member).extends (Extends.refl r') more
  silent q := h.silent (still q)

end Written

def LacksPartner (p : Platform) (spec : PlayerInput) (events : List EntryEvent) : Prop :=
  ∃ event ∈ events, Unpartnered p spec event

theorem writeEntries_written {form : SubmissionForm} {submission : Uuid} {person : Person}
    {now : Instant} {events : List EntryEvent} {l : List (Option Int × EntryEvent)}
    {created : List Uuid} (h : Truthful p X Y r) (bill : Billing r submission form.feeTotalCents)
    (rows : ∀ x ∈ l, r.events.get x.2.id = some x.2 ∧ x.2 ∈ events)
    (landing : person.landing ∈ [EntryState.pending, .unverified])
    (ok : writeEntries p form submission person now r l = .ok (r', created, invites)) :
    Written p X Y r r' created (events.map EntryEvent.id) (LacksPartner p person.spec events)
      (person.spec.partners = []) ∧ created.length = l.length := by
  induction l generalizing r X created invites with
  | nil =>
    cases ok
    exact ⟨.start (Extends.refl _) h rfl, rfl⟩
  | cons x l ih =>
    obtain ⟨share, event⟩ := x
    simp only [writeEntries, bind_eq_ok] at ok
    obtain ⟨⟨r₁, id, first⟩, written, ⟨r₂, ids, rest⟩, others, ok⟩ := ok
    cases ok
    obtain ⟨row, member⟩ := rows (share, event) List.mem_cons_self
    have one : Written p X Y r r₁ [id] (events.map EntryEvent.id)
        (LacksPartner p person.spec events) (person.spec.partners = []) :=
      (writeEntry_written h bill row landing written).weaken
        (by simpa using ⟨event, member, rfl⟩) (fun lacks => ⟨event, member, lacks⟩)
        (fun quiet => quiet)
    have rows' : ∀ x ∈ l, r₁.events.get x.2.id = some x.2 ∧ x.2 ∈ events := by
      intro x hx
      rw [one.extended.events]
      exact rows x (List.mem_cons_of_mem _ hx)
    obtain ⟨more, length⟩ := ih one.truthful (bill.extends one.extended) rows' others
    exact ⟨one.append more, by simp [length]⟩

theorem adoptOrMint_tables {account : Uuid} {blankClears adopted : Bool} {player : EntryPlayer}
    (ok : adoptOrMint p r account spec blankClears = .ok (r', player, adopted)) :
    ∃ players drawn, r' = { r with players := players, drawn := drawn } := by
  unfold adoptOrMint at ok
  simp only [bind_eq_ok] at ok
  obtain ⟨representation, -, ok⟩ := ok
  split at ok
  · simp only [bind_eq_ok, Registry.mint] at ok
    obtain ⟨players, -, ok⟩ := ok
    cases ok
    exact ⟨_, _, rfl⟩
  · cases ok
    exact ⟨_, r.drawn, rfl⟩

theorem mem_distinct_rows {ids : List Uuid} {events : List EntryEvent}
    (found : ids.mapM (fun id => found (r.events.get id) (.integrity "entries.event")) = .ok events) :
    ∀ event ∈ distinct events, r.events.get event.id = some event ∧ event.id ∈ ids := by
  intro event member
  obtain ⟨id, hid, row⟩ := mapM_mem found event (mem_of_mem_distinct member)
  have row := found_eq_ok.mp row
  obtain rfl := Table.key_of_get row
  exact ⟨row, hid⟩

/-- A selection of the spec that lacks its partner, by the rows of the events. -/
def SpecLacks (p : Platform) (r : Registry) (spec : PlayerInput) : Prop :=
  ∃ id ∈ spec.events, ∃ event, r.events.get id = some event ∧ Unpartnered p spec event

theorem writePerson_written {form : SubmissionForm} {submission : Uuid} {priced : Option Int}
    {now : Instant} {created : List Uuid} (h : Truthful p X Y r)
    (bill : Billing r submission form.feeTotalCents)
    (ok : writePerson p r form submission priced spec now = .ok (r', created, invites)) :
    Written p X Y r r' created spec.events (SpecLacks p r spec) (spec.partners = []) ∧
      (∀ id, spec.events = [id] → created.length ≤ 1) := by
  unfold writePerson at ok
  simp only [bind_eq_ok] at ok
  obtain ⟨⟨r₁, player, adopted⟩, minted, _, -, selected, rows, ok⟩ := ok
  obtain ⟨players, drawn, rfl⟩ := adoptOrMint_tables minted
  set r₁ : Registry := { r with players := players, drawn := drawn }
  have same : Truthful p X Y r₁ := h.of_tables rfl rfl rfl rfl rfl
  have grown : Extends r r₁ [] := .of_tables rfl rfl rfl rfl
  have known := mem_distinct_rows rows
  have landing : landingState form.emailVerified ∈ [EntryState.pending, .unverified] := by
    cases form.emailVerified <;> decide
  have rows' : ∀ x ∈ (split priced (distinct selected).length).zip (distinct selected),
      r₁.events.get x.2.id = some x.2 ∧ x.2 ∈ distinct selected := fun x hx =>
    ⟨(known x.2 (List.of_mem_zip hx).2).1, (List.of_mem_zip hx).2⟩
  obtain ⟨written, length⟩ := writeEntries_written same (bill.extends grown) rows' landing ok
  have all : Written p X Y r₁ r' created spec.events (SpecLacks p r spec)
      (spec.partners = []) := by
    refine written.weaken (fun id hid => ?_) ?_ (fun quiet => quiet)
    · obtain ⟨event, member, rfl⟩ := List.mem_map.mp hid
      exact (known event member).2
    · rintro ⟨event, member, lacks⟩
      exact ⟨event.id, (known event member).2, event, (known event member).1, lacks⟩
  have start : Written p X Y r r₁ [] spec.events (SpecLacks p r spec) (spec.partners = []) :=
    .start grown same rfl
  refine ⟨?_, fun id single => ?_⟩
  · have whole : Written p X Y r r' ([] ++ created) spec.events (SpecLacks p r spec)
        (spec.partners = []) := start.append { all with
      truthful := all.truthful.mono (fun _ hx => hx.imp_left Or.inl) (fun _ hx => hx) }
    simpa using whole
  · rw [single] at rows
    simp only [List.mapM_cons, List.mapM_nil, bind_eq_ok] at rows
    obtain ⟨event, -, _, rest, rows⟩ := rows
    cases rest
    cases rows
    rw [length]
    simp [distinct]

theorem SpecLacks.extends {created : List Uuid} (ext : Extends r r' created)
    (h : SpecLacks p r' spec) : SpecLacks p r spec := by
  obtain ⟨id, hid, event, row, lacks⟩ := h
  exact ⟨id, hid, event, ext.events ▸ row, lacks⟩

theorem writePlayers_written {form : SubmissionForm} {submission : Uuid} {now : Instant}
    {specs : List PlayerInput} {l : List (PlayerInput × Option Int)} {created : List Uuid}
    (h : Truthful p X Y r) (bill : Billing r submission form.feeTotalCents)
    (among : ∀ x ∈ l, x.1 ∈ specs)
    (ok : writePlayers p form submission now r l = .ok (r', created, invites)) :
    Written p X Y r r' created (specs.flatMap PlayerInput.events)
      (∃ spec ∈ specs, SpecLacks p r spec) (∀ spec ∈ specs, spec.partners = []) := by
  induction l generalizing r X created invites with
  | nil =>
    cases ok
    exact .start (Extends.refl _) h rfl
  | cons x l ih =>
    obtain ⟨spec, priced⟩ := x
    simp only [writePlayers, bind_eq_ok] at ok
    obtain ⟨⟨r₁, ids, first⟩, written, ⟨r₂, ids', rest⟩, others, ok⟩ := ok
    cases ok
    have member : spec ∈ specs := among (spec, priced) List.mem_cons_self
    have one : Written p X Y r r₁ ids (specs.flatMap PlayerInput.events)
        (∃ spec ∈ specs, SpecLacks p r spec) (∀ spec ∈ specs, spec.partners = []) :=
      (writePerson_written h bill written).1.weaken
        (fun id hid => List.mem_flatMap.mpr ⟨spec, member, hid⟩)
        (fun lacks => ⟨spec, member, lacks⟩) (fun quiet => quiet spec member)
    have more := ih one.truthful (bill.extends one.extended)
      (fun x hx => among x (List.mem_cons_of_mem _ hx)) others
    refine one.append (more.weaken (List.Subset.refl _) ?_ (fun quiet => quiet))
    rintro ⟨spec, hspec, lacks⟩
    exact ⟨spec, hspec, lacks.extends one.extended⟩

theorem mem_perPlayerFee {form : SubmissionForm} {x : PlayerInput × Option Int}
    (h : x ∈ perPlayerFee form) : x.1 ∈ form.players := by
  unfold perPlayerFee at h
  obtain ⟨i, hi, rfl⟩ := List.mem_mapIdx.mp h
  exact List.getElem_mem hi

/-! ## Whole acts -/

theorem Truthful.submit {s : Submission} {submissions : Table Submission.id} {d : Nat}
    (h : Truthful p X Y r) (inserted : r.submissions.insert s = some submissions) :
    Truthful p X Y { r with submissions := submissions, drawn := d } ∧
      Billing { r with submissions := submissions, drawn := d } s.id s.feeTotalCents := by
  obtain ⟨fresh, rows⟩ := Table.insert_eq_some.mp inserted
  have keeps : ∀ e s', r.submissionOf e = some s' →
      ({ r with submissions := submissions, drawn := d } : Registry).submissionOf e =
        some s' := by
    intro e s' found
    obtain ⟨id, act, row⟩ := Option.bind_eq_some_iff.mp found
    rw [Registry.submissionOf, act, Option.bind_some]
    exact Table.get_of_rows_append rows row
  refine ⟨⟨⟨h.invited.single, h.invited.inviting, h.invited.open_iff, h.invited.accepted,
    h.invited.silent, h.invited.once⟩, ?_, ?_, h.waits, ?_⟩, ⟨s, ?_, rfl⟩, ?_⟩
  · intro e he
    obtain ⟨s', found⟩ := h.billed e he
    exact ⟨s', keeps e s' found⟩
  · intro x hx
    obtain ⟨s', hs', same⟩ := Table.has_iff.mp (h.paid x hx)
    refine Table.has_iff.mpr ⟨s', ?_, same⟩
    rw [rows]
    exact List.mem_append_left _ hs'
  · intro e he live out
    have fair := h.fair e he live out
    obtain ⟨s', found⟩ := h.billed e he
    refine ⟨fair.cap, fair.payment.trans ?_⟩
    simp only [Owes, found, keeps e s' found]
    exact Iff.rfl
  · refine Table.get_eq_some_iff.mpr ⟨?_, rfl⟩
    rw [rows]
    exact List.mem_append_right _ List.mem_cons_self
  · intro x hx same
    exact fresh (same ▸ h.paid x hx)

def FormLacks (p : Platform) (r : Registry) (form : SubmissionForm) : Prop :=
  ∃ spec ∈ form.players, SpecLacks p r spec

theorem writeSubmission_written {form : SubmissionForm} {now : Instant}
    {result : SubmissionResult} (h : Truthful p X Y r)
    (ok : writeSubmission p r form now = .ok (r', result)) :
    Truthful p (fun x => X x ∨ (x ∈ result.entries ∧ FormLacks p r form)) Y r' ∧
      r'.events = r.events ∧
      r'.entries.rows.map Entry.id = r.entries.rows.map Entry.id ++ result.entries ∧
      (∀ e ∈ r.entries.rows, ∃ e' ∈ r'.entries.rows, Kept e e') ∧
      (∀ id ∈ result.entries, Born r' (form.players.flatMap PlayerInput.events) id) ∧
      ((∀ spec ∈ form.players, spec.partners = []) → r'.invitations = r.invitations) := by
  unfold writeSubmission at ok
  simp only [bind_eq_ok, found_eq_ok, Registry.mint] at ok
  obtain ⟨page, -, _, -, submissions, inserted, ⟨r₁, created, invites⟩, written, ok⟩ := ok
  cases ok
  obtain ⟨started, bill⟩ := h.submit (d := r.drawn + 1) inserted
  have all := writePlayers_written started bill (fun x hx => mem_perPlayerFee hx) written
  exact ⟨all.truthful, all.extended.events, all.extended.ids, all.extended.kept, all.born,
    all.silent⟩

/-- **Recording an act keeps the reasons truthful where it names the partners it needs.** -/
theorem createSubmission_truthful {form : SubmissionForm} {now : Instant}
    {result : SubmissionResult} (h : Truthful p nobody nobody r)
    (names : (replay r form.idempotencyKey form.accountId).isSome ∨ ¬ FormLacks p r form)
    (ok : createSubmission p r form now = .ok (r', result)) : Truthful p nobody nobody r' := by
  unfold createSubmission at ok
  split at ok
  · cases ok
    exact h
  · next unknown =>
    have complete : ¬ FormLacks p r form := by
      rcases names with known | complete
      · rw [unknown] at known
        cases known
      · exact complete
    split at ok
    · cases ok
    · have written := (writeSubmission_written h ok).1
      exact written.mono (fun _ hx => hx.elim id (fun new => complete new.2)) (fun _ hx => hx)

theorem writeSubmission_single {form : SubmissionForm} {event : Uuid} {now : Instant}
    {result : SubmissionResult} (one : form.players = [spec]) (single : spec.events = [event])
    (h : Truthful p X Y r) (ok : writeSubmission p r form now = .ok (r', result)) :
    result.entries.length ≤ 1 := by
  unfold writeSubmission at ok
  simp only [bind_eq_ok, found_eq_ok, Registry.mint] at ok
  obtain ⟨page, -, _, -, submissions, inserted, ⟨r₁, created, invites⟩, written, ok⟩ := ok
  cases ok
  obtain ⟨started, bill⟩ := h.submit (d := r.drawn + 1) inserted
  have fees : ∃ priced, perPlayerFee form = [(spec, priced)] := by
    unfold perPlayerFee
    rw [one]
    exact ⟨_, rfl⟩
  obtain ⟨priced, fees⟩ := fees
  rw [fees] at written
  simp only [writePlayers, bind_eq_ok] at written
  obtain ⟨⟨r₂, ids, first⟩, person, _, rest, written⟩ := written
  cases rest
  cases written
  rw [List.append_nil]
  exact (writePerson_written started bill person).2 event single

end Entries
