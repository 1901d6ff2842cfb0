import ShuttleWorks.Entries.Transitions

/-! Recording an act keeps the reasons truthful, up to the doubles entries it leaves
without a partner's address; accepting an invitation keeps them truthful throughout,
because the half it records is joined at once. -/

namespace Entries
open Lib
open Sync (Uuid pyStrip)

variable {p : Platform} {r r' : Registry} {X Y : Uuid → Prop} {e : Entry} {reasons : List String}
  {c d : String} {i : PartnerInvitation} {email : String} {token : Option String}
  {spec : PlayerInput}

/-! ## What a write adds -/

/-- The registry with entries of the given ids added, and its other books as they were. -/
structure Extends (r r' : Registry) (created : List Uuid) : Prop where
  events : r'.events = r.events
  submissions : r'.submissions = r.submissions
  payments : r'.payments = r.payments
  ids : r'.entries.rows.map Entry.id = r.entries.rows.map Entry.id ++ created
  kept : ∀ e ∈ r.entries.rows, ∃ e' ∈ r'.entries.rows, Kept e e'

theorem Kept.trans {e' e'' : Entry} (h : Kept e e') (h' : Kept e' e'') : Kept e e'' :=
  ⟨h'.id.trans h.id, h'.event.trans h.event, h'.submission.trans h.submission,
    h'.live.trans h.live⟩

namespace Extends

theorem of_tables (events : r'.events = r.events) (submissions : r'.submissions = r.submissions)
    (payments : r'.payments = r.payments) (entries : r'.entries = r.entries) :
    Extends r r' [] where
  events := events
  submissions := submissions
  payments := payments
  ids := by rw [entries, List.append_nil]
  kept e he := ⟨e, entries.symm ▸ he, Kept.refl e⟩

theorem refl (r : Registry) : Extends r r [] := of_tables rfl rfl rfl rfl

theorem trans {r'' : Registry} {created created' : List Uuid} (h : Extends r r' created)
    (h' : Extends r' r'' created') : Extends r r'' (created ++ created') where
  events := h'.events.trans h.events
  submissions := h'.submissions.trans h.submissions
  payments := h'.payments.trans h.payments
  ids := by rw [h'.ids, h.ids, List.append_assoc]
  kept e he := by
    obtain ⟨e', he', kept⟩ := h.kept e he
    obtain ⟨e'', he'', kept'⟩ := h'.kept e' he'
    exact ⟨e'', he'', kept.trans kept'⟩

end Extends

theorem ids_putEntry (h : r.entries.Has e.id) :
    (r.putEntry e).entries.rows.map Entry.id = r.entries.rows.map Entry.id := by
  unfold Registry.putEntry
  rw [Table.rows_put_of_has h, List.map_map]
  refine List.map_congr_left (fun x _ => ?_)
  by_cases same : x.id = e.id <;> simp [same]

theorem has_of_mem (he : e ∈ r.entries.rows) : r.entries.Has e.id :=
  Table.has_iff.mpr ⟨e, he, rfl⟩

theorem mapReasons_extends (f : List String → List String) (id : Uuid) :
    Extends r (r.mapReasons f id) [] ∧ (r.mapReasons f id).invitations = r.invitations := by
  unfold Registry.mapReasons
  split
  · exact ⟨Extends.refl r, rfl⟩
  · next e found =>
    obtain ⟨he, rfl⟩ := Table.get_eq_some_iff.mp found
    have has : r.entries.Has e.id := has_of_mem he
    let e' : Entry := { e with pendingReasons := f e.pendingReasons }
    have w : Rewritten r (r.putEntry e') := .put he ⟨rfl, rfl, rfl, Iff.rfl⟩
    refine ⟨⟨rfl, rfl, rfl, ?_, w.new⟩, rfl⟩
    rw [List.append_nil]
    exact ids_putEntry (e := e') has

/-! ## Reasons rewritten -/

theorem Truthful.mapCodes {f : List String → List String} {id : Uuid} (h : Truthful p X Y r)
    (codes : ∀ reasons, ∀ c ∈ derivedCodes, c ∈ f reasons ↔ c ∈ reasons) :
    Truthful p X Y (r.mapReasons f id) := by
  unfold Registry.mapReasons
  split
  · exact h
  · next e found => exact h.put_codes (Table.mem_of_get found) (codes e.pendingReasons)

theorem mem_withReason :
    c ∈ withReason reasons d ↔ c ∈ reasons ∨ c = d := by
  unfold withReason
  split
  · next inside =>
    exact ⟨Or.inl, fun h => h.elim id (fun same => same ▸ inside)⟩
  · simp

theorem mem_withoutReason :
    c ∈ withoutReason reasons d ↔ c ∈ reasons ∧ c ≠ d := by
  simp [withoutReason]

theorem flagConflict_truthful {ids : List Uuid} (h : Truthful p X Y r) :
    Truthful p X Y (flagConflict r ids) := by
  induction ids generalizing r with
  | nil => exact h
  | cons id ids ih =>
    refine ih (h.mapCodes (fun reasons c hc => ?_))
    have other : c ≠ pairConflict := by
      rintro rfl
      exact absurd hc (by decide)
    rw [mem_withReason]
    exact ⟨fun h => h.resolve_right other, Or.inl⟩

theorem flagConflict_extends (ids : List Uuid) :
    Extends r (flagConflict r ids) [] ∧ (flagConflict r ids).invitations = r.invitations := by
  induction ids generalizing r with
  | nil => exact ⟨Extends.refl r, rfl⟩
  | cons id ids ih =>
    obtain ⟨first, same⟩ := mapReasons_extends (r := r)
      (fun reasons => withReason reasons pairConflict) id
    obtain ⟨rest, same'⟩ := ih (r := r.mapReasons (fun reasons => withReason reasons pairConflict) id)
    exact ⟨first.trans rest, same'.trans same⟩

/-! ## A fresh entry -/

theorem joined_entries {q q' : Uuid} (h : Invited p r) (joined : Joined r q q') :
    r.entries.Has q' := by
  obtain ⟨i, hi, -, ⟨-, theirs⟩ | ⟨theirs, -⟩⟩ := joined
  · obtain ⟨x, hx, rfl, -⟩ := h.accepted i hi _ theirs
    exact has_of_mem hx
  · obtain ⟨x, hx, same, -⟩ := h.inviting i hi
    exact same.trans theirs ▸ has_of_mem hx

theorem Truthful.insert {entries : Table Entry.id} (h : Truthful p X Y r)
    (inserted : r.entries.insert e = some entries) (billed : ∃ s, r.submissionOf e = some s)
    (fair : Fair r e) :
    Truthful p (fun x => X x ∨ x = e.id) Y { r with entries := entries } := by
  obtain ⟨fresh, rows⟩ := Table.insert_eq_some.mp inserted
  have mem : ∀ {x}, x ∈ entries.rows ↔ x ∈ r.entries.rows ∨ x = e := by
    intro x
    simp [rows]
  have doublesEntry : ∀ q, DoublesEntry p r q → DoublesEntry p { r with entries := entries } q := by
    rintro q ⟨x, hx, same, doubles⟩
    exact ⟨x, mem.mpr (Or.inl hx), same, doubles⟩
  refine ⟨?_, ?_, h.paid, ?_, ?_⟩
  · exact { h.invited with
      inviting := fun i hi => doublesEntry _ (h.invited.inviting i hi)
      accepted := fun i hi q hq => doublesEntry q (h.invited.accepted i hi q hq) }
  · intro x hx
    rcases mem.mp hx with hx | rfl
    · exact h.billed x hx
    · exact billed
  · intro x hx live out
    obtain ⟨outX, other⟩ := not_or.mp out
    have hx : x ∈ r.entries.rows := (mem.mp hx).resolve_right (fun same => other (same ▸ rfl))
    have same : HasPartner { r with entries := entries } x.id ↔ HasPartner r x.id := by
      refine exists_congr (fun q => and_congr_right (fun joined => ?_))
      have old := joined_entries h.invited joined
      rw [liveEntry_iff, liveEntry_iff]
      refine exists_congr (fun y => and_congr_left (fun ⟨same, _⟩ => ?_))
      refine mem.trans ⟨fun hy => hy.resolve_right ?_, Or.inl⟩
      rintro rfl
      exact fresh (same ▸ old)
    unfold Waits
    rw [same]
    exact h.waits x hx live outX
  · intro x hx live out
    rcases mem.mp hx with hx | rfl
    · exact (h.fair x hx live out).of_books rfl rfl
    · exact fair.of_books rfl rfl

/-! ## Invitations -/

theorem Truthful.reinvite {invitations : Table PartnerInvitation.id}
    {f : PartnerInvitation → PartnerInvitation} (h : Truthful p X Y r)
    (rows : invitations.rows = r.invitations.rows.map f)
    (inviting : ∀ i ∈ r.invitations.rows, (f i).invitingEntryId = i.invitingEntryId)
    (accepted : ∀ i ∈ r.invitations.rows, (f i).acceptedEntryId = i.acceptedEntryId)
    (status : ∀ i ∈ r.invitations.rows, (f i).status = .accepted ↔ i.status = .accepted) :
    Truthful p X Y { r with invitations := invitations } := by
  have old : ∀ {j}, j ∈ invitations.rows → ∃ i ∈ r.invitations.rows, f i = j := by
    intro j hj
    rw [rows] at hj
    exact List.mem_map.mp hj
  have joined : ∀ e q, Joined { r with invitations := invitations } e q ↔ Joined r e q := by
    intro e q
    constructor
    · rintro ⟨j, hj, done, sides⟩
      obtain ⟨i, hi, rfl⟩ := old hj
      rw [inviting i hi, accepted i hi] at sides
      exact ⟨i, hi, (status i hi).mp done, sides⟩
    · rintro ⟨i, hi, done, sides⟩
      rw [← inviting i hi, ← accepted i hi] at sides
      exact ⟨f i, rows ▸ List.mem_map_of_mem hi, (status i hi).mpr done, sides⟩
  refine ⟨⟨?_, ?_, ?_, ?_, ?_, ?_⟩, h.billed, h.paid, ?_,
    fun e he live out => (h.fair e he live out).of_books rfl rfl⟩
  · intro j hj k hk same
    obtain ⟨i, hi, rfl⟩ := old hj
    obtain ⟨i', hi', rfl⟩ := old hk
    rw [inviting i hi, inviting i' hi'] at same
    rw [h.invited.single i hi i' hi' same]
  · intro j hj
    obtain ⟨i, hi, rfl⟩ := old hj
    exact inviting i hi ▸ h.invited.inviting i hi
  · intro j hj
    obtain ⟨i, hi, rfl⟩ := old hj
    rw [accepted i hi, status i hi]
    exact h.invited.open_iff i hi
  · intro j hj q hq
    obtain ⟨i, hi, rfl⟩ := old hj
    exact h.invited.accepted i hi q (accepted i hi ▸ hq)
  · intro j hj q hq k hk
    obtain ⟨i, hi, rfl⟩ := old hj
    obtain ⟨i', hi', rfl⟩ := old hk
    rw [inviting i' hi']
    exact h.invited.silent i hi q (accepted i hi ▸ hq) i' hi'
  · intro j hj k hk q hq hq'
    obtain ⟨i, hi, rfl⟩ := old hj
    obtain ⟨i', hi', rfl⟩ := old hk
    rw [h.invited.once i hi i' hi' q (accepted i hi ▸ hq) (accepted i' hi' ▸ hq')]
  · intro e he live out
    have same : HasPartner { r with invitations := invitations } e.id ↔ HasPartner r e.id :=
      exists_congr (fun q => and_congr_left' (joined e.id q))
    unfold Waits
    rw [same]
    exact h.waits e he live out

theorem revokeSent_truthful {id : Uuid} (h : Truthful p X Y r) :
    Truthful p X Y (r.revokeSent id) := by
  refine h.reinvite rfl (fun i _ => ?_) (fun i _ => ?_) (fun i _ => ?_)
  · split <;> rfl
  · split <;> rfl
  · split
    · next sent => simp [sent.2]
    · rfl

def Untouched (r : Registry) (id : Uuid) : Prop :=
  ∀ i ∈ r.invitations.rows, i.invitingEntryId ≠ id ∧ i.acceptedEntryId ≠ some id

theorem untouched_of_fresh {id : Uuid} (h : Invited p r) (fresh : ¬ r.entries.Has id) :
    Untouched r id := by
  intro i hi
  refine ⟨fun own => fresh ?_, fun theirs => fresh ?_⟩
  · obtain ⟨x, hx, same, -⟩ := h.inviting i hi
    exact same.trans own ▸ has_of_mem hx
  · obtain ⟨x, hx, rfl, -⟩ := h.accepted i hi id theirs
    exact has_of_mem hx

theorem not_hasPartner {id : Uuid} (h : ∀ i ∈ r.invitations.rows, i.status = .accepted →
    i.invitingEntryId ≠ id ∧ i.acceptedEntryId ≠ some id) : ¬ HasPartner r id := by
  rintro ⟨q, ⟨i, hi, done, ⟨own, -⟩ | ⟨-, theirs⟩⟩, -⟩
  · exact (h i hi done).1 own
  · exact (h i hi done).2 theirs

theorem insertInvitation_truthful (h : Truthful p X Y r) (isOpen : i.status ≠ .accepted)
    (nobodyYet : i.acceptedEntryId = none) (untouched : Untouched r i.invitingEntryId)
    (doubles : DoublesEntry p r i.invitingEntryId) (ok : r.insertInvitation i = .ok r') :
    Truthful p X Y r' := by
  unfold Registry.insertInvitation at ok
  simp only [bind_eq_ok, found_eq_ok] at ok
  obtain ⟨_, -, invitations, inserted, ok⟩ := ok
  cases ok
  have mem : ∀ {j}, j ∈ invitations.rows ↔ j ∈ r.invitations.rows ∨ j = i := by
    intro j
    simp [(Table.insert_eq_some.mp inserted).2]
  have joined : ∀ e q, Joined { r with invitations := invitations } e q ↔ Joined r e q := by
    intro e q
    refine exists_congr (fun j => and_congr_left (fun accepted => ?_))
    have done := accepted.1
    exact mem.trans ⟨fun hj => hj.resolve_right (fun same => isOpen (same ▸ done)), Or.inl⟩
  refine ⟨⟨?_, ?_, ?_, ?_, ?_, ?_⟩, h.billed, h.paid, ?_,
    fun e he live out => (h.fair e he live out).of_books rfl rfl⟩
  · intro j hj k hk same
    rcases mem.mp hj with hj | rfl <;> rcases mem.mp hk with hk | rfl
    · exact h.invited.single j hj k hk same
    · exact absurd same (untouched j hj).1
    · exact absurd same.symm (untouched k hk).1
    · rfl
  · intro j hj
    rcases mem.mp hj with hj | rfl
    · exact h.invited.inviting j hj
    · exact doubles
  · intro j hj
    rcases mem.mp hj with hj | rfl
    · exact h.invited.open_iff j hj
    · simp [nobodyYet, isOpen]
  · intro j hj q hq
    rcases mem.mp hj with hj | rfl
    · exact h.invited.accepted j hj q hq
    · simp [nobodyYet] at hq
  · intro j hj q hq k hk
    rcases mem.mp hj with hj | rfl
    · rcases mem.mp hk with hk | rfl
      · exact h.invited.silent j hj q hq k hk
      · rintro rfl
        exact (untouched j hj).2 hq
    · simp [nobodyYet] at hq
  · intro j hj k hk q hq hq'
    rcases mem.mp hj with hj | rfl
    · rcases mem.mp hk with hk | rfl
      · exact h.invited.once j hj k hk q hq hq'
      · simp [nobodyYet] at hq'
    · simp [nobodyYet] at hq
  · intro e he live out
    have same : HasPartner { r with invitations := invitations } e.id ↔ HasPartner r e.id :=
      exists_congr (fun q => and_congr_left' (joined e.id q))
    unfold Waits
    rw [same]
    exact h.waits e he live out

/-! ## Nomination -/

def Named (spec : PlayerInput) (event : Uuid) : Prop :=
  ∃ named, Assoc.get event spec.partners = some named ∧ named ≠ "" ∧
    (normalizeEmail named).isSome

def Unpartnered (p : Platform) (spec : PlayerInput) (event : EntryEvent) : Prop :=
  isDoubles p event ∧ ¬ Named spec event.id

theorem insertInvitation_rows (ok : r.insertInvitation i = .ok r') :
    r'.entries = r.entries ∧ r'.events = r.events ∧
      r'.invitations.rows = r.invitations.rows ++ [i] := by
  unfold Registry.insertInvitation at ok
  simp only [bind_eq_ok, found_eq_ok] at ok
  obtain ⟨_, -, invitations, inserted, ok⟩ := ok
  cases ok
  exact ⟨rfl, rfl, (Table.insert_eq_some.mp inserted).2⟩

theorem insertInvitation_extends (ok : r.insertInvitation i = .ok r') :
    Extends r r' [] := by
  unfold Registry.insertInvitation at ok
  simp only [bind_eq_ok, found_eq_ok] at ok
  obtain ⟨_, -, invitations, -, ok⟩ := ok
  cases ok
  exact .of_tables rfl rfl rfl rfl

theorem nominate_extends {id : Uuid} {now : Instant}
    (ok : nominate p r id email now = .ok (r', token)) : Extends r r' [] := by
  unfold nominate at ok
  split at ok
  · cases ok
    exact Extends.refl r
  · simp only [bind_eq_ok, Registry.mint] at ok
    obtain ⟨_, -, r₁, inserted, ok⟩ := ok
    cases ok
    have revoked : Extends r { r.revokeSent id with drawn := (r.revokeSent id).drawn + 1 } [] :=
      .of_tables rfl rfl rfl rfl
    exact (revoked.trans (insertInvitation_extends inserted)).trans (mapReasons_extends _ _).1

theorem mapReasons_waiting (h : Truthful p (fun x => X x ∨ x = e.id) Y r) (he : e ∈ r.entries.rows)
    (doubles : Doubles p r e.entryEventId) (alone : ¬ HasPartner r e.id) :
    Truthful p X Y (r.mapReasons (fun reasons => withReason reasons awaitingPartner) e.id) := by
  have found : r.entries.get e.id = some e := Table.get_eq_some_iff.mpr ⟨he, rfl⟩
  unfold Registry.mapReasons
  rw [found]
  let reasons := withReason e.pendingReasons awaitingPartner
  have other : ∀ c, c ≠ awaitingPartner → (c ∈ reasons ↔ c ∈ e.pendingReasons) := by
    intro c apart
    rw [mem_withReason]
    exact ⟨fun hc => hc.resolve_right apart, Or.inl⟩
  have marked : Truthful p _ Y (r.putEntry { e with pendingReasons := reasons }) :=
    h.put_reasons he (other overCap (by decide)) (other awaitingPayment (by decide))
  have single : Truthful p (fun x => X x ∨ x = e.id) Y _ := marked.mono
    (fun _ hx => hx.elim id Or.inr) (fun _ hx => hx)
  refine single.settle (fun x hx same _ => ?_)
  rcases Table.mem_put.mp hx with rfl | ⟨-, apart⟩
  · have w : Rewritten r (r.putEntry { e with pendingReasons := reasons }) :=
      .put he ⟨rfl, rfl, rfl, Iff.rfl⟩
    unfold Waits
    rw [w.doubles, w.hasPartner]
    exact ⟨fun _ => ⟨doubles, alone⟩, fun _ => mem_withReason.mpr (Or.inr rfl)⟩
  · exact absurd same apart

theorem nominate_truthful {now : Instant} (h : Truthful p (fun x => X x ∨ x = e.id) Y r)
    (he : e ∈ r.entries.rows) (untouched : Untouched r e.id) (doubles : Doubles p r e.entryEventId)
    (address : (normalizeEmail email).isSome) (ok : nominate p r e.id email now = .ok (r', token)) :
    Truthful p X Y r' := by
  unfold nominate at ok
  split at ok
  · next shapeless => simp [shapeless] at address
  · simp only [bind_eq_ok, Registry.mint] at ok
    obtain ⟨_, -, r₁, inserted, ok⟩ := ok
    cases ok
    have revoked : Truthful p (fun x => X x ∨ x = e.id) Y
        { r.revokeSent e.id with drawn := (r.revokeSent e.id).drawn + 1 } :=
      (revokeSent_truthful h).of_tables rfl rfl rfl rfl rfl
    have still : Untouched (r.revokeSent e.id) e.id := by
      intro i hi
      obtain ⟨j, hj, rfl⟩ := List.mem_map.mp hi
      split
      · exact untouched j hj
      · exact untouched j hj
    have invited : Truthful p (fun x => X x ∨ x = e.id) Y r₁ := by
      refine insertInvitation_truthful revoked ?_ ?_ ?_ ?_ inserted
      · simp
      · rfl
      · exact still
      · exact ⟨e, he, rfl, doubles⟩
    obtain ⟨entries, events, rows⟩ := insertInvitation_rows inserted
    refine mapReasons_waiting invited (entries ▸ he) ?_ ?_
    · unfold Doubles
      rw [events]
      exact doubles
    · refine not_hasPartner (fun i hi done => ?_)
      rw [rows, List.mem_append, List.mem_singleton] at hi
      rcases hi with hi | rfl
      · exact still i hi
      · cases done

theorem unnamed_truthful {event : EntryEvent} (h : Truthful p (fun x => X x ∨ x = e.id) Y r)
    (he : e ∈ r.entries.rows) (found : r.events.get e.entryEventId = some event)
    (clean : awaitingPartner ∉ e.pendingReasons)
    (unnamed : isDoubles p event → ¬ Named spec event.id) :
    Truthful p (fun x => X x ∨ (x = e.id ∧ Unpartnered p spec event)) Y r := by
  by_cases doubles : isDoubles p event
  · have lacks : Unpartnered p spec event := ⟨doubles, unnamed doubles⟩
    exact h.mono (fun _ hx => hx.imp id (fun same => ⟨same, lacks⟩)) (fun _ hx => hx)
  · refine (h.settle (fun x hx same _ => ?_)).mono (fun _ => Or.inl) (fun _ hx => hx)
    obtain rfl := Table.eq_of_key_eq hx he same
    refine ⟨fun waits => absurd waits clean, ?_⟩
    rintro ⟨⟨row, found', doubles'⟩, -⟩
    rw [found] at found'
    cases found'
    exact absurd doubles' doubles

theorem nominate_none {id : Uuid} {now : Instant}
    (ok : nominate p r id email now = .ok (r', none)) :
    r' = r ∧ normalizeEmail email = none := by
  unfold nominate at ok
  split at ok
  · next shapeless =>
    cases ok
    exact ⟨rfl, shapeless⟩
  · simp only [bind_eq_ok] at ok
    obtain ⟨_, -, _, -, ok⟩ := ok
    cases ok

theorem nominate_some {id : Uuid} {token : String} {now : Instant}
    (ok : nominate p r id email now = .ok (r', some token)) : (normalizeEmail email).isSome := by
  unfold nominate at ok
  split at ok
  · cases ok
  · next address shape =>
    rw [shape]
    rfl

theorem flagClashes (h : Truthful p X Y r) (id : Uuid) (clashes : List Uuid) :
    Truthful p X Y (if clashes = [] then r else flagConflict r (id :: clashes)) ∧
      Extends r (if clashes = [] then r else flagConflict r (id :: clashes)) [] := by
  split
  · exact ⟨h, Extends.refl r⟩
  · exact ⟨flagConflict_truthful h, (flagConflict_extends _).1⟩

theorem nominateNamed_spec {event : EntryEvent} {now : Instant} {invites : List (Uuid × String)}
    (h : Truthful p (fun x => X x ∨ x = e.id) Y r) (he : e ∈ r.entries.rows)
    (untouched : Untouched r e.id) (found : r.events.get e.entryEventId = some event)
    (clean : awaitingPartner ∉ e.pendingReasons)
    (ok : nominateNamed p r spec e event now = .ok (r', invites)) :
    Truthful p (fun x => X x ∨ (x = e.id ∧ Unpartnered p spec event)) Y r' ∧
      Extends r r' [] ∧ (spec.partners = [] → r' = r) := by
  unfold nominateNamed at ok
  split at ok
  · next nothing =>
    cases ok
    refine ⟨unnamed_truthful h he found clean (fun _ => ?_), Extends.refl _, fun _ => rfl⟩
    rintro ⟨named, some, -⟩
    rw [nothing] at some
    cases some
  · next named some =>
    have anyone : spec.partners ≠ [] := by
      intro empty
      rw [empty] at some
      cases some
    split at ok
    · next asks =>
      simp only [bind_eq_ok] at ok
      obtain ⟨⟨r₁, token⟩, nominated, ok⟩ := ok
      cases token with
      | none =>
        obtain ⟨rfl, shapeless⟩ := nominate_none nominated
        cases ok
        refine ⟨unnamed_truthful h he found clean (fun _ => ?_), Extends.refl _,
          fun empty => absurd empty anyone⟩
        rintro ⟨named', some', -, address⟩
        rw [some] at some'
        cases some'
        rw [shapeless] at address
        cases address
      | some token =>
        have done := nominate_truthful h he untouched ⟨event, found, asks.2⟩
          (nominate_some nominated) nominated
        have flagged := flagClashes done e.id ((conflicting r₁ e named).map Entry.id)
        obtain ⟨rfl, -⟩ := Prod.mk.inj (Except.ok.inj ok)
        exact ⟨flagged.1.mono (fun _ => Or.inl) (fun _ hx => hx),
          (nominate_extends nominated).trans flagged.2, fun empty => absurd empty anyone⟩
    · next silent =>
      cases ok
      refine ⟨unnamed_truthful h he found clean (fun doubles => ?_), Extends.refl _, fun _ => rfl⟩
      rintro ⟨named', some', nonempty, -⟩
      rw [some] at some'
      cases some'
      exact silent ⟨nonempty, doubles⟩

end Entries
