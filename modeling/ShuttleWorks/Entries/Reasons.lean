import ShuttleWorks.Entries.Pairs

/-! The cached reasons against the rows they are derived from. `Truthful` says which
live entries carry the right codes; each write keeps it, up to the entries whose codes
the write has just made stale. -/

namespace Entries
open Lib
open Sync (Uuid)

variable {p : Platform} {r r' : Registry} {X Y X' Y' : Uuid → Prop} {e e' : Entry}
  {reasons : List String}

def derivedCodes : List String := [awaitingPartner, overCap, awaitingPayment]

def Waits (p : Platform) (r : Registry) (e : Entry) : Prop :=
  awaitingPartner ∈ e.pendingReasons ↔ Doubles p r e.entryEventId ∧ ¬ HasPartner r e.id

structure Fair (r : Registry) (e : Entry) : Prop where
  cap : overCap ∈ e.pendingReasons ↔ e.state = .waitlisted
  payment : awaitingPayment ∈ e.pendingReasons ↔ Owes r e

/-- Live entries wait for a partner rightly outside `X` and carry the other codes rightly
outside `Y`. -/
structure Truthful (p : Platform) (X Y : Uuid → Prop) (r : Registry) : Prop where
  invited : Invited p r
  billed : ∀ e ∈ r.entries.rows, ∃ s, r.submissionOf e = some s
  paid : ∀ x ∈ r.payments.rows, r.submissions.Has x.submissionId
  waits : ∀ e ∈ r.entries.rows, e.state ∈ liveStates → ¬ X e.id → Waits p r e
  fair : ∀ e ∈ r.entries.rows, e.state ∈ liveStates → ¬ Y e.id → Fair r e

theorem Truthful.mono (h : Truthful p X Y r) (hX : ∀ x, X x → X' x) (hY : ∀ x, Y x → Y' x) :
    Truthful p X' Y' r :=
  { h with
    waits := fun e he live out => h.waits e he live (fun x => out (hX _ x))
    fair := fun e he live out => h.fair e he live (fun x => out (hY _ x)) }

theorem Truthful.settle {id : Uuid} (h : Truthful p (fun x => X x ∨ x = id) Y r)
    (waits : ∀ e ∈ r.entries.rows, e.id = id → e.state ∈ liveStates → Waits p r e) :
    Truthful p X Y r :=
  { h with
    waits := fun e he live out => by
      by_cases same : e.id = id
      · exact waits e he same live
      · exact h.waits e he live (not_or.mpr ⟨out, same⟩) }

/-! ## Rewritten entries -/

structure Kept (e e' : Entry) : Prop where
  id : e'.id = e.id
  event : e'.entryEventId = e.entryEventId
  submission : e'.submissionId = e.submissionId
  live : e'.state ∈ liveStates ↔ e.state ∈ liveStates

/-- The same rows, but for what an entry carries beside its event, its act and its life. -/
structure Rewritten (r r' : Registry) : Prop where
  events : r'.events = r.events
  invitations : r'.invitations = r.invitations
  submissions : r'.submissions = r.submissions
  payments : r'.payments = r.payments
  old : ∀ e' ∈ r'.entries.rows, ∃ e ∈ r.entries.rows, Kept e e'
  new : ∀ e ∈ r.entries.rows, ∃ e' ∈ r'.entries.rows, Kept e e'

theorem Kept.refl (e : Entry) : Kept e e := ⟨rfl, rfl, rfl, Iff.rfl⟩

namespace Rewritten

theorem liveEntry (w : Rewritten r r') (id : Uuid) : r'.LiveEntry id ↔ r.LiveEntry id := by
  rw [liveEntry_iff, liveEntry_iff]
  constructor
  · rintro ⟨e', he', rfl, live⟩
    obtain ⟨e, he, kept⟩ := w.old e' he'
    exact ⟨e, he, kept.id.symm, kept.live.mp live⟩
  · rintro ⟨e, he, rfl, live⟩
    obtain ⟨e', he', kept⟩ := w.new e he
    exact ⟨e', he', kept.id, kept.live.mpr live⟩

theorem joined (w : Rewritten r r') {e q : Uuid} : Joined r' e q ↔ Joined r e q := by
  simp only [Joined, w.invitations]

theorem hasPartner (w : Rewritten r r') {e : Uuid} : HasPartner r' e ↔ HasPartner r e := by
  simp only [HasPartner, w.joined, w.liveEntry]

theorem doubles (w : Rewritten r r') {event : Uuid} : Doubles p r' event ↔ Doubles p r event := by
  simp only [Doubles, w.events]

theorem submissionOf (w : Rewritten r r') (kept : Kept e e') :
    r'.submissionOf e' = r.submissionOf e := by
  simp only [Registry.submissionOf, kept.submission, w.submissions]

theorem owes (w : Rewritten r r') (kept : Kept e e') : Owes r' e' ↔ Owes r e := by
  simp only [Owes, w.submissionOf kept, Registry.outstandingCents, Registry.paidCents,
    Registry.paymentsOf, w.payments]

theorem doublesEntry (w : Rewritten r r') {id : Uuid} (h : DoublesEntry p r id) :
    DoublesEntry p r' id := by
  obtain ⟨e, he, rfl, doubles⟩ := h
  obtain ⟨e', he', kept⟩ := w.new e he
  exact ⟨e', he', kept.id, kept.event ▸ w.doubles.mpr doubles⟩

theorem invited (w : Rewritten r r') (h : Invited p r) : Invited p r' where
  single := w.invitations ▸ h.single
  inviting i hi := w.doublesEntry (h.inviting i (w.invitations ▸ hi))
  open_iff := w.invitations ▸ h.open_iff
  accepted i hi q hq := w.doublesEntry (h.accepted i (w.invitations ▸ hi) q hq)
  silent := w.invitations ▸ h.silent
  once := w.invitations ▸ h.once

theorem put (he : e ∈ r.entries.rows) (kept : Kept e e') :
    Rewritten r (r.putEntry e') where
  events := rfl
  invitations := rfl
  submissions := rfl
  payments := rfl
  old x hx := by
    rcases Table.mem_put.mp hx with rfl | ⟨hx, -⟩
    · exact ⟨e, he, kept⟩
    · exact ⟨x, hx, Kept.refl x⟩
  new x hx := by
    by_cases same : x.id = e'.id
    · obtain rfl := Table.eq_of_key_eq hx he (same.trans kept.id)
      exact ⟨e', Table.mem_put.mpr (Or.inl rfl), kept⟩
    · exact ⟨x, Table.mem_put.mpr (Or.inr ⟨hx, same⟩), Kept.refl x⟩

end Rewritten

theorem Waits.kept (w : Rewritten r r') (kept : Kept e e')
    (code : awaitingPartner ∈ e'.pendingReasons ↔ awaitingPartner ∈ e.pendingReasons)
    (h : Waits p r e) : Waits p r' e' := by
  unfold Waits
  rw [code, kept.event, kept.id, w.doubles, w.hasPartner]
  exact h

theorem Fair.kept (w : Rewritten r r') (kept : Kept e e') (state : e'.state = e.state)
    (cap : overCap ∈ e'.pendingReasons ↔ overCap ∈ e.pendingReasons)
    (payment : awaitingPayment ∈ e'.pendingReasons ↔ awaitingPayment ∈ e.pendingReasons)
    (h : Fair r e) : Fair r' e' where
  cap := by rw [cap, state]; exact h.cap
  payment := by rw [payment, w.owes kept]; exact h.payment

theorem Fair.of_books (h : Fair r e) (submissions : r'.submissions = r.submissions)
    (payments : r'.payments = r.payments) : Fair r' e where
  cap := h.cap
  payment := by
    simp only [Owes, Registry.submissionOf, Registry.outstandingCents, Registry.paidCents,
      Registry.paymentsOf, submissions, payments]
    exact h.payment

theorem Truthful.rewrite (h : Truthful p X Y r) (w : Rewritten r r')
    (codes : ∀ e' ∈ r'.entries.rows, e'.state ∈ liveStates →
      (¬ X' e'.id → Waits p r' e') ∧ (¬ Y' e'.id → Fair r' e')) : Truthful p X' Y' r' where
  invited := w.invited h.invited
  billed e' he' := by
    obtain ⟨e, he, kept⟩ := w.old e' he'
    obtain ⟨s, hs⟩ := h.billed e he
    exact ⟨s, (w.submissionOf kept).trans hs⟩
  paid x hx := w.submissions ▸ h.paid x (w.payments ▸ hx)
  waits e' he' live out := (codes e' he' live).1 out
  fair e' he' live out := (codes e' he' live).2 out

theorem Truthful.of_tables (h : Truthful p X Y r) (events : r'.events = r.events)
    (entries : r'.entries = r.entries) (invitations : r'.invitations = r.invitations)
    (submissions : r'.submissions = r.submissions) (payments : r'.payments = r.payments) :
    Truthful p X Y r' := by
  have w : Rewritten r r' :=
    ⟨events, invitations, submissions, payments, fun e he => ⟨e, entries ▸ he, Kept.refl e⟩,
      fun e he => ⟨e, entries.symm ▸ he, Kept.refl e⟩⟩
  refine h.rewrite w (fun e he live => ?_)
  have he : e ∈ r.entries.rows := entries ▸ he
  exact ⟨fun out => (h.waits e he live out).kept w (Kept.refl e) Iff.rfl,
    fun out => (h.fair e he live out).kept w (Kept.refl e) rfl Iff.rfl Iff.rfl⟩

theorem Truthful.put (h : Truthful p X Y r) (he : e ∈ r.entries.rows) (kept : Kept e e') :
    Truthful p (fun x => X x ∨ x = e'.id) (fun x => Y x ∨ x = e'.id) (r.putEntry e') := by
  have w := Rewritten.put he kept
  refine h.rewrite w (fun x hx live => ?_)
  rcases Table.mem_put.mp hx with rfl | ⟨hx, other⟩
  · exact ⟨fun out => absurd (Or.inr rfl) out, fun out => absurd (Or.inr rfl) out⟩
  · exact ⟨fun out => (h.waits x hx live (not_or.mp out).1).kept w (Kept.refl x) Iff.rfl,
      fun out => (h.fair x hx live (not_or.mp out).1).kept w (Kept.refl x) rfl Iff.rfl Iff.rfl⟩

theorem Truthful.put_reasons (h : Truthful p X Y r) (he : e ∈ r.entries.rows)
    (cap : overCap ∈ reasons ↔ overCap ∈ e.pendingReasons)
    (payment : awaitingPayment ∈ reasons ↔ awaitingPayment ∈ e.pendingReasons) :
    Truthful p (fun x => X x ∨ x = e.id) Y (r.putEntry { e with pendingReasons := reasons }) := by
  have kept : Kept e { e with pendingReasons := reasons } := ⟨rfl, rfl, rfl, Iff.rfl⟩
  have w := Rewritten.put he kept
  refine h.rewrite w (fun x hx live => ?_)
  rcases Table.mem_put.mp hx with rfl | ⟨hx, other⟩
  · exact ⟨fun out => absurd (Or.inr rfl) out,
      fun out => (h.fair e he live out).kept w kept rfl cap payment⟩
  · exact ⟨fun out => (h.waits x hx live (not_or.mp out).1).kept w (Kept.refl x) Iff.rfl,
      fun out => (h.fair x hx live out).kept w (Kept.refl x) rfl Iff.rfl Iff.rfl⟩

theorem Truthful.put_codes (h : Truthful p X Y r) (he : e ∈ r.entries.rows)
    (codes : ∀ c ∈ derivedCodes, c ∈ reasons ↔ c ∈ e.pendingReasons) :
    Truthful p X Y (r.putEntry { e with pendingReasons := reasons }) := by
  have kept : Kept e { e with pendingReasons := reasons } := ⟨rfl, rfl, rfl, Iff.rfl⟩
  have w := Rewritten.put he kept
  have partner := codes awaitingPartner (by decide)
  have cap := codes overCap (by decide)
  have payment := codes awaitingPayment (by decide)
  refine h.rewrite w (fun x hx live => ?_)
  rcases Table.mem_put.mp hx with rfl | ⟨hx, other⟩
  · exact ⟨fun out => (h.waits e he live out).kept w kept partner,
      fun out => (h.fair e he live out).kept w kept rfl cap payment⟩
  · exact ⟨fun out => (h.waits x hx live out).kept w (Kept.refl x) Iff.rfl,
      fun out => (h.fair x hx live out).kept w (Kept.refl x) rfl Iff.rfl Iff.rfl⟩

/-! ## Rebuilding -/

/-- **A rebuilt list is right.** -/
theorem recompute_right (h : Invited p r) (e : Entry) :
    (awaitingPartner ∈ recomputeReasons p r e ↔
        Doubles p r e.entryEventId ∧ ¬ HasPartner r e.id) ∧
      (overCap ∈ recomputeReasons p r e ↔ e.state = .waitlisted) ∧
      (awaitingPayment ∈ recomputeReasons p r e ↔ Owes r e) := by
  rw [← partnered_iff h]
  exact ⟨awaitingPartner_mem_recompute, overCap_mem_recompute, awaitingPayment_mem_recompute⟩

theorem Truthful.rebuild (h : Truthful p X Y r) (he : e ∈ r.entries.rows) :
    Truthful p (fun x => X x ∧ x ≠ e.id) (fun x => Y x ∧ x ≠ e.id)
      (r.putEntry { e with pendingReasons := recomputeReasons p r e }) := by
  have kept : Kept e { e with pendingReasons := recomputeReasons p r e } :=
    ⟨rfl, rfl, rfl, Iff.rfl⟩
  have w := Rewritten.put he kept
  obtain ⟨partner, cap, payment⟩ := recompute_right h.invited e
  refine h.rewrite w (fun x hx live => ?_)
  rcases Table.mem_put.mp hx with rfl | ⟨hx, other⟩
  · refine ⟨fun _ => ?_, fun _ => ⟨cap, ?_⟩⟩
    · unfold Waits
      rw [w.doubles, w.hasPartner]
      exact partner
    · exact payment.trans (w.owes kept).symm
  · refine ⟨fun out => ?_, fun out => ?_⟩
    · have inside : ¬ X x.id := fun hX => out ⟨hX, other⟩
      exact (h.waits x hx live inside).kept w (Kept.refl x) Iff.rfl
    · have inside : ¬ Y x.id := fun hY => out ⟨hY, other⟩
      exact (h.fair x hx live inside).kept w (Kept.refl x) rfl Iff.rfl Iff.rfl

theorem Truthful.recompute (h : Truthful p X Y r) (he : e ∈ r.entries.rows) (kept : Kept e e') :
    Truthful p (fun x => X x ∧ x ≠ e'.id) (fun x => Y x ∧ x ≠ e'.id) (r.recompute p e') := by
  have written := (h.put he kept).rebuild (e := e') (Table.mem_put.mpr (Or.inl rfl))
  refine written.mono (fun x hx => ?_) (fun x hx => ?_)
  · exact ⟨hx.1.resolve_right hx.2, hx.2⟩
  · exact ⟨hx.1.resolve_right hx.2, hx.2⟩

/-! ## An entry's end -/

theorem liveEntry_of_dead (dead : e.state ∉ liveStates) (id : Uuid) :
    (r.putEntry e).LiveEntry id ↔ r.LiveEntry id ∧ id ≠ e.id := by
  simp only [liveEntry_iff, Registry.putEntry, Table.mem_put]
  constructor
  · rintro ⟨x, rfl | ⟨hx, other⟩, rfl, live⟩
    · exact absurd live dead
    · exact ⟨⟨x, hx, rfl, live⟩, other⟩
  · rintro ⟨⟨x, hx, rfl, live⟩, other⟩
    exact ⟨x, Or.inr ⟨hx, other⟩, rfl, live⟩

theorem Truthful.dies (h : Truthful p X Y r) (he : e ∈ r.entries.rows) (id : e'.id = e.id)
    (event : e'.entryEventId = e.entryEventId) (submission : e'.submissionId = e.submissionId)
    (dead : e'.state ∉ liveStates) :
    Truthful p (fun x => X x ∨ Joined r e.id x) Y (r.putEntry e') := by
  have doublesEntry : ∀ q, DoublesEntry p r q → DoublesEntry p (r.putEntry e') q := by
    rintro q ⟨x, hx, rfl, doubles⟩
    by_cases same : x.id = e'.id
    · obtain rfl := Table.eq_of_key_eq hx he (same.trans id)
      exact ⟨e', Table.mem_put.mpr (Or.inl rfl), id, event ▸ doubles⟩
    · exact ⟨x, Table.mem_put.mpr (Or.inr ⟨hx, same⟩), rfl, doubles⟩
  refine ⟨?_, ?_, h.paid, ?_, ?_⟩
  · exact { h.invited with
      inviting := fun i hi => doublesEntry _ (h.invited.inviting i hi)
      accepted := fun i hi q hq => doublesEntry q (h.invited.accepted i hi q hq) }
  · intro x hx
    rcases Table.mem_put.mp hx with rfl | ⟨hx, -⟩
    · obtain ⟨s, hs⟩ := h.billed e he
      exact ⟨s, by rw [← hs]; simp only [Registry.submissionOf, submission, Registry.putEntry]⟩
    · exact h.billed x hx
  · intro x hx live out
    rcases Table.mem_put.mp hx with rfl | ⟨hx, other⟩
    · exact absurd live dead
    obtain ⟨outX, apart⟩ := not_or.mp out
    have same : HasPartner (r.putEntry e') x.id ↔ HasPartner r x.id := by
      constructor
      · rintro ⟨q, joined, alive⟩
        exact ⟨q, joined, ((liveEntry_of_dead dead q).mp alive).1⟩
      · rintro ⟨q, joined, alive⟩
        refine ⟨q, joined, (liveEntry_of_dead dead q).mpr ⟨alive, ?_⟩⟩
        rintro rfl
        exact apart (id ▸ joined.symm)
    unfold Waits
    rw [same]
    exact h.waits x hx live outX
  · intro x hx live out
    rcases Table.mem_put.mp hx with rfl | ⟨hx, -⟩
    · exact absurd live dead
    · exact ⟨(h.fair x hx live out).cap, (h.fair x hx live out).payment⟩

theorem Truthful.put_dead (h : Truthful p X Y r) (he : e ∈ r.entries.rows) (kept : Kept e e')
    (dead : e'.state ∉ liveStates) : Truthful p X Y (r.putEntry e') := by
  have w := Rewritten.put he kept
  refine h.rewrite w (fun x hx live => ?_)
  rcases Table.mem_put.mp hx with rfl | ⟨hx, -⟩
  · exact absurd live dead
  · exact ⟨fun out => (h.waits x hx live out).kept w (Kept.refl x) Iff.rfl,
      fun out => (h.fair x hx live out).kept w (Kept.refl x) rfl Iff.rfl Iff.rfl⟩

end Entries
