import ShuttleWorks.Entries.Submissions

/-! The pairs that accepted invitations join, and what keeps them pairs: an entry sends
at most one invitation, an invitation is accepted by at most one entry, and an entry
that accepted one sends none. -/

namespace Entries
open Lib
open Sync (Uuid)

variable {p : Platform} {r r' : Registry} {q : Uuid} {i : PartnerInvitation}

/-- An accepted invitation joins the two entries. -/
def Joined (r : Registry) (e q : Uuid) : Prop :=
  ∃ i ∈ r.invitations.rows, i.status = .accepted ∧
    ((i.invitingEntryId = e ∧ i.acceptedEntryId = some q) ∨
      (i.invitingEntryId = q ∧ i.acceptedEntryId = some e))

def HasPartner (r : Registry) (e : Uuid) : Prop := ∃ q, Joined r e q ∧ r.LiveEntry q

def Doubles (p : Platform) (r : Registry) (event : Uuid) : Prop :=
  ∃ row, r.events.get event = some row ∧ isDoubles p row

def DoublesEntry (p : Platform) (r : Registry) (id : Uuid) : Prop :=
  ∃ e ∈ r.entries.rows, e.id = id ∧ Doubles p r e.entryEventId

structure Invited (p : Platform) (r : Registry) : Prop where
  single : ∀ i ∈ r.invitations.rows, ∀ j ∈ r.invitations.rows,
    i.invitingEntryId = j.invitingEntryId → i = j
  inviting : ∀ i ∈ r.invitations.rows, DoublesEntry p r i.invitingEntryId
  open_iff : ∀ i ∈ r.invitations.rows, i.acceptedEntryId.isSome ↔ i.status = .accepted
  accepted : ∀ i ∈ r.invitations.rows, ∀ q, i.acceptedEntryId = some q → DoublesEntry p r q
  silent : ∀ i ∈ r.invitations.rows, ∀ q, i.acceptedEntryId = some q →
    ∀ j ∈ r.invitations.rows, j.invitingEntryId ≠ q
  once : ∀ i ∈ r.invitations.rows, ∀ j ∈ r.invitations.rows, ∀ q,
    i.acceptedEntryId = some q → j.acceptedEntryId = some q → i = j

theorem Joined.symm {e : Uuid} (h : Joined r e q) : Joined r q e := by
  obtain ⟨i, hi, accepted, sides⟩ := h
  exact ⟨i, hi, accepted, sides.symm⟩

theorem liveEntry_iff {id : Uuid} :
    r.LiveEntry id ↔ ∃ e ∈ r.entries.rows, e.id = id ∧ e.state ∈ liveStates := by
  constructor
  · rintro ⟨e, he, live⟩
    obtain ⟨member, rfl⟩ := Table.get_eq_some_iff.mp he
    exact ⟨e, member, rfl, live⟩
  · rintro ⟨e, member, rfl, live⟩
    exact ⟨e, Table.get_eq_some_iff.mpr ⟨member, rfl⟩, live⟩

/-! ## One partner each -/

namespace Invited

theorem same (h : Invited p r) {e : Uuid} {j : PartnerInvitation} (hi : i ∈ r.invitations.rows)
    (hj : j ∈ r.invitations.rows) (ei : i.invitingEntryId = e ∨ i.acceptedEntryId = some e)
    (ej : j.invitingEntryId = e ∨ j.acceptedEntryId = some e) : i = j := by
  rcases ei with ei | ei <;> rcases ej with ej | ej
  · exact h.single i hi j hj (ei.trans ej.symm)
  · exact absurd ei (h.silent j hj e ej i hi)
  · exact absurd ej (h.silent i hi e ei j hj)
  · exact h.once i hi j hj e ei ej

theorem partner_unique (h : Invited p r) {e q' : Uuid} (hq : Joined r e q) (hq' : Joined r e q') :
    q = q' := by
  obtain ⟨i, hi, -, sides⟩ := hq
  obtain ⟨j, hj, -, sides'⟩ := hq'
  have touches : i.invitingEntryId = e ∨ i.acceptedEntryId = some e :=
    sides.imp And.left And.right
  have touches' : j.invitingEntryId = e ∨ j.acceptedEntryId = some e :=
    sides'.imp And.left And.right
  obtain rfl := h.same hi hj touches touches'
  rcases sides with ⟨a, b⟩ | ⟨a, b⟩ <;> rcases sides' with ⟨c, d⟩ | ⟨c, d⟩
  · exact Option.some.inj (b.symm.trans d)
  · exact absurd a (h.silent i hi e d i hi)
  · exact absurd c (h.silent i hi e b i hi)
  · exact a.symm.trans c

end Invited

/-! ## The pair as the rows are read -/

theorem mem_invitationsOf {e : Uuid} :
    i ∈ r.invitationsOf e ↔ i ∈ r.invitations.rows ∧ i.invitingEntryId = e := by
  simp [Registry.invitationsOf]

theorem mem_acceptedInvitationsOf {e : Uuid} :
    i ∈ r.acceptedInvitationsOf e ↔ i ∈ r.invitations.rows ∧ i.acceptedEntryId = some e := by
  simp [Registry.acceptedInvitationsOf]

/-- The invitations an entry is joined by, as the property reads them. -/
def acceptedOf (r : Registry) (e : Uuid) : List PartnerInvitation :=
  (r.invitationsOf e ++ r.acceptedInvitationsOf e).filter (fun i => i.status = .accepted)

theorem mem_acceptedOf {e : Uuid} :
    i ∈ acceptedOf r e ↔ i ∈ r.invitations.rows ∧ i.status = .accepted ∧
      (i.invitingEntryId = e ∨ i.acceptedEntryId = some e) := by
  simp only [acceptedOf, List.mem_filter, List.mem_append, mem_invitationsOf,
    mem_acceptedInvitationsOf, decide_eq_true_eq]
  tauto

theorem invitation_eq (r : Registry) (e : Uuid) :
    r.invitation e = (acceptedOf r e).getLast?.or (r.invitationsOf e).getLast? := by
  unfold Registry.invitation acceptedOf
  split
  · next h => rw [h, Option.some_or]
  · next h => rw [h, Option.none_or]

/-- **The pair of an entry is the one its accepted invitation joins it with.** -/
theorem pairedEntryId_iff (h : Invited p r) {e : Uuid} :
    r.pairedEntryId e = some q ↔ Joined r e q := by
  cases found : (acceptedOf r e).getLast? with
  | none =>
    have nothing : acceptedOf r e = [] := by simpa using found
    have unpaired : ¬ Joined r e q := by
      rintro ⟨i, hi, accepted, sides⟩
      have : i ∈ acceptedOf r e :=
        mem_acceptedOf.mpr ⟨hi, accepted, sides.imp And.left And.right⟩
      simp [nothing] at this
    refine ⟨fun paired => ?_, fun joined => absurd joined unpaired⟩
    unfold Registry.pairedEntryId at paired
    rw [invitation_eq, found, Option.none_or] at paired
    split at paired
    · cases paired
    · next i last =>
      split at paired
      · cases paired
      · next accepted =>
        have own := mem_invitationsOf.mp (List.mem_of_getLast? last)
        have : i ∈ acceptedOf r e :=
          mem_acceptedOf.mpr ⟨own.1, not_not.mp accepted, Or.inl own.2⟩
        simp [nothing] at this
  | some i =>
    obtain ⟨hi, accepted, touches⟩ := mem_acceptedOf.mp (List.mem_of_getLast? found)
    have read : r.pairedEntryId e =
        if i.invitingEntryId = e then i.acceptedEntryId else some i.invitingEntryId := by
      unfold Registry.pairedEntryId
      rw [invitation_eq, found, Option.some_or]
      simp [accepted]
    rw [read]
    constructor
    · intro paired
      split at paired
      · next own => exact ⟨i, hi, accepted, Or.inl ⟨own, paired⟩⟩
      · next other =>
        cases paired
        exact ⟨i, hi, accepted, Or.inr ⟨rfl, touches.resolve_left other⟩⟩
    · rintro ⟨j, hj, accepted', sides⟩
      obtain rfl := h.same hj hi (sides.imp And.left And.right) touches
      rcases sides with ⟨own, other⟩ | ⟨own, other⟩
      · rw [if_pos own, other]
      · have foreign : j.invitingEntryId ≠ e := h.silent j hj e other j hj
        rw [if_neg foreign, own]

theorem partnered_iff (h : Invited p r) {e : Uuid} : Partnered r e ↔ HasPartner r e := by
  simp only [Partnered, HasPartner, pairedEntryId_iff h]

/-! ## The reasons a rebuild derives -/

section Recompute

variable {e : Entry} {c : String}

theorem not_mem_playerReasons {player : EntryPlayer} {event : EntryEvent}
    (h : c ∈ playerReasons p r e player event) :
    c = genderMismatch ∨ c = needsReviewPerson ∨ c = needsReview := by
  unfold playerReasons at h
  rw [List.mem_append, List.mem_append] at h
  rcases h with (h | h) | h
  · exact Or.inl (mem_genderFlags h)
  · split at h
    · split at h
      · exact Or.inr (Or.inl (by simpa using h))
      · simp at h
    · simp at h
  · split at h
    · exact Or.inr (Or.inr (by simpa using h))
    · simp at h

theorem mem_partnerReasons {event : EntryEvent} :
    c ∈ partnerReasons p r e event → c = awaitingPartner ∨ c = pairConflict := by
  unfold partnerReasons
  intro h
  split at h
  · rw [List.mem_append] at h
    rcases h with h | h
    · split at h
      · simp at h
      · exact Or.inl (by simpa using h)
    · split at h
      · split at h
        · exact Or.inr (by simpa using h)
        · simp at h
      · simp at h
  · simp at h

theorem awaitingPartner_mem_partnerReasons {event : EntryEvent} :
    awaitingPartner ∈ partnerReasons p r e event ↔ isDoubles p event ∧ ¬ Partnered r e.id := by
  have apart : awaitingPartner ≠ pairConflict := by decide
  unfold partnerReasons
  by_cases doubles : isDoubles p event <;> by_cases paired : Partnered r e.id
  all_goals
    simp only [doubles, paired, if_true, if_false, List.nil_append, List.mem_append,
      List.mem_singleton, true_or, not_true_eq_false, not_false_eq_true, and_self, and_false,
      false_and, iff_false, List.not_mem_nil]
  split
  · split
    · simpa using apart
    · exact List.not_mem_nil
  · exact List.not_mem_nil

theorem mem_recomputeReasons :
    c ∈ recomputeReasons p r e ↔ (c = awaitingPayment ∧ Owes r e) ∨
      (c = overCap ∧ e.state = .waitlisted) ∨
      (∃ player event, r.playerOf e = some player ∧ r.events.get e.entryEventId = some event ∧
        c ∈ playerReasons p r e player event) ∨
      (∃ event, r.events.get e.entryEventId = some event ∧ c ∈ partnerReasons p r e event) := by
  unfold recomputeReasons
  simp only [List.mem_eraseDups, List.mem_append, or_assoc]
  refine or_congr ?_ (or_congr ?_ (or_congr ?_ ?_))
  · split <;> simp_all
  · split <;> simp_all
  · cases r.playerOf e <;> cases r.events.get e.entryEventId <;> simp
  · cases r.events.get e.entryEventId <;> simp

theorem awaitingPayment_mem_recompute : awaitingPayment ∈ recomputeReasons p r e ↔ Owes r e := by
  rw [mem_recomputeReasons]
  constructor
  · rintro (⟨-, owes⟩ | ⟨h, -⟩ | ⟨_, _, -, -, h⟩ | ⟨_, -, h⟩)
    · exact owes
    · exact absurd h (by decide)
    · exact absurd (not_mem_playerReasons h) (by decide)
    · exact absurd (mem_partnerReasons h) (by decide)
  · exact fun owes => Or.inl ⟨rfl, owes⟩

theorem overCap_mem_recompute : overCap ∈ recomputeReasons p r e ↔ e.state = .waitlisted := by
  rw [mem_recomputeReasons]
  constructor
  · rintro (⟨h, -⟩ | ⟨-, queued⟩ | ⟨_, _, -, -, h⟩ | ⟨_, -, h⟩)
    · exact absurd h (by decide)
    · exact queued
    · exact absurd (not_mem_playerReasons h) (by decide)
    · exact absurd (mem_partnerReasons h) (by decide)
  · exact fun queued => Or.inr (Or.inl ⟨rfl, queued⟩)

theorem awaitingPartner_mem_recompute : awaitingPartner ∈ recomputeReasons p r e ↔
    Doubles p r e.entryEventId ∧ ¬ Partnered r e.id := by
  rw [mem_recomputeReasons]
  constructor
  · rintro (⟨h, -⟩ | ⟨h, -⟩ | ⟨_, _, -, -, h⟩ | ⟨event, found, h⟩)
    · exact absurd h (by decide)
    · exact absurd h (by decide)
    · exact absurd (not_mem_playerReasons h) (by decide)
    · obtain ⟨doubles, alone⟩ := awaitingPartner_mem_partnerReasons.mp h
      exact ⟨⟨event, found, doubles⟩, alone⟩
  · rintro ⟨⟨event, found, doubles⟩, alone⟩
    exact Or.inr (Or.inr (Or.inr ⟨event, found,
      awaitingPartner_mem_partnerReasons.mpr ⟨doubles, alone⟩⟩))

end Recompute

end Entries
