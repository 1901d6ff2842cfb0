import ShuttleWorks.Entries.Acts

/-! Accepting an invitation. The invitation is spent first, then the partner's half is
recorded as an act of its own, and at last the two halves are joined: between the record
and the join the partner's own wait is wrong, and the join settles it. -/

namespace Entries
open Lib
open Sync (Uuid)

variable {p : Platform} {r r' : Registry} {X Y : Uuid → Prop} {e half : Uuid}

/-! ## The claim -/

theorem invitation_sent {i : PartnerInvitation} (h : r.invitation e = some i)
    (idle : i.status ≠ .accepted) : i ∈ r.invitations.rows ∧ i.invitingEntryId = e := by
  rw [invitation_eq, Option.or_eq_some_iff] at h
  rcases h with done | ⟨-, own⟩
  · exact absurd (mem_acceptedOf.mp (List.mem_of_getLast? done)).2.1 idle
  · exact mem_invitationsOf.mp (List.mem_of_getLast? own)

theorem mem_of_invitation {i : PartnerInvitation} (h : r.invitation e = some i) :
    i ∈ r.invitations.rows := by
  rw [invitation_eq, Option.or_eq_some_iff] at h
  rcases h with done | ⟨-, own⟩
  · exact (mem_acceptedOf.mp (List.mem_of_getLast? done)).1
  · exact (mem_invitationsOf.mp (List.mem_of_getLast? own)).1

def spent (i : PartnerInvitation) : PartnerInvitation :=
  { i with status := .revoked, tokenHash := none }

theorem claim_spec {i : PartnerInvitation} {now : Instant} (hi : i ∈ r.invitations.rows)
    (ok : claim r i now = .ok r') : i.status = .sent ∧
      r' = { r with invitations := r.invitations.put (spent i) } := by
  unfold claim at ok
  simp only [bind_eq_ok, found_eq_ok, require_eq_ok] at ok
  obtain ⟨row, found, -, still, ok⟩ := ok
  obtain ⟨member, same⟩ := Table.get_eq_some_iff.mp found
  obtain rfl := Table.eq_of_key_eq member hi same
  cases ok
  exact ⟨still.2.1, rfl⟩

theorem Truthful.spend {i : PartnerInvitation} (h : Truthful p X Y r)
    (hi : i ∈ r.invitations.rows) (sent : i.status = .sent) :
    Truthful p X Y { r with invitations := r.invitations.put (spent i) } := by
  have has : r.invitations.Has (spent i).id := Table.has_iff.mpr ⟨i, hi, rfl⟩
  have own : ∀ x ∈ r.invitations.rows, x.id = (spent i).id → x = i := fun x hx same =>
    Table.eq_of_key_eq hx hi same
  refine h.reinvite (Table.rows_put_of_has has) (fun x hx => ?_) (fun x hx => ?_) (fun x hx => ?_)
  · split
    · next same => rw [own x hx same, spent]
    · rfl
  · split
    · next same => rw [own x hx same, spent]
    · rfl
  · split
    · next same => simp [own x hx same, spent, sent]
    · exact Iff.rfl

/-! ## The join -/

section Join

variable {i j : PartnerInvitation} {partner : Uuid}

/-- `j` is the invitation `i`, accepted by the partner. -/
structure Accepts (i j : PartnerInvitation) (partner : Uuid) : Prop where
  id : j.id = i.id
  inviting : j.invitingEntryId = i.invitingEntryId
  entry : j.acceptedEntryId = some partner
  status : j.status = .accepted

theorem Accepts.mem (a : Accepts i j partner) {x : PartnerInvitation}
    (hx : x ∈ (r.invitations.put j).rows) :
    x = j ∨ x ∈ r.invitations.rows ∧ x ≠ i := by
  rcases Table.mem_put.mp hx with rfl | ⟨old, other⟩
  · exact Or.inl rfl
  · exact Or.inr ⟨old, fun same => other (same ▸ a.id.symm)⟩

theorem Accepts.joined_iff (a : Accepts i j partner) (hi : i ∈ r.invitations.rows)
    (idle : i.status ≠ .accepted) {q : Uuid} :
    Joined { r with invitations := r.invitations.put j } e q ↔ Joined r e q ∨
      (e = i.invitingEntryId ∧ q = partner) ∨ (e = partner ∧ q = i.invitingEntryId) := by
  constructor
  · rintro ⟨x, hx, done, sides⟩
    rcases a.mem hx with rfl | ⟨old, -⟩
    · rw [a.inviting, a.entry] at sides
      rcases sides with ⟨own, theirs⟩ | ⟨own, theirs⟩
      · exact Or.inr (Or.inl ⟨own.symm, (Option.some.inj theirs).symm⟩)
      · exact Or.inr (Or.inr ⟨(Option.some.inj theirs).symm, own.symm⟩)
    · exact Or.inl ⟨x, old, done, sides⟩
  · have new : j ∈ (r.invitations.put j).rows := Table.mem_put.mpr (Or.inl rfl)
    rintro (⟨x, hx, done, sides⟩ | ⟨rfl, rfl⟩ | ⟨rfl, rfl⟩)
    · refine ⟨x, Table.mem_put.mpr (Or.inr ⟨hx, fun same => idle ?_⟩), done, sides⟩
      exact Table.eq_of_key_eq hx hi (same.trans a.id) ▸ done
    · exact ⟨j, new, a.status, Or.inl ⟨a.inviting, a.entry⟩⟩
    · exact ⟨j, new, a.status, Or.inr ⟨a.inviting, a.entry⟩⟩

theorem Accepts.invited (a : Accepts i j partner) (h : Invited p r)
    (hi : i ∈ r.invitations.rows) (untouched : Untouched r partner)
    (doubles : DoublesEntry p r partner) :
    Invited p { r with invitations := r.invitations.put j } := by
  refine ⟨?_, ?_, ?_, ?_, ?_, ?_⟩
  · intro x hx y hy same
    rcases a.mem hx with rfl | ⟨old, other⟩ <;> rcases a.mem hy with rfl | ⟨old', other'⟩
    · rfl
    · exact absurd (h.single y old' i hi (same.symm.trans a.inviting)) other'
    · exact absurd (h.single x old i hi (same.trans a.inviting)) other
    · exact h.single x old y old' same
  · intro x hx
    rcases a.mem hx with rfl | ⟨hx, -⟩
    · rw [a.inviting]
      exact h.inviting i hi
    · exact h.inviting x hx
  · intro x hx
    rcases a.mem hx with rfl | ⟨hx, -⟩
    · simp [a.entry, a.status]
    · exact h.open_iff x hx
  · intro x hx q hq
    rcases a.mem hx with rfl | ⟨hx, -⟩
    · obtain rfl := Option.some.inj (a.entry.symm.trans hq)
      exact doubles
    · exact h.accepted x hx q hq
  · intro x hx q hq y hy
    rcases a.mem hx with rfl | ⟨old, -⟩ <;> rcases a.mem hy with rfl | ⟨old', -⟩
    · obtain rfl := Option.some.inj (a.entry.symm.trans hq)
      rw [a.inviting]
      exact (untouched i hi).1
    · obtain rfl := Option.some.inj (a.entry.symm.trans hq)
      exact (untouched y old').1
    · rw [a.inviting]
      exact h.silent x old q hq i hi
    · exact h.silent x old q hq y old'
  · intro x hx y hy q hq hq'
    rcases a.mem hx with rfl | ⟨old, -⟩ <;> rcases a.mem hy with rfl | ⟨old', -⟩
    · rfl
    · obtain rfl := Option.some.inj (a.entry.symm.trans hq)
      exact absurd hq' (untouched y old').2
    · obtain rfl := Option.some.inj (a.entry.symm.trans hq')
      exact absurd hq (untouched x old).2
    · exact h.once x old y old' q hq hq'

theorem Accepts.truthful (a : Accepts i j partner) (h : Truthful p X Y r)
    (hi : i ∈ r.invitations.rows) (idle : i.status ≠ .accepted)
    (untouched : Untouched r partner) (doubles : DoublesEntry p r partner) :
    Truthful p (fun x => (X x ∨ x = partner) ∨ x = i.invitingEntryId) Y
      { r with invitations := r.invitations.put j } := by
  refine ⟨a.invited h.invited hi untouched doubles, h.billed, h.paid, fun e he live out => ?_,
    fun e he live out => (h.fair e he live out).of_books rfl rfl⟩
  obtain ⟨out, notInviting⟩ := not_or.mp out
  obtain ⟨out, notPartner⟩ := not_or.mp out
  have same : HasPartner { r with invitations := r.invitations.put j } e.id ↔
      HasPartner r e.id := by
    refine exists_congr (fun q => and_congr_left' ?_)
    rw [a.joined_iff hi idle]
    exact ⟨fun joined => joined.resolve_right (by
      rintro (⟨own, -⟩ | ⟨own, -⟩)
      · exact notInviting own
      · exact notPartner own), Or.inl⟩
  unfold Waits
  rw [same]
  exact h.waits e he live out

end Join

theorem mapReasons_rewritten (f : List String → List String) (id : Uuid) :
    Rewritten r (r.mapReasons f id) := by
  unfold Registry.mapReasons
  split
  · exact ⟨rfl, rfl, rfl, rfl, fun e he => ⟨e, he, Kept.refl e⟩, fun e he => ⟨e, he, Kept.refl e⟩⟩
  · next e found => exact .put (Table.mem_of_get found) ⟨rfl, rfl, rfl, Iff.rfl⟩

theorem mapReasons_joined {id : Uuid} (h : Truthful p (fun x => X x ∨ x = id) Y r)
    (joined : HasPartner r id) :
    Truthful p X Y (r.mapReasons (fun reasons => withoutReason reasons awaitingPartner) id) := by
  unfold Registry.mapReasons
  split
  · next nobody =>
    refine h.settle (fun e he same _ => ?_)
    exact absurd (same ▸ has_of_mem he) (Table.get_eq_none_iff.mp nobody)
  · next e found =>
    obtain ⟨he, rfl⟩ := Table.get_eq_some_iff.mp found
    let reasons := withoutReason e.pendingReasons awaitingPartner
    have other : ∀ c, c ≠ awaitingPartner → (c ∈ reasons ↔ c ∈ e.pendingReasons) := by
      intro c apart
      rw [mem_withoutReason]
      exact ⟨And.left, fun hc => ⟨hc, apart⟩⟩
    have cleared : Truthful p _ Y (r.putEntry { e with pendingReasons := reasons }) :=
      h.put_reasons he (other overCap (by decide)) (other awaitingPayment (by decide))
    have single : Truthful p (fun x => X x ∨ x = e.id) Y _ := cleared.mono
      (fun _ hx => hx.elim id Or.inr) (fun _ hx => hx)
    refine single.settle (fun x hx same _ => ?_)
    rcases Table.mem_put.mp hx with rfl | ⟨-, apart⟩
    · have w : Rewritten r (r.putEntry { e with pendingReasons := reasons }) :=
        .put he ⟨rfl, rfl, rfl, Iff.rfl⟩
      unfold Waits
      rw [w.doubles, w.hasPartner]
      exact ⟨fun waits => absurd rfl (mem_withoutReason.mp waits).2, fun alone => absurd joined alone.2⟩
    · exact absurd same apart

/-- **The join settles both halves.** -/
theorem link_truthful {i : PartnerInvitation} {partner : Uuid} {now : Instant}
    (h : Truthful p (fun x => X x ∨ x = partner) Y r) (hi : i ∈ r.invitations.rows)
    (idle : i.status ≠ .accepted) (untouched : Untouched r partner)
    (doubles : DoublesEntry p r partner) (live : r.LiveEntry i.invitingEntryId)
    (live' : r.LiveEntry partner) :
    Truthful p X Y (link r i i.invitingEntryId partner now) := by
  let j : PartnerInvitation :=
    { i with acceptedEntryId := some partner, acceptedAt := some now, status := .accepted
             tokenHash := none }
  have a : Accepts i j partner := ⟨rfl, rfl, rfl, rfl⟩
  have joined := a.truthful h hi idle untouched doubles
  have pair : Joined { r with invitations := r.invitations.put j } i.invitingEntryId partner :=
    (a.joined_iff hi idle).mpr (Or.inr (Or.inl ⟨rfl, rfl⟩))
  have first : HasPartner { r with invitations := r.invitations.put j } i.invitingEntryId :=
    ⟨partner, pair, live'⟩
  have second : HasPartner { r with invitations := r.invitations.put j } partner :=
    ⟨i.invitingEntryId, pair.symm, live⟩
  have both : Truthful p (fun x => (X x ∨ x = partner) ∨ x = i.invitingEntryId) Y
      { r with invitations := r.invitations.put j } :=
    joined.mono (fun _ hx => hx.imp_left (fun hx => hx.elim id Or.inr)) (fun _ hx => hx)
  refine mapReasons_joined (mapReasons_joined both first) ?_
  exact (mapReasons_rewritten _ _).hasPartner.mpr second

/-! ## The acceptance -/

theorem createSubmission_half {form : SubmissionForm} {spec : PlayerInput} {event : Uuid}
    {now : Instant} {result : SubmissionResult} (one : form.players = [spec])
    (single : spec.events = [event]) (silent : spec.partners = [])
    (unkeyed : form.idempotencyKey = none) (h : Truthful p nobody nobody r)
    (ok : createSubmission p r form now = .ok (r', result))
    (first : result.entries.head? = some half) :
    Truthful p (fun x => nobody x ∨ x = half) nobody r' ∧ r'.invitations = r.invitations ∧
      r'.events = r.events ∧ (∀ id, r.LiveEntry id → r'.LiveEntry id) ∧
      ¬ r.entries.Has half ∧
      ∃ e ∈ r'.entries.rows, e.id = half ∧ e.state ∈ liveStates ∧ e.entryEventId = event := by
  have new : replay r form.idempotencyKey form.accountId = none := by
    rw [unkeyed]
    rfl
  unfold createSubmission at ok
  simp only [new] at ok
  have ok : writeSubmission p r form now = .ok (r', result) := by
    split at ok
    · cases ok
    · exact ok
  obtain ⟨truthful, events, ids, kept, born, quiet⟩ := writeSubmission_written h ok
  have short := writeSubmission_single one single h ok
  have only : result.entries = [half] := by
    cases entries : result.entries with
    | nil => simp [entries] at first
    | cons id rest =>
      rw [entries] at first short
      obtain rfl : rest = [] := by simpa using short
      simpa using first
  have selected : form.players.flatMap PlayerInput.events = [event] := by
    rw [one, List.flatMap_singleton, single]
  refine ⟨truthful.mono (fun x hx => hx.imp_right ?_) (fun _ hx => hx), quiet ?_, events,
    fun id live => ?_, ?_, ?_⟩
  · rintro ⟨member, -⟩
    rw [only] at member
    exact List.mem_singleton.mp member
  · intro x hx
    rw [one, List.mem_singleton] at hx
    exact hx ▸ silent
  · obtain ⟨e, he, rfl, alive⟩ := liveEntry_iff.mp live
    obtain ⟨e', he', same⟩ := kept e he
    exact liveEntry_iff.mpr ⟨e', he', same.id, same.live.mpr alive⟩
  · intro known
    have unique := r'.entries.unique
    rw [ids, only, List.nodup_append] at unique
    exact unique.2.2 half known half List.mem_cons_self rfl
  · obtain ⟨e, he, same, alive, member⟩ := born half (by rw [only]; exact List.mem_cons_self)
    rw [selected, List.mem_singleton] at member
    exact ⟨e, he, same, alive, member⟩

/-- **Accepting an invitation keeps the reasons truthful.** -/
theorem accept_truthful {id : Uuid} {a : Acceptance} {now : Instant}
    (h : Truthful p nobody nobody r) (ok : accept p r id a now = .ok (r', half)) :
    Truthful p nobody nobody r' := by
  unfold accept at ok
  simp only [bind_eq_ok, found_eq_ok, require_eq_ok] at ok
  obtain ⟨entry, row, i, last, -, ⟨-, alive⟩, r₁, claimed, page, -, event, eventRow, -, -, -, -,
    ok⟩ := ok
  obtain ⟨_, -, -, -, ⟨r₂, result⟩, created, partner, first, row', again, entry', -, ok⟩ := ok
  obtain ⟨rfl, -⟩ := Prod.mk.inj (Except.ok.inj ok)
  obtain ⟨he, rfl⟩ := Table.get_eq_some_iff.mp row
  obtain ⟨sent, rfl⟩ := claim_spec (mem_of_invitation last) claimed
  obtain ⟨hi, own⟩ := invitation_sent last (by simp [sent])
  have claimed := h.spend hi sent
  obtain ⟨written, invitations, events, lives, fresh, half', member, rfl, alive', onEvent⟩ :=
    createSubmission_half rfl rfl rfl rfl claimed created first
  obtain rfl : row' = spent i := by
    rw [invitations] at again
    exact Option.some.inj (again.symm.trans (Table.get_put_self _ (spent i)))
  have live : r₂.LiveEntry entry.id := lives _ (liveEntry_iff.mpr ⟨entry, he, rfl, alive⟩)
  have doubles : DoublesEntry p r₂ half'.id := by
    obtain ⟨x, hx, same, doubles⟩ := h.invited.inviting i hi
    obtain rfl := Table.eq_of_key_eq hx he (same.trans own)
    refine ⟨half', member, rfl, ?_⟩
    have here : event.id = x.entryEventId := Table.key_of_get eventRow
    unfold Doubles
    rw [events, onEvent, here]
    exact doubles
  have untouched : Untouched r₂ half'.id := by
    unfold Untouched
    rw [invitations]
    exact untouched_of_fresh claimed.invited fresh
  have member' : spent i ∈ r₂.invitations.rows := Table.mem_of_get again
  have linked : Truthful p nobody nobody (link r₂ (spent i) entry.id half'.id now) := by
    have inviting : (spent i).invitingEntryId = entry.id := own
    rw [← inviting] at live ⊢
    exact link_truthful written member' (by simp [spent]) untouched doubles live
      (liveEntry_iff.mpr ⟨half', member, rfl, alive'⟩)
  split
  · exact linked
  · exact flagConflict_truthful linked

end Entries
