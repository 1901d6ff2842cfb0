import ShuttleWorks.Sync.Invariants

/-! What the cloud promises an event: a contiguous, receipted ledger in every
epoch, and one writer at a time. -/

namespace Sync
open Lib

/-! ## The ledger -/

variable {s : Store} {o : EventOperation} {s' : Store} {t n : Uuid} {e : Nat} {rs : List Request}

theorem Sound.mem_acceptedOf (ho : o ∈ s.operations.rows) :
    o ∈ acceptedOf s o.tournamentId o.authorityEpoch := by
  simp [acceptedOf, ho, EventOperation.epochKey]

theorem Sound.receipt_unique (hs : Sound s) (ho : o ∈ s.operations.rows) {r : SyncInbox}
    (hr : r ∈ s.inbox.rows) (hk : r.epochKey = o.epochKey) (hq : r.sequence = o.sequence) :
    r = o.inboxRow := by
  rw [hs.receipts, List.mem_map] at hr
  obtain ⟨p, hp, rfl⟩ := hr
  have nodup : ((acceptedOf s o.tournamentId o.authorityEpoch).map
      EventOperation.sequence).Nodup := by
    rw [hs.contiguous]
    exact List.nodup_range'
  have hpo : p ∈ acceptedOf s o.tournamentId o.authorityEpoch := by
    simp only [acceptedOf, List.mem_filter, hp, true_and, decide_eq_true_eq]
    exact hk
  rw [List.inj_on_of_nodup_map nodup hpo (Sound.mem_acceptedOf ho) hq]

theorem EpochMoves.cloudCursor_eq (h : EpochMoves s s') (hs : CursorsKnown s) (t : Uuid) (e : Nat) :
    cloudCursor s' t e = cloudCursor s t e := by
  have both : CursorsKnown s' ∧ cloudCursor s' t e = cloudCursor s t e := by
    induction h with
    | refl => exact ⟨hs, rfl⟩
    | tail _ h ih => exact ⟨h.cursorsKnown ih.1, (h.cloudCursor_eq ih.1 t e).trans ih.2⟩
  exact both.2

theorem cloudCursor_le_serve {env : Env} (hs : Sound s) (r : Request) (t : Uuid) (e : Nat) :
    cloudCursor s t e ≤ cloudCursor (serve env s r) t e := by
  by_cases hr : ∃ t capability batch, r = .upload t capability batch
  · obtain ⟨t', capability, batch, rfl⟩ := hr
    simp only [serve]
    rcases ingestBatch_cases env s t' capability batch with ⟨q, e', h⟩ | ⟨a, news, s', r, h, acc⟩
    · rw [h]
      exact Nat.le_refl _
    · rw [h]
      have effect := acc.effect
      rw [effect.cloudCursor_eq]
      exact Nat.le_add_right _ _
  · push Not at hr
    exact Nat.le_of_eq (EpochMoves.cloudCursor_eq (serve_moves env s r hr) hs.cursorsKnown t e).symm

/-- **Contiguity.** In every state the accepted operations of an epoch are
numbered from 1 to its cursor, each with its one receipt; no request moves a
cursor back; a refused batch only adds quarantine rows. -/
theorem ledger_contiguous {env : Env} {s : Store} (h : CloudReachable env s) :
    (∀ t e, (acceptedOf s t e).map EventOperation.sequence =
      List.range' 1 (cloudCursor s t e)) ∧
    (∀ o ∈ s.operations.rows, o.inboxRow ∈ s.inbox.rows ∧
      ∃! r, r ∈ s.inbox.rows ∧ r.epochKey = o.epochKey ∧ r.sequence = o.sequence) ∧
    (∀ r t e, cloudCursor s t e ≤ cloudCursor (serve env s r) t e) ∧
    (∀ t capability batch e, (ingestBatch env s t capability batch).2 = .error e →
      ∃ q, (ingestBatch env s t capability batch).1 =
        { s with quarantine := s.quarantine ++ q }) := by
  have hs := h.sound
  refine ⟨hs.contiguous, fun o ho => ?_, cloudCursor_le_serve hs, ?_⟩
  · have hmem : o.inboxRow ∈ s.inbox.rows := by
      rw [hs.receipts]
      exact List.mem_map_of_mem ho
    refine ⟨hmem, o.inboxRow, ⟨hmem, rfl, rfl⟩, ?_⟩
    rintro r ⟨hr, hk, hq⟩
    exact hs.receipt_unique ho hr hk hq
  · intro t capability batch e he
    rcases ingestBatch_cases env s t capability batch with ⟨q, e', hi⟩ | ⟨_, _, s', r, hi, -⟩
    · exact ⟨q, by rw [hi]⟩
    · rw [hi] at he
      cases he

/-- After checkout and the uploads of two operations. -/
theorem ledger_contiguous_rehearsal :
    cloudCursor Rehearsal.uploaded Rehearsal.eventId 1 = 2 ∧
    (acceptedOf Rehearsal.uploaded Rehearsal.eventId 1).map EventOperation.sequence = [1, 2] := by
  have cursor : cloudCursor Rehearsal.uploaded Rehearsal.eventId 1 = 2 := by decide +kernel
  have reachable : CloudReachable Rehearsal.env Rehearsal.uploaded := Rehearsal.after_reachable _
  refine ⟨cursor, ?_⟩
  rw [(ledger_contiguous reachable).1, cursor]
  rfl

/-! ## The writer -/

/-- From here on an epoch and its node are fenced off from below: no older epoch
of the tournament is live. -/
structure Fenced (t : Uuid) (e : Nat) (n : Uuid) (s : Store) : Prop where
  owner : ∃ a ∈ s.authorities.rows, a.key = (t, e) ∧ a.nodeId = n
  below : ∀ b ∈ s.authorities.rows, b.tournamentId = t → b.epoch < e → b.state.live = false

theorem EpochMove.fenced (h : EpochMove s s') (hf : Fenced t e n s) : Fenced t e n s' := by
  obtain ⟨⟨x, hx, hk, hn⟩, below⟩ := hf
  cases h with
  | opened a kept next free authorities checkpoints =>
    refine ⟨⟨x, by simp [authorities, hx], hk, hn⟩, fun b hb ht hlt => ?_⟩
    rw [authorities, List.mem_append, List.mem_singleton] at hb
    rcases hb with hb | rfl
    · exact below b hb ht hlt
    · simp only [TournamentAuthority.key, Prod.mk.injEq] at hk
      have := lt_nextEpoch hx
      rw [hk.1, ← ht, ← next, hk.2] at this
      omega
  | moved a a' kept mem becomes authorities checkpoints =>
    have key := becomes.key_eq
    simp only [TournamentAuthority.key, Prod.mk.injEq] at key
    constructor
    · by_cases hxa : x = a
      · subst hxa
        exact ⟨a', by simp [authorities, mem_put_authority mem becomes],
          becomes.key_eq.trans hk, becomes.nodeId_eq.trans hn⟩
      · exact ⟨x, by simp [authorities, mem_put_authority mem becomes, hx, hxa], hk, hn⟩
    · intro b hb ht hlt
      rw [authorities, mem_put_authority mem becomes] at hb
      rcases hb with rfl | ⟨hb, -⟩
      · have := below a mem (key.1 ▸ ht) (key.2 ▸ hlt)
        simp [becomes.live_before] at this
      · exact below b hb ht hlt
  | idle kept authorities checkpoints =>
    rw [← authorities] at hx below
    exact ⟨⟨x, hx, hk, hn⟩, below⟩

theorem serve_authorities {I : Store → Prop} (hmove : ∀ s s', I s → EpochMove s s' → I s')
    (hrows : ∀ s s' : Store, s'.authorities = s.authorities → I s → I s') {env : Env} (hi : I s)
    (r : Request) : I (serve env s r) := by
  by_cases hr : ∃ t capability batch, r = .upload t capability batch
  · obtain ⟨t, capability, batch, rfl⟩ := hr
    simp only [serve]
    rcases ingestBatch_cases env s t capability batch with ⟨q, e, h⟩ | ⟨a, news, s', r, h, acc⟩
    · rw [h]
      exact hrows s _ rfl hi
    · rw [h]
      have effect := acc.effect
      exact hrows _ _ effect.authorities_eq hi
  · push Not at hr
    have moves := serve_moves env s r hr
    generalize serve env s r = s' at moves
    induction moves with
    | refl => exact hi
    | tail _ h ih => exact hmove _ _ ih h

theorem CloudRun.fenced {env : Env} (h : CloudRun env s rs s') (hf : Fenced t e n s) :
    Fenced t e n s' := by
  refine h.invariant (fun s r s' hs hr => hr ▸ ?_) hf
  refine serve_authorities (fun _ _ hi hm => hm.fenced hi) (fun _ _ e hi => ?_) hs r
  exact ⟨e ▸ hi.owner, e ▸ hi.below⟩

theorem CloudRun.mem_of_not_live {env : Env} (h : CloudRun env s rs s') {a : TournamentAuthority}
    (ha : a ∈ s.authorities.rows) (hl : a.state.live = false) :
    a ∈ s'.authorities.rows := by
  have kept : ∀ s r s', a ∈ s.authorities.rows → Serves env s r s' → a ∈ s'.authorities.rows := by
    rintro s r _ hs rfl
    exact serve_authorities (fun _ _ hi hm => hm.mem_of_not_live hi hl) (fun _ _ e hi => e ▸ hi)
      hs r
  exact h.invariant kept ha

theorem new_operation {env : Env} {r : Request} (ho : o ∈ (serve env s r).operations.rows)
    (hn : o ∉ s.operations.rows) :
    ∃ a ∈ s.authorities.rows, a.key = o.epochKey ∧ a.state = .active ∧ a.nodeId = o.nodeId := by
  by_cases hr : ∃ t capability batch, r = .upload t capability batch
  · obtain ⟨t, capability, batch, rfl⟩ := hr
    simp only [serve] at ho
    rcases ingestBatch_cases env s t capability batch with ⟨q, e, h⟩ | ⟨a, news, s', r, h, acc⟩
    · rw [h] at ho
      exact absurd ho hn
    · rw [h] at ho
      have effect := acc.effect
      have operations : s'.operations.rows = s.operations.rows ++ news.map (.ofEnvelope t) :=
        effect.appended.operations
      rw [operations, List.mem_append] at ho
      obtain ⟨hk, hnode, -⟩ := effect.mem_rows (ho.resolve_left hn)
      exact ⟨a, Table.mem_of_get effect.authority, (Table.key_of_get effect.authority).trans hk.symm,
        effect.active, hnode.symm⟩
  · push Not at hr
    have same : ∀ s' : Store, EpochMoves s s' → s'.operations = s.operations := by
      intro s' h
      induction h with
      | refl => rfl
      | tail _ h ih =>
        exact h.kept.operations.trans ih
    rw [same _ (serve_moves env s r hr)] at ho
    exact absurd ho hn

/-- **Single writer.** In every state a tournament has one live epoch at most and
its epochs increase in the order of their creation. After any further requests a
closed or recovered epoch is still what it was, an operation is accepted only
for the one active epoch and from its node, and once an epoch is active no
operation of an older one is accepted, nor any of its own from another node. -/
theorem single_writer {env : Env} {s : Store} (h : CloudReachable env s) :
    OneLive s ∧ (∀ t, (epochsOf s t).Pairwise (· < ·)) ∧
    ∀ rs s', CloudRun env s rs s' →
      (∀ a ∈ s.authorities.rows, a.state = .closed ∨ a.state = .recovered →
        a ∈ s'.authorities.rows) ∧
      ∀ r, ∀ o ∈ (serve env s' r).operations.rows, o ∉ s'.operations.rows →
        (∃ a ∈ s'.authorities.rows, a.key = o.epochKey ∧ a.state = .active ∧
          a.nodeId = o.nodeId ∧
          ∀ b ∈ s'.authorities.rows, b.tournamentId = o.tournamentId → b.state.live → b = a) ∧
        (∀ a ∈ s.authorities.rows, a.tournamentId = o.tournamentId → a.state = .active →
          a.epoch ≤ o.authorityEpoch ∧ (a.epoch = o.authorityEpoch → a.nodeId = o.nodeId)) := by
  refine ⟨h.sound.oneLive, h.sound.increasing, fun rs s' run => ⟨fun a ha hstate => ?_, ?_⟩⟩
  · refine run.mem_of_not_live ha ?_
    rcases hstate with e | e <;> simp [e, AuthorityState.live]
  · intro r o ho hn
    obtain ⟨a, ha, hk, hactive, hnode⟩ := new_operation ho hn
    have hlive : a.state.live := by simp [hactive, AuthorityState.live]
    have key := hk
    simp only [TournamentAuthority.key, EventOperation.epochKey, Prod.mk.injEq] at key
    refine ⟨⟨a, ha, hk, hactive, hnode, fun b hb ht hbl => ?_⟩, fun c hc ht hcactive => ?_⟩
    · exact (CloudReachable.sound (h.run run)).oneLive b hb a ha (ht.trans key.1.symm) hbl hlive
    · have hclive : c.state.live := by simp [hcactive, AuthorityState.live]
      have fence : Fenced c.tournamentId c.epoch c.nodeId s :=
        ⟨⟨c, hc, rfl, rfl⟩, fun b hb hbt hlt =>
          h.sound.oneLive.not_live_of_lt hc hb hbt hlt hclive⟩
      obtain ⟨⟨d, hd, hdk, hdn⟩, below⟩ := run.fenced fence
      constructor
      · by_contra hlt
        have := below a ha (key.1.trans ht.symm) (by omega)
        simp [hlive] at this
      · intro he
        have : d = a := Table.eq_of_key_eq hd ha (hdk.trans (by
          simp [TournamentAuthority.key, key.1, key.2, ht, he]))
        rw [← hdn, this, hnode]

open Rehearsal in
/-- Once the spare's epoch is active, nothing of the laptop's is accepted. -/
theorem single_writer_rehearsal :
    (epochsOf (after (checkedOut ++ handedOver 0)) eventId).Pairwise (· < ·) ∧
    ∀ r, ∀ o ∈ (serve env (after (checkedOut ++ handedOver 0)) r).operations.rows,
      o ∉ (after (checkedOut ++ handedOver 0)).operations.rows → o.tournamentId = eventId →
        2 ≤ o.authorityEpoch := by
  obtain ⟨-, increasing, runs⟩ := single_writer (after_reachable (checkedOut ++ handedOver 0))
  refine ⟨increasing eventId, fun r o ho hn ht => ?_⟩
  obtain ⟨a, ha, hta, hactive, hepoch⟩ :
      ∃ a ∈ (after (checkedOut ++ handedOver 0)).authorities.rows,
        a.tournamentId = eventId ∧ a.state = .active ∧ a.epoch = 2 := by decide +kernel
  have := (((runs [] _ (.nil _)).2 r o ho hn).2 a ha (hta.trans ht.symm) hactive).1
  omega

end Sync
