import ShuttleWorks.Entries.Reasons

/-! The transitions of an entry, its withdrawal and the ledger keep the reasons
truthful: a transition between live states rebuilds the entry it moves, a withdrawal
also marks the partner it leaves, and a payment rebuilds every entry of its act. -/

namespace Entries
open Lib
open Sync (Uuid pyStrip)
open Competition (Workspace)

variable {p : Platform} {r r' : Registry} {X Y : Uuid → Prop} {e e' : Entry} {actor : String}
  {es : List Entry}

def nobody : Uuid → Prop := fun _ => False

/-! ## The machine -/

theorem lift_eq_ok {α : Type} {x : Except Refusal α} {a : α} : lift x = .ok a ↔ x = .ok a := by
  cases x <;> simp [lift, Except.mapError]

theorem transitionEntry_ok {now : Instant} {event : String}
    (h : transitionEntry r e now event actor = .ok e') :
    ∃ edge ∈ entryMachine.edges, edge.event = event ∧ e.state ∈ edge.fromStates ∧
      e' = { e with state := edge.target, machineVersion := entryMachine.version } := by
  unfold transitionEntry at h
  simp only [bind_eq_ok, lift_eq_ok] at h
  obtain ⟨edge, checked, h⟩ := h
  cases h
  obtain ⟨-, member, source, event, -, -⟩ := StateMachine.check_eq_ok checked
  exact ⟨edge, member, event, source, rfl⟩

theorem transitionEntry_target (target : EntryState) {now : Instant} {event : String}
    (h : transitionEntry r e now event actor = .ok e')
    (leads : ∀ edge ∈ entryMachine.edges, edge.event = event → edge.target = target) :
    e' = { e with state := target, machineVersion := entryMachine.version } ∧
      e.state ∈ liveStates := by
  obtain ⟨edge, member, same, source, rfl⟩ := transitionEntry_ok h
  have living : ∀ edge ∈ entryMachine.edges, ∀ s ∈ edge.fromStates, s ∈ liveStates := by decide
  exact ⟨by rw [leads edge member same], living edge member e.state source⟩

theorem kept_of_live {target : EntryState} (live : e.state ∈ liveStates)
    (there : target ∈ liveStates)
    (h : e' = { e with state := target, machineVersion := entryMachine.version }) :
    Kept e e' := by
  subst h
  exact ⟨rfl, rfl, rfl, ⟨fun _ => live, fun _ => there⟩⟩

theorem mem_of_found {id : Uuid} {x : Refused} (h : found (r.entries.get id) x = .ok e) :
    e ∈ r.entries.rows ∧ e.id = id :=
  Table.get_eq_some_iff.mp (found_eq_ok.mp h)

/-! ## Between live states -/

theorem Truthful.moved {target : EntryState} (h : Truthful p nobody nobody r)
    (he : e ∈ r.entries.rows) (live : e.state ∈ liveStates) (there : target ∈ liveStates)
    (moved : e' = { e with state := target, machineVersion := entryMachine.version }) :
    Truthful p nobody nobody (r.recompute p e') :=
  (h.recompute he (kept_of_live live there moved)).mono (fun _ hx => hx.1) (fun _ hx => hx.1)

theorem promote_truthful {id : Uuid} {now : Instant} (h : Truthful p nobody nobody r)
    (ok : promote p r id now = .ok r') : Truthful p nobody nobody r' := by
  unfold promote at ok
  simp only [bind_eq_ok] at ok
  obtain ⟨e, he, _, -, e', moved, ok⟩ := ok
  cases ok
  obtain ⟨moved, live⟩ := transitionEntry_target .pending moved (by decide)
  exact h.moved (mem_of_found he).1 live (by decide) moved

theorem confirm_truthful {id : Uuid} {now : Instant} (h : Truthful p nobody nobody r)
    (ok : confirm p r id now = .ok r') : Truthful p nobody nobody r' := by
  unfold confirm at ok
  simp only [bind_eq_ok] at ok
  obtain ⟨e, he, _, -, e', moved, ok⟩ := ok
  cases ok
  obtain ⟨moved, live⟩ := transitionEntry_target .confirmed moved (by decide)
  exact h.moved (mem_of_found he).1 live (by decide) moved

theorem mem_recompute_of_ne {x : Entry} (hx : x ∈ r.entries.rows) (other : x.id ≠ e.id) :
    x ∈ (r.recompute p e).entries.rows :=
  Table.mem_put.mpr (Or.inr ⟨Table.mem_put.mpr (Or.inr ⟨hx, other⟩), other⟩)

theorem verifyEntries_truthful {now : Instant} (h : Truthful p nobody nobody r)
    (rows : ∀ e ∈ es, e ∈ r.entries.rows) (unique : (es.map Entry.id).Nodup)
    (ok : verifyEntries p now r es = .ok r') : Truthful p nobody nobody r' := by
  induction es generalizing r with
  | nil =>
    cases ok
    exact h
  | cons e es ih =>
    simp only [verifyEntries, bind_eq_ok] at ok
    obtain ⟨e', moved, ok⟩ := ok
    obtain ⟨moved, live⟩ := transitionEntry_target .pending moved (by decide)
    simp only [List.map_cons, List.nodup_cons] at unique
    have same : e'.id = e.id := by rw [moved]
    refine ih (h.moved (rows e List.mem_cons_self) live (by decide) moved) (fun x hx => ?_)
      unique.2 ok
    have other : x.id ≠ e.id := fun clash => unique.1 (clash ▸ List.mem_map_of_mem hx)
    exact mem_recompute_of_ne (rows x (List.mem_cons_of_mem _ hx)) (same ▸ other)

theorem promoteVerifiedEntries_truthful {account : Uuid} {now : Instant}
    (h : Truthful p nobody nobody r) (ok : promoteVerifiedEntries p r account now = .ok r') :
    Truthful p nobody nobody r' :=
  verifyEntries_truthful h (fun _ he => List.mem_of_mem_filter he)
    ((List.filter_sublist.map Entry.id).nodup r.entries.unique) ok

/-! ## Out of the live states -/

theorem Truthful.left (h : Truthful p (fun x => nobody x ∨ Joined r e.id x) Y r')
    (alone : ∀ q, Joined r e.id q → ¬ r'.LiveEntry q) : Truthful p nobody Y r' :=
  { h with
    waits := fun x hx live _ => h.waits x hx live (by
      rintro (out | joined)
      · exact out
      · exact alone x.id joined (liveEntry_iff.mpr ⟨x, hx, rfl, live⟩)) }

theorem reject_truthful {id : Uuid} {now : Instant} (h : Truthful p nobody nobody r)
    (alone : ¬ Partnered r id) (ok : reject p r id now = .ok r') : Truthful p nobody nobody r' := by
  unfold reject at ok
  simp only [bind_eq_ok] at ok
  obtain ⟨e, row, _, -, e', moved, ok⟩ := ok
  cases ok
  obtain ⟨he, rfl⟩ := mem_of_found row
  obtain ⟨moved, -⟩ := transitionEntry_target .rejected moved (by decide)
  subst moved
  have gone : EntryState.rejected ∉ liveStates := by decide
  let dead : Entry := { e with state := .rejected, machineVersion := entryMachine.version }
  have died : Truthful p _ nobody (r.putEntry dead) := h.dies he rfl rfl rfl gone
  have settled : Truthful p nobody nobody (r.putEntry dead) := by
    refine died.left (fun q joined alive => alone ?_)
    have alive : r.LiveEntry q := ((liveEntry_of_dead gone q).mp alive).1
    exact (partnered_iff h.invited).mpr ⟨q, joined, alive⟩
  exact settled.put_dead (e := dead) (Table.mem_put.mpr (Or.inl rfl)) ⟨rfl, rfl, rfl, Iff.rfl⟩ gone

theorem mem_waiting {reasons : List String} {c : String} (other : c ≠ awaitingPartner) :
    c ∈ (reasons ++ [awaitingPartner]).eraseDups ↔ c ∈ reasons := by
  simp [List.mem_eraseDups, other]

theorem not_liveEntry (he : e ∈ r.entries.rows) (dead : e.state ∉ liveStates) :
    ¬ r.LiveEntry e.id := by
  rw [liveEntry_iff]
  rintro ⟨x, hx, same, live⟩
  exact dead (Table.eq_of_key_eq hx he same ▸ live)

theorem doubles_of_joined (h : Invited p r) (he : e ∈ r.entries.rows) {q : Uuid}
    (joined : Joined r q e.id) : Doubles p r e.entryEventId := by
  obtain ⟨i, hi, -, ⟨-, theirs⟩ | ⟨theirs, -⟩⟩ := joined
  · obtain ⟨x, hx, same, doubles⟩ := h.accepted i hi _ theirs
    exact Table.eq_of_key_eq hx he same ▸ doubles
  · obtain ⟨x, hx, same, doubles⟩ := h.inviting i hi
    exact Table.eq_of_key_eq hx he (same.trans theirs) ▸ doubles

theorem awaitPartnerAgain_truthful (h : Truthful p (fun x => nobody x ∨ Joined r e.id x) nobody r)
    (he : e ∈ r.entries.rows) (dead : e.state ∉ liveStates) :
    Truthful p nobody nobody (awaitPartnerAgain r e) := by
  have invited := h.invited
  unfold awaitPartnerAgain
  split
  · next unpaired =>
    refine h.left (fun q joined alive => ?_)
    have paired : r.pairedEntryId e.id = some q := (pairedEntryId_iff invited).mpr joined
    obtain ⟨row, found, -⟩ := alive
    rw [Registry.pairedEntry, paired, Option.bind_some, found] at unpaired
    cases unpaired
  · next partner found =>
    obtain ⟨q, paired, row⟩ := Option.bind_eq_some_iff.mp found
    obtain ⟨member, rfl⟩ := Table.get_eq_some_iff.mp row
    have joined := (pairedEntryId_iff invited).mp paired
    have back : r.pairedEntryId partner.id = some e.id :=
      (pairedEntryId_iff invited).mpr joined.symm
    split
    · next live =>
      let reasons := (partner.pendingReasons ++ [awaitingPartner]).eraseDups
      let waiting : Entry := { partner with pendingReasons := reasons }
      have marked : Truthful p _ nobody (r.putEntry waiting) :=
        h.put_reasons member (mem_waiting (by decide)) (mem_waiting (by decide))
      have settled : Truthful p (fun x => nobody x ∨ x = partner.id) nobody
          (r.putEntry waiting) := by
        refine marked.mono (fun x hx => ?_) (fun _ hx => hx)
        rcases hx with (hx | hx) | hx
        · exact hx.elim
        · exact Or.inr (invited.partner_unique hx joined)
        · exact Or.inr hx
      refine settled.settle (fun x hx same _ => ?_)
      rcases Table.mem_put.mp hx with rfl | ⟨-, other⟩
      · have w : Rewritten r (r.putEntry waiting) := .put member ⟨rfl, rfl, rfl, Iff.rfl⟩
        have alone : ¬ HasPartner r partner.id := by
          rintro ⟨q, joined', alive⟩
          obtain rfl := invited.partner_unique joined' joined.symm
          exact not_liveEntry he dead alive
        unfold Waits
        rw [w.doubles, w.hasPartner]
        have doubles := doubles_of_joined (e := partner) invited member joined
        exact ⟨fun _ => ⟨doubles, alone⟩,
          fun _ => List.mem_eraseDups.mpr (List.mem_append_right _ List.mem_cons_self)⟩
      · exact absurd same other
    · next out =>
      refine h.left (fun q joined' alive => out ⟨back, ?_⟩)
      obtain rfl := invited.partner_unique joined' joined
      obtain ⟨x, hx, same, live⟩ := liveEntry_iff.mp alive
      exact Table.eq_of_key_eq hx member same ▸ live

theorem mem_awaitPartnerAgain (he : e ∈ r.entries.rows) (dead : e.state ∉ liveStates) :
    e ∈ (awaitPartnerAgain r e).entries.rows := by
  unfold awaitPartnerAgain
  split
  · exact he
  · next partner found =>
    obtain ⟨q, -, row⟩ := Option.bind_eq_some_iff.mp found
    obtain ⟨member, rfl⟩ := Table.get_eq_some_iff.mp row
    split
    · next live =>
      refine Table.mem_put.mpr (Or.inr ⟨he, fun same => dead ?_⟩)
      exact Table.eq_of_key_eq he member same ▸ live.2
    · exact he

theorem erasePlayer_tables (ws : Workspace) (e : Entry) (now : Instant) :
    ∃ players, (erasePlayer p ws e now).registry = { ws.registry with players := players } := by
  unfold erasePlayer
  split
  · exact ⟨_, rfl⟩
  · split
    · exact ⟨_, rfl⟩
    · exact ⟨_, Competition.project_registry _ _ _⟩

/-- **Withdrawal, with or without erasure, keeps the reasons truthful.** -/
theorem withdraw_truthful {ws ws' : Workspace} {id : Uuid} {erase byOperator : Bool}
    {now : Instant} (h : Truthful p nobody nobody ws.registry)
    (ok : withdraw p ws id erase byOperator now = .ok ws') :
    Truthful p nobody nobody ws'.registry := by
  unfold withdraw at ok
  simp only [bind_eq_ok] at ok
  obtain ⟨e, row, _, -, e', moved, ws₁, left, ok⟩ := ok
  cases ok
  obtain ⟨he, rfl⟩ := mem_of_found row
  have moved : e' = { e with state := .withdrawn, machineVersion := entryMachine.version } := by
    cases byOperator
    · exact (transitionEntry_target .withdrawn moved (by decide)).1
    · exact (transitionEntry_target .withdrawn moved (by decide)).1
  subst moved
  have gone : EntryState.withdrawn ∉ liveStates := by decide
  let gone₁ : Entry := { e with state := .withdrawn, machineVersion := entryMachine.version }
  let gone₂ : Entry := { gone₁ with withdrawnAt := some now }
  have registry : ws₁.registry = ws.registry.putEntry gone₁ :=
    Competition.withdrawMembership_registry p left
  have died : Truthful p (fun x => nobody x ∨ Joined ws.registry e.id x) nobody
      (ws.registry.putEntry gone₁) := h.dies he rfl rfl rfl gone
  have stamped : Truthful p (fun x => nobody x ∨ Joined ws.registry e.id x) nobody
      ((ws.registry.putEntry gone₁).putEntry gone₂) :=
    died.put_dead (e := gone₁) (Table.mem_put.mpr (Or.inl rfl)) ⟨rfl, rfl, rfl, Iff.rfl⟩ gone
  have member : gone₂ ∈ ((ws.registry.putEntry gone₁).putEntry gone₂).entries.rows :=
    Table.mem_put.mpr (Or.inl rfl)
  have marked : Truthful p nobody nobody (awaitPartnerAgain (ws₁.registry.putEntry gone₂) gone₂) := by
    rw [registry]
    exact awaitPartnerAgain_truthful stamped member gone
  have there : gone₂ ∈ (awaitPartnerAgain (ws₁.registry.putEntry gone₂) gone₂).entries.rows := by
    rw [registry]
    exact mem_awaitPartnerAgain member gone
  set marked₁ := awaitPartnerAgain (ws₁.registry.putEntry gone₂) gone₂
  have erased : ∀ r₂ : Registry, (∃ players, r₂ = { marked₁ with players := players }) →
      Truthful p nobody nobody (r₂.recompute p gone₂) := by
    rintro r₂ ⟨players, rfl⟩
    have kept : Truthful p nobody nobody { marked₁ with players := players } :=
      marked.of_tables rfl rfl rfl rfl rfl
    have again := kept.put_dead (e := gone₂) there (Kept.refl gone₂) gone
    exact again.put_dead (e := gone₂) (Table.mem_put.mpr (Or.inl rfl)) ⟨rfl, rfl, rfl, Iff.rfl⟩ gone
  refine erased _ ?_
  cases erase
  · exact ⟨marked₁.players, rfl⟩
  · exact erasePlayer_tables _ _ _

/-! ## Payments -/

theorem recomputeAll_truthful (h : Truthful p nobody Y r) (rows : ∀ e ∈ es, e ∈ r.entries.rows)
    (unique : (es.map Entry.id).Nodup) :
    Truthful p nobody (fun x => Y x ∧ x ∉ es.map Entry.id) (recomputeAll p r es) := by
  induction es generalizing r Y with
  | nil => exact h.mono (fun _ hx => hx) (fun _ hx => ⟨hx, List.not_mem_nil⟩)
  | cons e es ih =>
    simp only [List.map_cons, List.nodup_cons] at unique
    have first := (h.recompute (rows e List.mem_cons_self) (Kept.refl e)).mono
      (fun _ hx => hx.1) (fun _ hx => hx)
    refine (ih first (fun x hx => ?_) unique.2).mono (fun _ hx => hx) (fun x hx => ?_)
    · have other : x.id ≠ e.id := fun clash => unique.1 (clash ▸ List.mem_map_of_mem hx)
      exact mem_recompute_of_ne (rows x (List.mem_cons_of_mem _ hx)) other
    · exact ⟨hx.1.1, List.not_mem_cons_of_ne_of_not_mem hx.1.2 hx.2⟩

theorem has_put {κ ρ : Type} [DecidableEq κ] {key : ρ → κ} {t : Table key} {x : ρ} {k : κ}
    (h : t.Has k) : (t.put x).Has k := by
  obtain ⟨y, hy, rfl⟩ := Table.has_iff.mp h
  by_cases same : key y = key x
  · exact Table.has_iff.mpr ⟨x, Table.mem_put.mpr (Or.inl rfl), same.symm⟩
  · exact Table.has_iff.mpr ⟨y, Table.mem_put.mpr (Or.inr ⟨hy, same⟩), rfl⟩

theorem Truthful.pay {s : Submission} {x : Payment} {d : Nat} {payments : Table Payment.id}
    (h : Truthful p nobody nobody r) (known : r.submissions.get s.id = some s)
    (own : x.submissionId = s.id) (inserted : r.payments.insert x = some payments) :
    Truthful p nobody
      (fun id => ∃ e ∈ r.entries.rows, e.id = id ∧ e.submissionId = some s.id)
      { r with
        drawn := d
        payments := payments
        submissions := r.submissions.put { s with version := s.version + 1 } } := by
  have rows := (Table.insert_eq_some.mp inserted).2
  have has : r.submissions.Has s.id :=
    Table.has_iff.mpr ⟨s, (Table.get_eq_some_iff.mp known).1, rfl⟩
  let counted : Submission := { s with version := s.version + 1 }
  have get : ∀ id, s.id ≠ id → (r.submissions.put counted).get id = r.submissions.get id :=
    fun id other => Table.get_put_of_ne r.submissions (r := counted) other
  refine ⟨⟨h.invited.single, h.invited.inviting, h.invited.open_iff, h.invited.accepted,
    h.invited.silent, h.invited.once⟩, ?_, ?_, fun e he live _ => h.waits e he live not_false, ?_⟩
  · intro e he
    obtain ⟨s', found⟩ := h.billed e he
    obtain ⟨id, act, row⟩ := Option.bind_eq_some_iff.mp found
    by_cases same : s.id = id
    · subst same
      exact ⟨{ s with version := s.version + 1 }, by
        simp only [Registry.submissionOf, act, Option.bind_some]
        exact Table.get_put_self _ _⟩
    · exact ⟨s', by
        simp only [Registry.submissionOf, act, Option.bind_some]
        exact (get id same).trans row⟩
  · intro y hy
    simp only [rows, List.mem_append, List.mem_singleton] at hy
    rcases hy with hy | rfl
    · exact has_put (h.paid y hy)
    · exact has_put (own ▸ has)
  · intro e he live out
    have fair := h.fair e he live not_false
    refine ⟨fair.cap, fair.payment.trans ?_⟩
    have other : ∀ id, e.submissionId = some id → s.id ≠ id := by
      rintro id act rfl
      exact out ⟨e, he, rfl, act⟩
    cases act : e.submissionId with
    | none => simp [Owes, Registry.submissionOf, act]
    | some id =>
      have elsewhere := other id act
      have same : ∀ s' : Submission, s'.id = id → (Registry.paymentsOf { r with
          drawn := d, payments := payments
          submissions := r.submissions.put { s with version := s.version + 1 } } s'.id) =
          r.paymentsOf s'.id := by
        rintro s' rfl
        simp [Registry.paymentsOf, rows, own, elsewhere]
      simp only [Owes, Registry.submissionOf, act, Option.bind_some, Registry.outstandingCents,
        Registry.paidCents]
      constructor
      · rintro ⟨s', found, owed⟩
        refine ⟨s', (get id elsewhere).trans found, ?_⟩
        rw [same s' (Table.key_of_get found)]
        exact owed
      · rintro ⟨s', found, owed⟩
        have row := (get id elsewhere).symm.trans found
        refine ⟨s', row, ?_⟩
        rw [← same s' (Table.key_of_get row)]
        exact owed

theorem recordPayment_truthful {id : Uuid} {amount : Int} {currency request : String}
    {note : Option String} (h : Truthful p nobody nobody r)
    (ok : recordPayment p r id amount currency note actor request = .ok r') :
    Truthful p nobody nobody r' := by
  unfold recordPayment at ok
  simp only [bind_eq_ok, found_eq_ok] at ok
  obtain ⟨_, -, _, -, s, known, _, -, _, -, ok⟩ := ok
  obtain rfl := Table.key_of_get known
  split at ok
  · simp only [bind_eq_ok] at ok
    obtain ⟨_, -, ok⟩ := ok
    cases ok
    exact h
  · simp only [bind_eq_ok, found_eq_ok, Registry.mint] at ok
    obtain ⟨_, -, payments, inserted, ok⟩ := ok
    cases ok
    have paid := h.pay (d := r.drawn + 1) known rfl inserted
    refine (recomputeAll_truthful paid (fun _ he => List.mem_of_mem_filter he)
      ((List.filter_sublist.map Entry.id).nodup r.entries.unique)).mono (fun _ hx => hx)
      (fun x hx => hx.2 ?_)
    obtain ⟨e, he, rfl, act⟩ := hx.1
    exact List.mem_map_of_mem (List.mem_filter.mpr ⟨he, by simpa using act⟩)

end Entries
