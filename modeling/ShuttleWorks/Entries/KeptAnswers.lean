import ShuttleWorks.Entries.Recording

/-! What a transaction has recorded is right against the committed rows, whatever the others
commit meanwhile: its acts are new, under keys of their own, and each answer names an act with
all of its entries. -/

namespace Entries
open Lib
open Sync (Uuid)

variable {p : Platform} {r : Registry} {call : CreateCall} {cs : List Core} {a : CreateAnswer}
  {account : Uuid}

/-! ## Answers -/

theorem Known.mono {acts acts' : List Submission} {cs' : List Core} {staff staff' : Uuid → Prop}
    (h : Known acts cs staff a) (more : ∀ s ∈ acts, s ∈ acts')
    (same : ∀ s ∈ acts, s.id = a.result.submission → ofAct cs' s.id = ofAct cs s.id)
    (stay : ∀ id, staff id → staff' id) : Known acts' cs' staff' a := by
  obtain ⟨s, hs, id, act, entries, entered, players⟩ := h
  refine ⟨s, more s hs, id, act, ?_, fun fresh => ?_, fun id mem => stay id (players id mem)⟩
  · rw [same s hs id]
    exact entries
  · rw [same s hs id]
    exact entered fresh

theorem replay_eq_some {key : Option String} {result : SubmissionResult}
    (h : replay r key account = some result) : ∃ s ∈ r.submissions.rows, s.accountId = account ∧
      s.idempotencyKey = key.filter (fun k => k ≠ "") ∧ s.idempotencyKey ≠ none ∧
      result = { submission := s.id, entries := (ofAct (cores r) s.id).map Core.id,
                 replayed := true } := by
  unfold replay at h
  split at h
  · cases h
  · next key =>
    split at h
    · cases h
    · next nonempty =>
      obtain ⟨s, found, rfl⟩ := Option.map_eq_some_iff.mp h
      have mem := List.mem_of_find?_eq_some found
      have same := List.find?_some found
      simp only [decide_eq_true_eq] at same
      refine ⟨s, mem, same.1, ?_, by simp [same.2], ?_⟩
      · rw [same.2]
        simp [Option.filter, nonempty]
      · rw [ids_entriesOf]

theorem replay_eq_none {key : Option String} : replay r key account = none ↔
    ∀ s ∈ r.submissions.rows, s.accountId = account →
      s.idempotencyKey = key.filter (fun k => k ≠ "") → s.idempotencyKey = none := by
  unfold replay
  split
  · simp [Option.filter]
  · next key =>
    split
    · next empty => simp [Option.filter, empty]
    · next nonempty =>
      simp only [findByIdempotencyKey, Option.map_eq_none_iff, List.find?_eq_none,
        decide_eq_true_eq, not_and]
      constructor
      · intro h s hs account same
        exact absurd (by simpa [Option.filter, nonempty] using same) (h s hs account)
      · intro h s hs account same
        have none := h s hs account (by simp [Option.filter, nonempty, same])
        simp [none] at same

theorem known_of_replay {result : SubmissionResult}
    (h : replay r call.form.idempotencyKey call.form.accountId = some result)
    (staff : Uuid → Prop) : Known r.submissions.rows (cores r) staff ⟨call, result, []⟩ := by
  obtain ⟨s, hs, account, key, -, rfl⟩ := replay_eq_some h
  exact ⟨s, hs, rfl, ⟨account, key⟩, rfl, fun fresh => by simp at fresh, by simp⟩

theorem replayed_of_replay {result : SubmissionResult} {key : Option String}
    (h : replay r key account = some result) : result.replayed = true := by
  obtain ⟨s, -, -, -, -, rfl⟩ := replay_eq_some h
  rfl

/-! ## The committed rows -/

/-- The committed rows and the answers given so far: every act that was not there at first is
named by the one answer that recorded it. -/
structure Sane (first : List Uuid) (books : Books) : Prop where
  unique : UniqueKeys books.registry.submissions.rows
  billed : ∀ c ∈ cores books.registry, ∀ id, c.submissionId = some id →
    books.registry.submissions.Has id
  known : ∀ a ∈ books.answers, Known books.registry.submissions.rows (cores books.registry)
    books.registry.players.Has a
  counted : books.registry.submissions.rows.map Submission.id = first ++ recorded books.answers

/-! ## The work of a transaction -/

/-- What a transaction wrote and answered, and the act it is at. -/
structure Sound (store : Registry) (ws : List RowWrite) (answers : List CreateAnswer)
    (current : List Uuid) (relied : List Core) (acts : List Submission) (created : List Core) :
    Prop where
  adds : Adds ws relied acts created
  there : ∀ c ∈ relied, c ∈ cores store
  newActs : ∀ s ∈ acts, ¬ store.submissions.Has s.id
  newEntries : ∀ c ∈ created, ¬ store.entries.Has c.id
  unique : UniqueKeys (store.submissions.rows ++ acts)
  owned : ∀ c ∈ created, ∃ s ∈ acts, c.submissionId = some s.id
  named : recorded answers ++ current = acts.map Submission.id
  settled : ∀ a ∈ answers, a.result.submission ∉ current
  known : ∀ a ∈ answers, Known (store.submissions.rows ++ acts) (cores store ++ created)
    (store.writeAll ws).players.Has a
  unwritten : recorded answers = [] →
    ∀ a ∈ answers, Known store.submissions.rows (cores store) store.players.Has a

theorem ofAct_eq_nil {acts : List Submission} {act : Uuid}
    (owned : ∀ c ∈ cs, ∃ s ∈ acts, c.submissionId = some s.id) (other : ∀ s ∈ acts, s.id ≠ act) :
    ofAct cs act = [] := by
  apply List.filter_eq_nil_iff.mpr
  intro c hc
  obtain ⟨s, hs, same⟩ := owned c hc
  simpa [same] using other s hs

namespace Sound

variable {store : Registry} {ws ws' : List RowWrite} {answers answers' : List CreateAnswer}
  {current current' : List Uuid} {relied relied' : List Core} {acts acts' : List Submission}
  {created created' : List Core}

theorem nothing (sane : UniqueKeys store.submissions.rows) {answers : List CreateAnswer}
    (none : recorded answers = [])
    (known : ∀ a ∈ answers, Known store.submissions.rows (cores store) store.players.Has a) :
    Sound store [] answers [] [] [] [] where
  adds := .nothing
  there := by simp
  newActs := by simp
  newEntries := by simp
  unique := by simpa using sane
  owned := by simp
  named := by simp [none]
  settled := by simp
  known := by simpa using known
  unwritten _ := known

variable (h : Sound store ws answers current relied acts created)
include h

theorem submissions : (store.writeAll ws).submissions.rows = store.submissions.rows ++ acts :=
  h.adds.submissions store h.newActs

theorem entries : cores (store.writeAll ws) = cores store ++ created :=
  h.adds.entries store h.there h.newEntries

theorem rewrite (quiet : ∀ w ∈ ws', Rewrites (relied' ++ created) w)
    (there : ∀ c ∈ relied', c ∈ cores store) :
    Sound store (ws ++ ws') answers current (relied ++ relied') acts created :=
  { h with
    adds := h.adds.rewrite quiet
    there := fun c hc => (List.mem_append.mp hc).elim (h.there c) (there c)
    known := fun a ha => (h.known a ha).mono (fun _ hs => hs) (fun _ _ _ => rfl) fun _ =>
      has_player_append }

theorem players (only : ∀ w ∈ ws', ∃ x, w = .player x) :
    Sound store (ws ++ ws') answers current (relied ++ []) acts created := by
  apply h.rewrite
  · intro w hw
    obtain ⟨x, rfl⟩ := only w hw
    trivial
  · simp

theorem again {r r' : Registry} (view : cores r = cores (store.writeAll ws))
    (entries : cores r' = cores r) (submissions : r'.submissions = r.submissions) :
    Sound store (ws ++ r.changes r') answers current (relied ++ cores store) acts created := by
  apply h.rewrite
  · intro w hw
    simp only [Registry.changes, submissions, Table.changes_self, List.map_nil, List.nil_append,
      List.mem_append, List.mem_map] at hw
    rcases hw with (⟨x, -, rfl⟩ | ⟨e, written, rfl⟩) | ⟨i, -, rfl⟩
    · trivial
    · have mem : e.core ∈ cores r' := List.mem_map_of_mem (Table.mem_changes.mp written).1
      rwa [entries, view, h.entries] at mem
    · trivial
  · exact fun c hc => hc

theorem replays (idle : current = []) {r : Registry} {result : SubmissionResult}
    (view : r.submissions = (store.writeAll ws).submissions ∧ cores r = cores (store.writeAll ws))
    (found : replay r call.form.idempotencyKey call.form.accountId = some result) :
    Sound store ws (answers ++ [⟨call, result, []⟩]) current relied acts created := by
  have known := fun staff => known_of_replay found staff
  rw [view.1, view.2, h.submissions, h.entries] at known
  have replayed := replayed_of_replay found
  have silent : recorded (answers ++ [⟨call, result, []⟩]) = recorded answers := by
    rw [recorded_append]
    simp [recorded, replayed]
  subst idle
  refine { h with
    named := silent.symm ▸ h.named
    settled := by simp
    known := ?_
    unwritten := ?_ }
  · intro a ha
    rcases List.mem_append.mp ha with ha | ha
    · exact h.known a ha
    · rw [List.mem_singleton.mp ha]
      exact known _
  · intro none a ha
    rw [silent] at none
    have empty : acts = [] := by simpa [none] using h.named.symm
    have noEntries : created = [] := by
      apply List.eq_nil_iff_forall_not_mem.mpr
      intro c hc
      obtain ⟨s, hs, -⟩ := h.owned c hc
      simp [empty] at hs
    rcases List.mem_append.mp ha with ha | ha
    · exact h.unwritten none a ha
    · rw [List.mem_singleton.mp ha]
      simpa [empty, noEntries] using known store.players.Has

theorem inserts (idle : current = []) {r : Registry} {id : Uuid}
    (view : r.submissions = (store.writeAll ws).submissions) (free : ¬ KeyTaken r call.form)
    (new : ¬ r.submissions.Has id) :
    Sound store (ws ++ [.submission (call.submission id)]) answers [id] relied
      (acts ++ [call.submission id]) created := by
  have rows : r.submissions.rows = store.submissions.rows ++ acts := view ▸ h.submissions
  rw [Table.Has, rows, List.map_append, List.mem_append, not_or] at new
  subst idle
  have others : ∀ s ∈ store.submissions.rows ++ acts, s.id ≠ id := by
    intro s hs same
    rcases List.mem_append.mp hs with hs | hs
    · exact new.1 (List.mem_map.mpr ⟨s, hs, same⟩)
    · exact new.2 (List.mem_map.mpr ⟨s, hs, same⟩)
  refine { h with
    adds := h.adds.act fun s hs => others s (List.mem_append_right _ hs)
    newActs := ?_
    unique := ?_
    owned := ?_
    named := ?_
    settled := ?_
    known := ?_ }
  · intro s hs
    rcases List.mem_append.mp hs with hs | hs
    · exact h.newActs s hs
    · rw [List.mem_singleton.mp hs]
      exact new.1
  · rw [← List.append_assoc]
    refine List.pairwise_append.mpr ⟨h.unique, List.pairwise_singleton _ _, ?_⟩
    intro s hs s' hs' same
    rw [List.mem_singleton.mp hs'] at same
    obtain ⟨account, key, keyed⟩ := same
    exact free (keyTaken_iff.mpr ⟨s, rows ▸ hs, account, key, keyed⟩)
  · intro c hc
    obtain ⟨s, hs, same⟩ := h.owned c hc
    exact ⟨s, List.mem_append_left _ hs, same⟩
  · rw [List.map_append, ← h.named, List.append_nil]
    rfl
  · intro a ha same
    obtain ⟨s, hs, named, -⟩ := h.known a ha
    exact others s hs (named.trans (List.mem_singleton.mp same))
  · intro a ha
    refine (h.known a ha).mono (fun s hs => ?_) (fun s _ _ => rfl) fun _ =>
      has_player_append
    rw [← List.append_assoc]
    exact List.mem_append_left _ hs

theorem enters {r : Registry} {act : Uuid} {e : Entry} (at_act : current = [act])
    (view : cores r = cores (store.writeAll ws)) (of_act : e.core.submissionId = some act)
    (new : ¬ r.entries.Has e.id) :
    Sound store (ws ++ [.entry e]) answers current relied acts (created ++ [e.core]) := by
  rw [has_iff_mem_cores, view, h.entries, List.map_append, List.mem_append, not_or,
    ← has_iff_mem_cores] at new
  refine { h with
    adds := h.adds.entry fun c hc same => new.2 (List.mem_map.mpr ⟨c, hc, same⟩)
    newEntries := ?_
    owned := ?_
    known := ?_ }
  · intro c hc
    rcases List.mem_append.mp hc with hc | hc
    · exact h.newEntries c hc
    · rw [List.mem_singleton.mp hc]
      exact new.1
  · intro c hc
    rcases List.mem_append.mp hc with hc | hc
    · exact h.owned c hc
    · have mem : act ∈ acts.map Submission.id := by simp [← h.named, at_act]
      obtain ⟨s, hs, rfl⟩ := List.mem_map.mp mem
      exact ⟨s, hs, List.mem_singleton.mp hc ▸ of_act⟩
  · intro a ha
    refine (h.known a ha).mono (fun s hs => hs) (fun s _ named => ?_) fun _ =>
      has_player_append
    have other : act ≠ s.id := by
      rintro rfl
      exact h.settled a ha (by simp [at_act, named])
    rw [← List.append_assoc, ofAct_append _ [e.core]]
    simp [ofAct, of_act, other]

theorem completes {act : Uuid} {players : List Uuid} (invites : List (Uuid × String))
    (at_act : current = [act]) (mem : call.submission act ∈ acts)
    (billed : ∀ c ∈ cores store, ∀ id, c.submissionId = some id → store.submissions.Has id)
    (entered : Entered call.form.players players (ofAct created act))
    (staffed : ∀ id ∈ players, (store.writeAll ws).players.Has id) :
    Sound store ws (answers ++ [⟨call,
      { submission := act, entries := (ofAct created act).map Core.id, invites := invites },
      players⟩]) [] relied acts created := by
  have none : ofAct (cores store) act = [] := by
    apply List.filter_eq_nil_iff.mpr
    intro c hc
    simp only [decide_eq_true_eq]
    intro same
    exact h.newActs _ mem (billed c hc act same)
  have rows : ofAct (cores store ++ created) act = ofAct created act := by
    rw [ofAct_append, none, List.nil_append]
  refine { h with
    named := ?_
    settled := by simp
    known := ?_
    unwritten := ?_ }
  · rw [← h.named, recorded_append, at_act, List.append_nil]
    rfl
  · intro a ha
    rcases List.mem_append.mp ha with ha | ha
    · exact h.known a ha
    · rw [List.mem_singleton.mp ha]
      refine ⟨call.submission act, List.mem_append_right _ mem, rfl, actOf_submission call act, ?_,
        fun _ => ?_, staffed⟩
      · show _ = (ofAct (cores store ++ created) act).map Core.id
        rw [rows]
      · show Entered _ _ (ofAct (cores store ++ created) act)
        rw [rows]
        exact entered
  · intro none
    rw [recorded_append] at none
    simp [recorded] at none

/-! ## Commits -/

theorem commits (idle : current = []) {first : List Uuid} {given : List CreateAnswer}
    (sane : Sane first ⟨store, given⟩) : Sane first ⟨store.writeAll ws, given ++ answers⟩ where
  unique := by
    rw [h.submissions]
    exact h.unique
  billed := by
    intro c hc id same
    have ids : ∀ i, (store.writeAll ws).submissions.Has i ↔
        store.submissions.Has i ∨ i ∈ acts.map Submission.id := by
      intro i
      rw [Table.Has, h.submissions, List.map_append, List.mem_append]
      rfl
    rw [ids]
    rcases List.mem_append.mp (h.entries ▸ hc) with hc | hc
    · exact .inl (sane.billed c hc id same)
    · obtain ⟨s, hs, own⟩ := h.owned c hc
      rw [Option.some.inj (same.symm.trans own)]
      exact .inr (List.mem_map_of_mem hs)
  known := by
    rw [h.submissions, h.entries]
    intro a ha
    rcases List.mem_append.mp ha with ha | ha
    · refine (sane.known a ha).mono (fun s hs => List.mem_append_left _ hs) (fun s hs _ => ?_)
        fun id has => has_player_writeAll.mpr (.inl has)
      have none : ofAct created s.id = [] := by
        apply ofAct_eq_nil h.owned
        intro s' hs' same
        exact h.newActs s' hs' (Table.has_iff.mpr ⟨s, hs, same.symm⟩)
      rw [ofAct_append, none, List.append_nil]
    · exact h.known a ha
  counted := by
    have named := h.named
    rw [idle, List.append_nil] at named
    rw [h.submissions, List.map_append, sane.counted, recorded_append, named, List.append_assoc]

omit h in
theorem acts_apart (adds : Adds ws relied acts created) (adds' : Adds ws' relied' acts' created')
    (apart : List.Disjoint (ws.flatMap RowWrite.keys) (ws'.flatMap RowWrite.keys))
    {s s' : Submission} (hs : s ∈ acts) (hs' : s' ∈ acts') : s.id ≠ s'.id ∧ ¬ SameKey s s' := by
  have held := adds.heldActs s hs
  have held' := adds'.heldActs s' hs'
  constructor
  · intro same
    exact apart (held (.submission s.id) (by simp [RowWrite.keys]))
      (held' (.submission s.id) (by simp [RowWrite.keys, same]))
  · rintro ⟨account, key, keyed⟩
    obtain ⟨k, given⟩ := Option.ne_none_iff_exists'.mp keyed
    exact apart (held (.act s.accountId k) (by simp [RowWrite.keys, given]))
      (held' (.act s.accountId k) (by simp [RowWrite.keys, ← key, given, account]))

theorem keeps {more : List Submission} {ws' : List RowWrite}
    (known : Known (store.submissions.rows ++ more) (cores store ++ cs)
      (store.writeAll ws').players.Has a) (other : ∀ s ∈ more, ∀ s' ∈ acts, s'.id ≠ s.id) :
    Known ((store.writeAll ws).submissions.rows ++ more) (cores (store.writeAll ws) ++ cs)
      ((store.writeAll ws).writeAll ws').players.Has a := by
  rw [h.submissions, h.entries]
  refine known.mono (fun s hs => ?_) (fun s hs _ => ?_) fun id has => ?_
  · rcases List.mem_append.mp hs with hs | hs
    · exact List.mem_append_left _ (List.mem_append_left _ hs)
    · exact List.mem_append_right _ hs
  · have none : ofAct created s.id = [] := by
      apply ofAct_eq_nil h.owned
      rcases List.mem_append.mp hs with hs | hs
      · intro s' hs' same
        exact h.newActs s' hs' (Table.has_iff.mpr ⟨s, hs, same.symm⟩)
      · exact other s hs
    rw [ofAct_append, ofAct_append, ofAct_append, none, List.append_nil]
  · exact has_player_under has

theorem keeps_stored (known : Known store.submissions.rows (cores store) store.players.Has a) :
    Known (store.writeAll ws).submissions.rows (cores (store.writeAll ws))
      (store.writeAll ws).players.Has a := by
  have kept : Known ((store.writeAll ws).submissions.rows ++ []) (cores (store.writeAll ws) ++ [])
      ((store.writeAll ws).writeAll []).players.Has a :=
    h.keeps (by simpa using known) (by simp)
  simpa using kept

theorem rebase (h' : Sound store ws' answers' current' relied' acts' created')
    (apart : List.Disjoint (ws.flatMap RowWrite.keys) (ws'.flatMap RowWrite.keys)) :
    Sound (store.writeAll ws) ws' answers' current' relied' acts' created' := by
  have acts_apart : ∀ {s s'}, s ∈ acts → s' ∈ acts' → s.id ≠ s'.id ∧ ¬ SameKey s s' :=
    fun hs hs' => Sound.acts_apart h.adds h'.adds apart hs hs'
  refine { h' with
    there := ?_
    newActs := ?_
    newEntries := ?_
    unique := ?_
    known := ?_
    unwritten := ?_ }
  · intro c hc
    rw [h.entries]
    exact List.mem_append_left _ (h'.there c hc)
  · intro s hs
    rw [Table.Has, h.submissions, List.map_append, List.mem_append, not_or]
    refine ⟨h'.newActs s hs, fun mem => ?_⟩
    obtain ⟨s', hs', same⟩ := List.mem_map.mp mem
    exact (acts_apart hs' hs).1 same
  · intro c hc
    rw [has_iff_mem_cores, h.entries, List.map_append, List.mem_append, not_or,
      ← has_iff_mem_cores]
    refine ⟨h'.newEntries c hc, fun mem => ?_⟩
    obtain ⟨c', hc', same⟩ := List.mem_map.mp mem
    exact apart (same ▸ h.adds.heldEntries c' hc') (h'.adds.heldEntries c hc)
  · rw [h.submissions]
    obtain ⟨-, own, cross⟩ := List.pairwise_append.mp h'.unique
    refine List.pairwise_append.mpr ⟨h.unique, own, fun s hs s' hs' => ?_⟩
    rcases List.mem_append.mp hs with hs | hs
    · exact cross s hs s' hs'
    · exact (acts_apart hs hs').2
  · intro a ha
    exact h.keeps (h'.known a ha) fun s hs s' hs' => (acts_apart hs' hs).1
  · intro none a ha
    exact h.keeps_stored (h'.unwritten none a ha)

end Sound

end Entries
