import ShuttleWorks.Console.Drain

/-! Offline and back: when each press is stamped with the version its predecessors lead to and no
flush passes a pending command, every queued command is applied once, in the order of the presses. -/

namespace Console
open Lib Sync Operations

def SameRequest (a b : QueuedCommand) : Prop := ∀ tid, submitFn tid a = submitFn tid b

theorem SameRequest.id {a b : QueuedCommand} (h : SameRequest a b) : a.id = b.id :=
  congrArg (fun r => r.2.id) (h "")

def Issued.id (e : Issued) : Uuid := e.command.id

/-! ## The server's side of a run -/

/-- The server applied the first of the issued commands, in their order, and none of the others. -/
structure ServerSide (d : Desk) (first : LiveStore) (issued : List Issued) (applied : List Uuid)
    (server : LiveStore) : Prop where
  unique : (issued.map Issued.id).Nodup
  chain : ∀ k e, issued[k]? = some e → ∃ x request,
    (submitFn d.tid e.command).2.parse = some request ∧
      d.effect x (goalAt first issued k) request = some e.after
  order : applied = (issued.map Issued.id).take applied.length
  rows : SameRows (goalAt first issued applied.length) server
  done : ∀ e ∈ issued, e.id ∈ applied →
    (∃ row, server.commands.get e.id = some row ∧ row.appliedAt ≠ none) ∧
      HasMatch server d.tid e.command.matchId
  fresh : ∀ e ∈ issued, e.id ∉ applied → server.commands.get e.id = none

variable {e : Issued} {k : Nat} {s s' : LiveStore}

theorem goalAt_append {first : LiveStore} {issued : List Issued} (h : k ≤ issued.length) :
    goalAt first (issued ++ [e]) k = goalAt first issued k := by
  cases k with
  | zero => rfl
  | succ k => simp only [goalAt, List.getElem?_append_left h]

theorem goalAt_succ {first : LiveStore} {issued : List Issued} (h : issued[k]? = some e) :
    goalAt first issued (k + 1) = e.after := by
  simp [goalAt, h]

theorem SameRows.symm (h : SameRows s s') : SameRows s' s :=
  ⟨h.rows.symm, h.documents.symm⟩

theorem HasMatch.congr {t : Uuid} {id : String} (h : HasMatch s t id) (same : SameRows s s') :
    HasMatch s' t id := by
  obtain ⟨m, found⟩ := h
  exact ⟨m, by rw [← same.rows, found]⟩

theorem parse_eq_some {tid : Uuid} {command : QueuedCommand} {request : CommandRequest}
    (h : (submitFn tid command).2.parse = some request) :
    request.id = command.id ∧ request.matchId.val = command.matchId := by
  unfold CommandRequestBody.parse at h
  split at h
  · cases h
    exact ⟨rfl, rfl⟩
  · cases h

/-- In a list without repetitions the first `n` are those at places below `n`. -/
theorem mem_take_of_nodup {α : Type} {l : List α} (unique : l.Nodup) {n : Nat} {a : α}
    (h : l[k]? = some a) : a ∈ l.take n ↔ k < n := by
  obtain ⟨hk, rfl⟩ := List.getElem?_eq_some_iff.mp h
  rw [List.mem_take_iff_getElem]
  constructor
  · rintro ⟨i, hi, same⟩
    have := (List.Nodup.getElem_inj_iff unique).mp same
    omega
  · intro below
    exact ⟨k, by omega, rfl⟩

namespace ServerSide

variable {d : Desk} {first : LiveStore} {issued : List Issued} {applied : List Uuid}
  {server : LiveStore}

theorem length_le (h : ServerSide d first issued applied server) :
    applied.length ≤ issued.length := by
  have := congrArg List.length h.order
  simp only [List.length_take, List.length_map] at this
  omega

theorem mem_applied (h : ServerSide d first issued applied server) (found : issued[k]? = some e) :
    e.id ∈ applied ↔ k < applied.length := by
  have place : (issued.map Issued.id)[k]? = some e.id := by rw [List.getElem?_map, found]; rfl
  rw [h.order, mem_take_of_nodup h.unique place, ← h.order]

theorem subset (h : ServerSide d first issued applied server) {id : Uuid} (applies : id ∈ applied) :
    id ∈ issued.map Issued.id := by
  rw [h.order] at applies
  exact List.mem_of_mem_take applies

theorem serve_applied (h : ServerSide d first issued applied server) (found : issued[k]? = some e)
    (below : k < applied.length) (x : Ambient) :
    ∃ p, d.serve x server (submitFn d.tid e.command) = (server, .ok p) ∧ p.isReplay = true := by
  obtain ⟨x₀, request, parsed, effect⟩ := h.chain k e found
  obtain ⟨id, matchId⟩ := parse_eq_some parsed
  obtain ⟨⟨row, stored, appliedAt⟩, m, hm⟩ := h.done e (List.mem_of_getElem? found)
    ((h.mem_applied found).mpr below)
  have replay := d.replayed (x := x) (id ▸ stored) appliedAt (matchId ▸ hm)
    (Desk.effect_spec effect).2.2
  refine ⟨⟨m, row, true⟩, ?_, rfl⟩
  simp only [Desk.serve, parsed]
  exact replay

theorem serve_next (h : ServerSide d first issued applied server)
    (found : issued[applied.length]? = some e) (x : Ambient) :
    ∃ request, (submitFn d.tid e.command).2.parse = some request ∧
      Accepted request server e.after (d.serve x server (submitFn d.tid e.command)) := by
  obtain ⟨x₀, request, parsed, effect⟩ := h.chain _ e found
  obtain ⟨id, -⟩ := parse_eq_some parsed
  have fresh : server.commands.get request.id = none := by
    rw [id]
    exact h.fresh e (List.mem_of_getElem? found)
      (fun applies => absurd ((h.mem_applied found).mp applies) (Nat.lt_irrefl _))
  refine ⟨request, parsed, ?_⟩
  simp only [Desk.serve, parsed]
  exact d.effect_accepted effect h.rows fresh

theorem apply (h : ServerSide d first issued applied server)
    (found : issued[applied.length]? = some e) {s₂ : LiveStore} {row : Command}
    (same : SameRows e.after s₂) (key : row.id = e.id) (appliedAt : row.appliedAt ≠ none)
    (stored : s₂.commands = server.commands.put row) :
    ServerSide d first issued (applied ++ [e.id]) s₂ := by
  obtain ⟨x₀, request, parsed, effect⟩ := h.chain _ e found
  obtain ⟨matched, kept, -⟩ := Desk.effect_spec effect
  rw [(parse_eq_some parsed).2] at matched
  have new : e.id ∉ applied := fun applies =>
    absurd ((h.mem_applied found).mp applies) (Nat.lt_irrefl _)
  have still : ∀ id, HasMatch (goalAt first issued applied.length) d.tid id →
      HasMatch s₂ d.tid id := fun id has => (kept id has).congr same
  refine ⟨h.unique, h.chain, ?_, ?_, ?_, ?_⟩
  · have place : (issued.map Issued.id)[applied.length]? = some e.id := by
      rw [List.getElem?_map, found]
      rfl
    rw [List.length_append, List.length_singleton, List.take_add_one, place, ← h.order]
    rfl
  · rw [List.length_append, List.length_singleton, goalAt_succ found]
    exact same
  · intro e' he' applies
    rcases List.mem_append.mp applies with applies | applies
    · obtain ⟨⟨row', stored', appliedAt'⟩, has⟩ := h.done e' he' applies
      refine ⟨⟨row', ?_, appliedAt'⟩, still _ (has.congr h.rows.symm)⟩
      rw [stored, Table.get_put_of_ne _ (fun same => new (by rwa [← key, same])), stored']
    · have same' : e'.id = e.id := List.mem_singleton.mp applies
      obtain rfl := List.inj_on_of_nodup_map h.unique he' (List.mem_of_getElem? found) same'
      refine ⟨⟨row, ?_, appliedAt⟩, still _ matched⟩
      rw [stored, ← key, Table.get_put_self]
  · intro e' he' unapplied
    have other : row.id ≠ e'.id := fun same =>
      unapplied (List.mem_append_right _ (List.mem_singleton.mpr (by rw [← same, key])))
    rw [stored, Table.get_put_of_ne _ other]
    exact h.fresh e' he' (fun applies => unapplied (List.mem_append_left _ applies))

theorem press (h : ServerSide d first issued applied server) {x : Ambient}
    {request : CommandRequest} (new : ∀ e' ∈ issued, e'.id ≠ e.id)
    (unknown : server.commands.get e.id = none)
    (parsed : (submitFn d.tid e.command).2.parse = some request)
    (effect : d.effect x (goalAt first issued issued.length) request = some e.after) :
    ServerSide d first (issued ++ [e]) applied server := by
  have short := h.length_le
  have unapplied : e.id ∉ applied := by
    intro applies
    obtain ⟨e', he', same⟩ := List.mem_map.mp (h.subset applies)
    exact new e' he' same
  refine ⟨?_, ?_, ?_, ?_, ?_, ?_⟩
  · rw [List.map_append, List.map_singleton, List.nodup_append]
    refine ⟨h.unique, by simp, ?_⟩
    intro a ha b hb same
    obtain ⟨e', he', rfl⟩ := List.mem_map.mp ha
    exact new e' he' (same.trans (List.mem_singleton.mp hb))
  · intro k e' found
    by_cases old : k < issued.length
    · rw [List.getElem?_append_left old] at found
      obtain ⟨x', request', parsed', effect'⟩ := h.chain k e' found
      exact ⟨x', request', parsed', by rw [goalAt_append old.le]; exact effect'⟩
    · have place : k = issued.length := by
        have := (List.getElem?_eq_some_iff.mp found).1
        simp only [List.length_append, List.length_singleton] at this
        omega
      subst place
      simp only [List.getElem?_concat_length, Option.some.injEq] at found
      subst found
      exact ⟨x, request, parsed, by rw [goalAt_append le_rfl]; exact effect⟩
  · rw [List.map_append, List.take_append_of_le_length (by rw [List.length_map]; exact short)]
    exact h.order
  · rw [goalAt_append short]
    exact h.rows
  · intro e' he' applies
    rcases List.mem_append.mp he' with he' | he'
    · exact h.done e' he' applies
    · exact absurd (List.mem_singleton.mp he' ▸ applies) unapplied
  · intro e' he' unapplied'
    rcases List.mem_append.mp he' with he' | he'
    · exact h.fresh e' he' unapplied'
    · rw [List.mem_singleton.mp he']
      exact unknown

end ServerSide

/-! ## The console's side -/

/-- Every command kept, sent or awaited was issued; a row is pending or its command was applied; what
was sent had its predecessors applied; and no answer is a rejection. -/
structure ClientSide (d : Desk) (issued : List Issued) (applied : List Uuid)
    (lane : Lane CommandBody CommandOk) (answers : List (Uuid × SubmitResult CommandOk)) : Prop where
  stored : ∀ e ∈ issued, ∃ row, lane.rows.get e.id = some row ∧
    (row.status = .pending ∨ row.status = .applied ∧ e.id ∈ applied)
  known : ∀ row ∈ lane.rows.rows, ∃ e ∈ issued, SameRequest e.command row
  flights : ∀ f ∈ lane.flushes, f.tid = d.tid ∧ ∀ c, c ∈ f.todo ∨ f.awaiting = some c →
    ∃ e ∈ issued, SameRequest e.command c
  requests : ∀ r ∈ lane.requests, r.1 = d.tid ∧ ∃ (k : Nat) (e : Issued), issued[k]? = some e ∧
    SameRequest e.command r.2 ∧ k ≤ applied.length
  answers : ∀ a ∈ answers, (∃ r, a.2 = .ok r ∧ a.1 ∈ applied) ∨ ∃ m, a.2 = .networkError m

theorem mem_takeWhile_of_unique {issued : List Issued} (unique : (issued.map Issued.id).Nodup)
    {j : Nat} {e' : Issued} (found : issued[k]? = some e) (earlier : issued[j]? = some e')
    (before : j < k) : e' ∈ issued.takeWhile (fun x => x.command.id ≠ e.id) := by
  induction issued generalizing j k with
  | nil => cases found
  | cons first rest ih =>
    rw [List.map_cons, List.nodup_cons] at unique
    obtain ⟨head, tail⟩ := unique
    cases k with
    | zero => exact absurd before (Nat.not_lt_zero j)
    | succ k =>
      simp only [List.getElem?_cons_succ] at found
      have other : first.command.id ≠ e.id := fun same =>
        head (List.mem_map.mpr ⟨e, List.mem_of_getElem? found, same.symm⟩)
      rw [List.takeWhile_cons_of_pos (by simpa using other)]
      cases j with
      | zero =>
        cases earlier
        exact List.mem_cons_self
      | succ j =>
        exact List.mem_cons_of_mem _ (ih tail found earlier (Nat.lt_of_succ_lt_succ before))

namespace ClientSide

variable {d : Desk} {issued : List Issued} {applied applied' : List Uuid}
  {lane : Lane CommandBody CommandOk} {answers : List (Uuid × SubmitResult CommandOk)} {i : Nat}

theorem answered (h : ClientSide d issued applied lane answers)
    (more : ∀ id ∈ applied, id ∈ applied') (longer : applied.length ≤ applied'.length)
    {a : Uuid × SubmitResult CommandOk}
    (good : (∃ r, a.2 = .ok r ∧ a.1 ∈ applied') ∨ ∃ m, a.2 = .networkError m) :
    ClientSide d issued applied' lane (answers ++ [a]) := by
  refine ⟨?_, h.known, h.flights, ?_, ?_⟩
  · intro e he
    obtain ⟨row, found, status⟩ := h.stored e he
    exact ⟨row, found, status.imp id fun done => ⟨done.1, more _ done.2⟩⟩
  · intro r hr
    obtain ⟨tid, k, e, found, same, below⟩ := h.requests r hr
    exact ⟨tid, k, e, found, same, below.trans longer⟩
  · intro a' ha'
    rcases List.mem_append.mp ha' with ha' | ha'
    · rcases h.answers a' ha' with ⟨r, ok, applies⟩ | failed
      · exact .inl ⟨r, ok, more _ applies⟩
      · exact .inr failed
    · rw [List.mem_singleton.mp ha']
      exact good

theorem press (h : ClientSide d issued applied lane answers) (new : ∀ e' ∈ issued, e'.id ≠ e.id) :
    ClientSide d (issued ++ [e]) applied (lane.step (.press d.tid e.command)) answers := by
  have absent : ¬ lane.rows.Has (pressed d.tid e.command).id := by
    rw [Table.has_iff]
    rintro ⟨row, hrow, same⟩
    obtain ⟨e', he', request⟩ := h.known row hrow
    exact new e' he' (request.id.trans same)
  have rows : (lane.step (.press d.tid e.command)).rows =
      lane.rows.put (pressed d.tid e.command) := by
    simp only [Lane.step, enqueue, if_neg absent]
  refine ⟨?_, ?_, ?_, ?_, h.answers⟩
  · intro e' he'
    rw [rows]
    rcases List.mem_append.mp he' with he' | he'
    · obtain ⟨row, found, status⟩ := h.stored e' he'
      have other : (pressed d.tid e.command).id ≠ e'.id := fun same => new e' he' same.symm
      exact ⟨row, by rw [Table.get_put_of_ne _ other, found], status⟩
    · rw [List.mem_singleton.mp he']
      exact ⟨_, Table.get_put_self _ _, .inl rfl⟩
  · intro row hrow
    rw [rows] at hrow
    rcases Table.mem_put.mp hrow with rfl | ⟨hrow, -⟩
    · exact ⟨e, List.mem_append_right _ List.mem_cons_self, fun _ => rfl⟩
    · obtain ⟨e', he', same⟩ := h.known row hrow
      exact ⟨e', List.mem_append_left _ he', same⟩
  · intro f hf
    obtain ⟨tid, commands⟩ := h.flights f hf
    refine ⟨tid, fun c hc => ?_⟩
    obtain ⟨e', he', same⟩ := commands c hc
    exact ⟨e', List.mem_append_left _ he', same⟩
  · intro r hr
    obtain ⟨tid, k, e', found, same, below⟩ := h.requests r hr
    refine ⟨tid, k, e', ?_, same, below⟩
    rw [List.getElem?_append_left (List.getElem?_eq_some_iff.mp found).1]
    exact found

theorem flush (h : ClientSide d issued applied lane answers) :
    ClientSide d issued applied (lane.step (.flush d.tid)) answers := by
  refine ⟨h.stored, h.known, fun f hf => ?_, h.requests, h.answers⟩
  rcases List.mem_append.mp hf with hf | hf
  · exact h.flights f hf
  · cases List.mem_singleton.mp hf
    refine ⟨rfl, fun c hc => ?_⟩
    rcases hc with hc | hc
    · exact h.known c (mem_getPending.mp hc).1
    · cases hc

theorem send (h : ClientSide d issued applied lane answers) (unique : (issued.map Issued.id).Nodup)
    (place : ∀ {k : Nat} {e : Issued}, issued[k]? = some e → (e.id ∈ applied ↔ k < applied.length))
    (inOrder : ∀ f ∈ lane.flushes[i]?, ∀ command ∈ f.todo.head?, f.awaiting = none →
      ∀ e ∈ issued.takeWhile (fun e => e.command.id ≠ command.id),
        ∀ row ∈ lane.rows.get e.command.id, row.status ≠ .pending) :
    ClientSide d issued applied (lane.step (.send i)) answers := by
  simp only [Lane.step]
  split
  · next tid command todo outcomes found =>
    obtain ⟨tid_eq, commands⟩ := h.flights _ (List.mem_of_getElem? found)
    obtain ⟨e, he, same⟩ := commands command (.inl List.mem_cons_self)
    obtain ⟨k, hk⟩ := List.mem_iff_getElem?.mp he
    refine ⟨h.stored, h.known, ?_, ?_, h.answers⟩
    · intro f hf
      rcases List.mem_or_eq_of_mem_set hf with hf | rfl
      · exact h.flights f hf
      · refine ⟨tid_eq, fun c hc => commands c (.inl ?_)⟩
        rcases hc with hc | hc
        · exact List.mem_cons_of_mem _ hc
        · cases hc
          exact List.mem_cons_self
    · intro r hr
      rcases List.mem_append.mp hr with hr | hr
      · exact h.requests r hr
      · rw [List.mem_singleton.mp hr]
        refine ⟨tid_eq, k, e, hk, same, ?_⟩
        by_contra beyond
        obtain ⟨e', earlier⟩ : ∃ e', issued[applied.length]? = some e' := by
          have := (List.getElem?_eq_some_iff.mp hk).1
          exact ⟨_, List.getElem?_eq_getElem (by omega)⟩
        have passed := mem_takeWhile_of_unique unique hk earlier (Nat.lt_of_not_le beyond)
        rw [show e.id = command.id from same.id] at passed
        obtain ⟨row, stored, status⟩ := h.stored e' (List.mem_of_getElem? earlier)
        have answered := inOrder _ found command rfl rfl e' passed row stored
        have applies := (status.resolve_left answered).2
        exact absurd ((place earlier).mp applies) (Nat.lt_irrefl _)
  · exact h

theorem settle (h : ClientSide d issued applied lane answers) {result : SubmitResult CommandOk}
    (good : ∀ f ∈ lane.flushes[i]?, ∀ command ∈ f.awaiting,
      (∃ r, result = .ok r ∧ command.id ∈ applied) ∨ ∃ m, result = .networkError m) :
    ClientSide d issued applied (lane.step (.settle i result)) answers := by
  simp only [Lane.step]
  split
  · next tid todo command outcomes found =>
    have good := good _ found command rfl
    obtain ⟨tid_eq, commands⟩ := h.flights _ (List.mem_of_getElem? found)
    -- the rows under other ids stay; the one under the command's id keeps its request
    have written : ∃ f : Queued CommandBody → Queued CommandBody,
        markResult lane.rows command.id result = rewrite lane.rows command.id f ∧
          (∀ row, SameRequest row { f row with id := row.id }) ∧
          ∀ row, (f row).status = row.status ∨
            (f row).status = .applied ∧ command.id ∈ applied := by
      rcases good with ⟨r, rfl, applies⟩ | ⟨m, rfl⟩
      · exact ⟨_, rfl, fun row tid => rfl, fun row => .inr ⟨rfl, applies⟩⟩
      · exact ⟨_, rfl, fun row tid => rfl, fun row => .inl rfl⟩
    obtain ⟨f, marked, request, status⟩ := written
    refine ⟨?_, ?_, ?_, h.requests, h.answers⟩
    · intro e he
      obtain ⟨row, stored, before⟩ := h.stored e he
      rw [marked, get_rewrite]
      split
      · next same =>
        rw [same, stored]
        refine ⟨_, rfl, ?_⟩
        rcases status row with kept | ⟨now, applies⟩
        · exact before.imp kept.trans fun done => ⟨kept.trans done.1, done.2⟩
        · exact .inr ⟨now, same ▸ applies⟩
      · exact ⟨row, stored, before⟩
    · intro row hrow
      have found' := Table.get_eq_some_iff.mpr ⟨hrow, rfl⟩
      rw [marked, get_rewrite] at found'
      split at found'
      · obtain ⟨old, stored, rfl⟩ := Option.map_eq_some_iff.mp found'
        obtain ⟨e, he, same⟩ := h.known old (Table.mem_of_get stored)
        refine ⟨e, he, fun tid => (same tid).trans ?_⟩
        have := request old tid
        rwa [show old.id = command.id from Table.key_of_get stored] at this
      · exact h.known row (Table.mem_of_get found')
    · intro f' hf'
      rcases List.mem_or_eq_of_mem_set hf' with hf' | rfl
      · exact h.flights f' hf'
      · refine ⟨tid_eq, fun c hc => commands c (hc.imp id ?_)⟩
        intro hc
        cases hc
  · exact h

theorem close (h : ClientSide d issued applied lane answers) (i : Nat) :
    ClientSide d issued applied (lane.step (.close i)) answers :=
  ⟨h.stored, h.known, fun f hf => h.flights f (List.mem_of_mem_eraseIdx hf), h.requests, h.answers⟩

end ClientSide

/-! ## Runs -/

/-- An empty queue before the server `first`. -/
def Started (first : LiveStore) (w : World) : Prop :=
  w.lane = ⟨.empty, [], []⟩ ∧ w.server = first ∧ w.answers = [] ∧ w.issued = [] ∧ w.applied = []

/-- The moves of a run: legal, and as orderly as the queue needs them. -/
def WorldSteps (d : Desk) (first : LiveStore) (w : World) (m : WorldMove) (w' : World) : Prop :=
  w.Legal d first m ∧ w.Orderly d first m ∧ w' = w.step d first m

structure Sides (d : Desk) (first : LiveStore) (w : World) : Prop where
  server : ServerSide d first w.issued w.applied w.server
  client : ClientSide d w.issued w.applied w.lane w.answers

section
variable {d : Desk} {first : LiveStore} {w : World}

theorem Sides.press (h : Sides d first w) {p : Press} (legal : w.Legal d first (.press p))
    (orderly : w.Orderly d first (.press p)) : Sides d first (w.step d first (.press p)) := by
  obtain ⟨unknown, new, accepted⟩ := legal
  have stamped : { w.command d p with seenVersion := (w.goal first).versionOf d.tid p.matchId } =
      w.command d p := by
    rw [← show w.seenVersion p = _ from orderly]
    rfl
  rw [stamped] at accepted
  simp only [World.step, stamped]
  obtain ⟨after, effect⟩ := Option.isSome_iff_exists.mp accepted
  obtain ⟨request, parsed, effect'⟩ := Option.bind_eq_some_iff.mp effect
  rw [effect, Option.getD_some]
  exact ⟨h.server.press new unknown parsed effect', h.client.press new⟩

theorem Sides.deliver (h : Sides d first w) (n : Nat) (x : Ambient) :
    Sides d first (w.step d first (.deliver n x)) := by
  simp only [World.step]
  split
  · exact h
  · next tid command found =>
    obtain ⟨rfl, k, e, place, same, below⟩ := h.client.requests _ (List.mem_of_getElem? found)
    dsimp only at same
    rw [← same d.tid]
    rcases Nat.lt_or_eq_of_le below with below | rfl
    · obtain ⟨p, served, replay⟩ := h.server.serve_applied place below x
      rw [served]
      obtain ⟨m, row, _⟩ := p
      cases replay
      refine ⟨h.server, h.client.answered (fun _ h => h) le_rfl (.inl ⟨_, rfl, ?_⟩)⟩
      rw [← same.id]
      exact (h.server.mem_applied place).mpr below
    · obtain ⟨request, parsed, accepted⟩ := h.server.serve_next place x
      generalize d.serve x w.server (submitFn d.tid e.command) = out at accepted ⊢
      cases accepted with
      | @applied p s₂ row fresh rows key appliedAt stored =>
        obtain ⟨m, row', _⟩ := p
        cases fresh
        rw [(parse_eq_some parsed).1] at key
        dsimp only
        rw [← same.id]
        refine ⟨h.server.apply place rows key appliedAt stored, ?_⟩
        refine h.client.answered (fun id applies => List.mem_append_left _ applies) (by simp) ?_
        exact .inl ⟨_, rfl, List.mem_append_right _ List.mem_cons_self⟩
      | @failed error plain =>
        refine ⟨h.server, h.client.answered (fun _ h => h) le_rfl (.inr ?_)⟩
        cases error with
        | conflict k => exact absurd rfl (plain k)
        | _ => exact ⟨_, rfl⟩

theorem Sides.receive (h : Sides d first w) (i n : Nat) :
    Sides d first (w.step d first (.receive i n)) := by
  simp only [World.step]
  split
  · next command _ id result waiting given =>
    split
    · next same =>
      refine ⟨h.server, h.client.settle ?_⟩
      intro f hf command' hc
      cases waiting.symm.trans hf
      cases hc
      rw [← same]
      exact h.client.answers _ (List.mem_of_getElem? given)
    · exact h
  · exact h

theorem Sides.step (h : Sides d first w) {m : WorldMove} {w' : World}
    (step : WorldSteps d first w m w') : Sides d first w' := by
  obtain ⟨legal, orderly, rfl⟩ := step
  cases m with
  | press p => exact h.press legal orderly
  | flush => exact ⟨h.server, h.client.flush⟩
  | send i => exact ⟨h.server, h.client.send h.server.unique h.server.mem_applied orderly⟩
  | deliver n x => exact h.deliver n x
  | receive i n => exact h.receive i n
  | fail i => exact ⟨h.server, h.client.settle fun _ _ _ _ => .inr ⟨_, rfl⟩⟩
  | close i => exact ⟨h.server, h.client.close i⟩
  | finish i id matchId refetched =>
    simp only [World.step]
    split
    · exact ⟨h.server, h.client.close i⟩
    · exact h
  | reload => exact ⟨h.server, h.client⟩

end

theorem sides_of_run {d : Desk} {first : LiveStore} {w : World}
    (run : Reachable (Started first) (WorldSteps d first) w) : Sides d first w := by
  refine run.invariant ?_ (fun _ _ _ _ h step => h.step step)
  rintro w ⟨lane, server, answers, issued, applied⟩
  constructor
  · rw [server, issued, applied]
    exact ⟨List.nodup_nil, fun _ _ found => absurd found (by simp), rfl, ⟨rfl, rfl⟩,
      List.forall_mem_nil _, List.forall_mem_nil _⟩
  · rw [lane, answers, issued, applied]
    exact ⟨List.forall_mem_nil _, List.forall_mem_nil _, List.forall_mem_nil _,
      List.forall_mem_nil _, List.forall_mem_nil _⟩

/-- **Queued commands are applied in order.** In every run of legal presses, flushes and reconnect
drains, with requests and answers lost or late, in which each press is stamped with the version its
predecessors lead to and no flush passes a pending command: the server applies a beginning of the
issued commands in their order, no answer and no row is a rejection, and when nothing is pending
everything was applied. -/
theorem queued_commands_applied {d : Desk} {first : LiveStore} {w : World}
    (run : Reachable (Started first) (WorldSteps d first) w) :
    (w.applied <+: w.issued.map Issued.id) ∧
      (∀ row ∈ w.lane.rows.rows, row.status = .pending ∨ row.status = .applied) ∧
      (∀ a ∈ w.answers, ∀ m, a.2 ≠ .staleVersion m ∧ a.2 ≠ .conflict m) ∧
      ((∀ row ∈ w.lane.rows.rows, row.status ≠ .pending) →
        w.applied = w.issued.map Issued.id) := by
  obtain ⟨server, client⟩ := sides_of_run run
  refine ⟨?_, ?_, ?_, fun settled => ?_⟩
  · rw [server.order]
    exact List.take_prefix _ _
  · intro row hrow
    obtain ⟨e, he, same⟩ := client.known row hrow
    obtain ⟨row', stored, status⟩ := client.stored e he
    have key : row.id = e.id := same.id.symm
    rw [Table.get_eq_some_iff] at stored
    obtain rfl := Table.eq_of_key_eq hrow stored.1 (key.trans stored.2.symm)
    exact status.imp id And.left
  · intro a ha m
    rcases client.answers a ha with ⟨r, ok, -⟩ | ⟨m', failed⟩
    · rw [ok]
      exact ⟨nofun, nofun⟩
    · rw [failed]
      exact ⟨nofun, nofun⟩
  · have all : ∀ e ∈ w.issued, e.id ∈ w.applied := by
      intro e he
      obtain ⟨row, stored, status⟩ := client.stored e he
      exact (status.resolve_left (settled row (Table.mem_of_get stored))).2
    have whole : w.issued.length ≤ w.applied.length := by
      by_contra short
      obtain ⟨e, place⟩ : ∃ e, w.issued[w.applied.length]? = some e :=
        ⟨_, List.getElem?_eq_getElem (by omega)⟩
      exact absurd ((server.mem_applied place).mp (all e (List.mem_of_getElem? place)))
        (Nat.lt_irrefl _)
    rw [server.order, List.take_of_length_le (by rw [List.length_map]; exact whole)]

namespace ReconnectRehearsal

open Sync.Rehearsal (eventId director)
open ImportRehearsal (settings ambient)
open CourtsideRehearsal (crowded)

def desk : Desk := ⟨settings, eventId, director⟩

def press (id : Uuid) (action : MatchAction) (createdAt : Nat) : Press where
  id := id
  matchId := CourtsideRehearsal.first
  action := action
  payload := []
  createdAt := createdAt
  coldRead := some 1
  ambient := ambient

def call : Press := press "88888888-8888-4888-8888-888888888888" .callToCourt 100
def start : Press := press "99999999-9999-4999-8999-999999999999" .startMatch 200

def opened : World := { lane := ⟨.empty, [], []⟩, server := crowded }

def reconnected : List WorldMove :=
  [.press call, .flush, .send 0, .fail 0, .flush, .send 1, .deliver 1 ambient, .receive 1 0]

def overtaken : List WorldMove :=
  [.press call, .flush, .send 0, .fail 0, .press start, .flush, .send 1, .deliver 1 ambient,
    .receive 1 0, .send 1, .deliver 2 ambient, .receive 1 1]

def after (w : World) (ms : List WorldMove) : World := ms.foldl (fun w m => w.step desk crowded m) w

def AllLegal (w : World) : List WorldMove → Prop
  | [] => True
  | m :: ms => w.Legal desk crowded m ∧ AllLegal (w.step desk crowded m) ms

def AllOrderly (w : World) : List WorldMove → Prop
  | [] => True
  | m :: ms => w.Orderly desk crowded m ∧ AllOrderly (w.step desk crowded m) ms

instance AllLegal.decidable : (w : World) → (ms : List WorldMove) → Decidable (AllLegal w ms)
  | _, [] => .isTrue trivial
  | w, m :: ms =>
    have := AllLegal.decidable (w.step desk crowded m) ms
    inferInstanceAs (Decidable (_ ∧ _))

instance AllOrderly.decidable : (w : World) → (ms : List WorldMove) → Decidable (AllOrderly w ms)
  | _, [] => .isTrue trivial
  | w, m :: ms =>
    have := AllOrderly.decidable (w.step desk crowded m) ms
    inferInstanceAs (Decidable (_ ∧ _))

theorem reachable_after {w : World} (h : Reachable (Started crowded) (WorldSteps desk crowded) w)
    {ms : List WorldMove} (legal : AllLegal w ms) (orderly : AllOrderly w ms) :
    Reachable (Started crowded) (WorldSteps desk crowded) (after w ms) := by
  induction ms generalizing w with
  | nil => exact h
  | cons m ms ih => exact ih (.step h ⟨legal.1, orderly.1, rfl⟩) legal.2 orderly.2

end ReconnectRehearsal

open ReconnectRehearsal CourtsideRehearsal in
theorem queued_commands_applied_reconnected :
    (after opened reconnected).applied = [call.id] := by
  have run : Reachable (Started crowded) (WorldSteps desk crowded) (after opened reconnected) :=
    reachable_after (.init ⟨rfl, rfl, rfl, rfl, rfl⟩) (by decide +kernel) (by decide +kernel)
  rw [(queued_commands_applied run).2.2.2 (by decide +kernel)]
  decide +kernel

open ReconnectRehearsal CourtsideRehearsal in
/-- Two legal commands for one match pressed offline: once the network is back the second is
permanently rejected as stale. -/
theorem second_press_rejected :
    let w := after opened overtaken
    AllLegal opened overtaken ∧ w.applied = [call.id] ∧
      w.issued.map Issued.id = [call.id, start.id] ∧
      (w.lane.rows.get start.id).map Queued.status = some .rejected := by
  refine ⟨?_, ?_, ?_, ?_⟩
  · decide +kernel
  · decide +kernel
  · decide +kernel
  · decide +kernel

end Console
