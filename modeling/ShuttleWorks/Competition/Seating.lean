import ShuttleWorks.Competition.Roster
import ShuttleWorks.Lib.Tally

/-! Players seated in the units of an event. On rows whose unique keys stand no write of a
membership fails while the units are pending, and afterwards whoever has a seat sits there. -/

namespace Competition
open Lib Entries
open Sync (Uuid)

variable {p : Platform} {ws ws' ws'' : Workspace} {event : Uuid} {m : UnitMembership}

/-! ## Sound rows -/

/-- The identity is on no row. -/
structure Workspace.Unused (ws : Workspace) (id : Uuid) : Prop where
  events : ¬ ws.events.Has id
  units : ¬ ws.units.Has id
  memberships : ¬ ws.memberships.Has id
  draws : ∀ d ∈ ws.draws.rows, d.competitionEventId ≠ id

/-- The unique keys of the rows stand, and identities to be drawn are new. -/
structure SoundRows (p : Platform) (ws : Workspace) : Prop where
  unique : ∀ m ∈ ws.memberships.rows, ws.UniqueMember m
  ofUnit : ∀ m ∈ ws.memberships.rows, ws.OfUnit m
  codes : ∀ e ∈ ws.events.rows, ∀ e' ∈ ws.events.rows, e.categoryCode = e'.categoryCode → e = e'
  fresh : ∀ n, ws.registry.drawn ≤ n → ws.Unused (p.uuid4 n)

theorem SoundRows.once (h : SoundRows p ws) {m' : UnitMembership} (hm : m ∈ ws.memberships.rows)
    (hm' : m' ∈ ws.memberships.rows) (event : m.competitionEventId = m'.competitionEventId)
    (player : m.playerId = m'.playerId) : m = m' := by
  by_cases same : m.id = m'.id
  · exact Table.eq_of_key_eq hm hm' same
  · exact absurd ⟨event, player⟩ (h.unique m' hm' m hm same).1

theorem clash_symm {x y : UnitMembership}
    (h : ¬ (x.competitionEventId = y.competitionEventId ∧ x.playerId = y.playerId) ∧
      ¬ (x.unitId = y.unitId ∧ x.slot = y.slot) ∧
      ¬ (x.entryId.isSome ∧ x.entryId = y.entryId)) :
    ¬ (y.competitionEventId = x.competitionEventId ∧ y.playerId = x.playerId) ∧
      ¬ (y.unitId = x.unitId ∧ y.slot = x.slot) ∧ ¬ (y.entryId.isSome ∧ y.entryId = x.entryId) :=
  ⟨fun c => h.1 ⟨c.1.symm, c.2.symm⟩, fun c => h.2.1 ⟨c.1.symm, c.2.symm⟩,
    fun c => h.2.2 ⟨c.2 ▸ c.1, c.2.symm⟩⟩

theorem slot_lt_nextSlot {unit : Uuid} (hm : m ∈ ws.memberships.rows) (here : m.unitId = unit) :
    m.slot < ws.nextSlot unit := by
  have listed : m.slot ∈ (ws.membersOf unit).map UnitMembership.slot :=
    List.mem_map_of_mem (by simp [Workspace.membersOf, hm, here])
  have := le_foldl_max (a := 0) (Or.inr listed)
  unfold Workspace.nextSlot
  omega

/-- Nothing but the rows of one event changes. -/
structure Beside (event : Uuid) (ws ws' : Workspace) : Prop where
  events : ws'.events = ws.events
  formats : ws'.formats = ws.formats
  draws : ws'.draws = ws.draws
  brackets : ws'.bracketEvents = ws.bracketEvents
  members : ∀ m, m.competitionEventId ≠ event →
    (m ∈ ws'.memberships.rows ↔ m ∈ ws.memberships.rows)

theorem Beside.trans (h : Beside event ws ws') (h' : Beside event ws' ws'') :
    Beside event ws ws'' where
  events := h'.events.trans h.events
  formats := h'.formats.trans h.formats
  draws := h'.draws.trans h.draws
  brackets := h'.brackets.trans h.brackets
  members m away := (h'.members m away).trans (h.members m away)

/-! ## Units written -/

/-- Only units are written, and each stays in its event. -/
structure UnitsOnly (ws ws' : Workspace) : Prop where
  rest : ws' = { ws with units := ws'.units }
  kept : ∀ k, (ws'.units.get k).map CompetitionUnit.competitionEventId =
    (ws.units.get k).map CompetitionUnit.competitionEventId

namespace UnitsOnly

theorem refl (ws : Workspace) : UnitsOnly ws ws := ⟨rfl, fun _ => rfl⟩

theorem trans (h : UnitsOnly ws ws') (h' : UnitsOnly ws' ws'') : UnitsOnly ws ws'' := by
  refine ⟨?_, fun k => (h'.kept k).trans (h.kept k)⟩
  rw [h'.rest, h.rest]

theorem has (h : UnitsOnly ws ws') (k : Uuid) : ws'.units.Has k ↔ ws.units.Has k := by
  have same := congrArg Option.isSome (h.kept k)
  simp only [Option.isSome_map] at same
  rw [← not_iff_not, ← Table.get_eq_none_iff, ← Table.get_eq_none_iff,
    ← Option.not_isSome_iff_eq_none, ← Option.not_isSome_iff_eq_none, same]

theorem unit (h : UnitsOnly ws ws') {k event : Uuid}
    (known : ∃ u, ws.units.get k = some u ∧ u.competitionEventId = event) :
    ∃ u, ws'.units.get k = some u ∧ u.competitionEventId = event := by
  obtain ⟨u, found, here⟩ := known
  have same := h.kept k
  rw [found, Option.map_some, Option.map_eq_some_iff] at same
  obtain ⟨u', found', same⟩ := same
  exact ⟨u', found', same.trans here⟩

theorem memberships (h : UnitsOnly ws ws') : ws'.memberships = ws.memberships := by rw [h.rest]

theorem stored (h : UnitsOnly ws ws') (s : SoundRows p ws) : SoundRows p ws' := by
  have has := h.has
  have unit : ∀ m, ws.OfUnit m → ws'.OfUnit m := fun m known => h.unit known
  rw [h.rest] at has unit ⊢
  exact ⟨s.unique, fun m hm => unit m (s.ofUnit m hm), s.codes, fun n later =>
    { s.fresh n later with units := fun h => (s.fresh n later).units ((has _).mp h) }⟩

theorem beside (h : UnitsOnly ws ws') (event : Uuid) : Beside event ws ws' := by
  rw [h.rest]
  exact ⟨rfl, rfl, rfl, rfl, fun _ _ => Iff.rfl⟩

end UnitsOnly

theorem updateUnit_ok {u old : CompetitionUnit} (found : ws.units.get u.id = some old)
    (event : old.competitionEventId = u.competitionEventId)
    (legal : u.status = .confirmed → ws.LegalSize u.id u.competitionEventId) :
    ∃ version, ws.updateUnit u =
      .ok { ws with units := ws.units.put { u with version := version } } := by
  unfold Workspace.updateUnit
  simp only [found]
  by_cases same : old = u
  · subst same
    exact ⟨old.version, by rw [if_pos rfl, Table.put_of_get found]⟩
  · rw [if_neg same]
    refine ⟨if u.version = old.version then old.version + 1 else u.version, ?_⟩
    simp only [bind_eq_ok, require_eq_ok]
    exact ⟨(), event, (), fun confirmed _ => legal confirmed, trivial⟩

theorem put_unitsOnly {u old : CompetitionUnit} (found : ws.units.get u.id = some old)
    (event : old.competitionEventId = u.competitionEventId) :
    UnitsOnly ws { ws with units := ws.units.put u } := by
  refine ⟨rfl, fun k => ?_⟩
  show ((ws.units.put u).get k).map _ = _
  rw [Table.get_put]
  split
  · next same => rw [← same, found, Option.map_some, Option.map_some, event]
  · rfl

theorem openUnits_ok {us : List CompetitionUnit} (ids : (us.map CompetitionUnit.id).Nodup)
    (stand : ∀ u ∈ us, ws.units.get u.id = some u) :
    ∃ ws', openUnits ws us = .ok ws' ∧ UnitsOnly ws ws' ∧
      ∀ u ∈ ws'.units.rows, (u ∈ ws.units.rows ∧ u.id ∉ us.map CompetitionUnit.id) ∨
        u.status = .pending := by
  induction us generalizing ws with
  | nil => exact ⟨ws, rfl, .refl ws, fun u hu => Or.inl ⟨hu, List.not_mem_nil⟩⟩
  | cons u us ih =>
    obtain ⟨apart, ids⟩ := List.nodup_cons.mp ids
    obtain ⟨version, done⟩ :=
      @updateUnit_ok ws { u with status := .pending, version := u.version + 1 } u
        (stand u List.mem_cons_self) rfl (fun h => nomatch h)
    let u' := { u with status := UnitStatus.pending, version := version }
    let written := { ws with units := ws.units.put u' }
    obtain ⟨ws', ok, only, opened⟩ := @ih written ids (fun x hx => by
      refine (Table.get_put_of_ne _ ?_).trans (stand x (List.mem_cons_of_mem _ hx))
      intro same
      exact apart (same ▸ List.mem_map_of_mem hx))
    have first : UnitsOnly ws written := put_unitsOnly (stand u List.mem_cons_self) rfl
    refine ⟨ws', ?_, first.trans only, fun x hx => ?_⟩
    · unfold openUnits
      rw [done, ok_bind]
      exact ok
    · rcases opened x hx with ⟨here, away⟩ | pending
      · rcases Table.mem_put.mp here with rfl | ⟨here, ne⟩
        · exact Or.inr rfl
        · refine Or.inl ⟨here, ?_⟩
          rw [List.map_cons, List.mem_cons, not_or]
          exact ⟨ne, away⟩
      · exact Or.inr pending

/-! ## Memberships written -/

def InEvent (ws : Workspace) (event unit : Uuid) : Prop :=
  ∃ u, ws.units.get unit = some u ∧ u.competitionEventId = event

/-- The rows while the roster of an event is rewritten: every unit of it is pending. -/
structure Editing (p : Platform) (event : Uuid) (start ws : Workspace) : Prop where
  stored : SoundRows p ws
  beside : Beside event start ws
  units : ∀ unit, InEvent start event unit → InEvent ws event unit
  pending : ∀ u ∈ ws.units.rows, u.competitionEventId = event → u.status = .pending

section

variable {start : Workspace} {unit player : Uuid}

theorem Editing.unconfirmed (e : Editing p event start ws) (here : InEvent ws event unit) :
    ¬ ws.ConfirmedUnit unit := by
  rintro ⟨u, found, confirmed⟩
  obtain ⟨u', found', here⟩ := here
  obtain rfl := Option.some.inj (found.symm.trans found')
  rw [e.pending u (Table.mem_of_get found) here] at confirmed
  cases confirmed

theorem Editing.audit (e : Editing p event start ws) (row : CompetitionAudit) :
    Editing p event start (ws.audit row) :=
  ⟨⟨e.stored.unique, e.stored.ofUnit, e.stored.codes, fun n later =>
      let unused := e.stored.fresh n later
      ⟨unused.events, unused.units, unused.memberships, unused.draws⟩⟩,
    ⟨e.beside.events, e.beside.formats, e.beside.draws, e.beside.brackets, e.beside.members⟩,
    e.units, e.pending⟩

theorem updateMember_ok (e : Editing p event start ws) {m old : UnitMembership}
    (found : ws.memberships.get m.id = some old) (here : m.competitionEventId = event)
    (before : old.competitionEventId = event) (same : m.playerId = old.playerId)
    (entry : m.entryId = old.entryId) (unit : InEvent ws event m.unitId)
    (slot : ∀ x ∈ ws.memberships.rows, x.id ≠ m.id → ¬ (x.unitId = m.unitId ∧ x.slot = m.slot)) :
    ws.updateMember m = .ok { ws with memberships := ws.memberships.put m } ∧
      Editing p event start { ws with memberships := ws.memberships.put m } := by
  obtain ⟨hold, id⟩ := Table.get_eq_some_iff.mp found
  have uniqueMember : ws.UniqueMember m := by
    intro x hx ne
    obtain ⟨players, -, entries⟩ := e.stored.unique old hold x hx (by rwa [id])
    refine ⟨?_, slot x hx ne, ?_⟩
    · rwa [here, same, ← before]
    · rwa [entry]
  have ofUnit : ws.OfUnit m := by
    rw [← here] at unit
    exact unit
  constructor
  · unfold Workspace.updateMember
    simp only [found]
    by_cases equal : old = m
    · subst equal
      rw [if_pos rfl, Table.put_of_get found]
    · rw [if_neg equal]
      simp only [bind_eq_ok, require_eq_ok]
      refine ⟨(), uniqueMember, (), ofUnit, (), ⟨e.unconfirmed unit, e.unconfirmed ?_⟩, trivial⟩
      rw [← before]
      exact e.stored.ofUnit old hold
  · refine ⟨⟨?_, ?_, e.stored.codes, fun n later => ?_⟩, ⟨e.beside.events, e.beside.formats,
      e.beside.draws, e.beside.brackets, ?_⟩, e.units, e.pending⟩
    · intro y hy x hx ne
      rcases Table.mem_put.mp hy with rfl | ⟨row, apart⟩ <;>
        rcases Table.mem_put.mp hx with rfl | ⟨row', -⟩
      · exact absurd rfl ne
      · exact uniqueMember x row' ne
      · exact clash_symm (uniqueMember y row apart)
      · exact e.stored.unique y row x row' ne
    · intro y hy
      rcases Table.mem_put.mp hy with rfl | ⟨hy, -⟩
      · exact ofUnit
      · exact e.stored.ofUnit y hy
    · have unused := e.stored.fresh n later
      refine { unused with memberships := fun h => unused.memberships ?_ }
      rcases Table.has_put_iff.mp h with same | h
      · exact Table.has_iff.mpr ⟨old, hold, id.trans same.symm⟩
      · exact h
    · intro x away
      rw [← e.beside.members x away, Table.mem_put]
      constructor
      · rintro (rfl | ⟨hx, -⟩)
        · exact absurd here away
        · exact hx
      · refine fun hx => Or.inr ⟨hx, fun equal => away ?_⟩
        rw [Table.eq_of_key_eq hx hold (equal.trans id.symm), before]

variable (drawn : Function.Injective p.uuid4)

include drawn

theorem SoundRows.mint (s : SoundRows p ws) : SoundRows p (ws.mint p).2 ∧
    ∀ n, (ws.mint p).2.registry.drawn ≤ n → p.uuid4 n ≠ (ws.mint p).1 := by
  refine ⟨⟨s.unique, s.ofUnit, s.codes, fun n later => ?_⟩, fun n later same => ?_⟩
  · have unused := s.fresh n (Nat.le_of_succ_le later)
    exact ⟨unused.events, unused.units, unused.memberships, unused.draws⟩
  · have := drawn same
    exact absurd later (by simp [Workspace.mint, Registry.mint, this])

theorem insertManual_ok (e : Editing p event start ws) (here : InEvent ws event unit)
    (free : ∀ x ∈ ws.memberships.rows, x.competitionEventId = event → x.playerId ≠ player) :
    ∃ ws' m, insertManual p ws unit event player = .ok ws' ∧ Editing p event start ws' ∧
      ws'.units = ws.units ∧ ws'.memberships.rows = ws.memberships.rows ++ [m] ∧
      m.competitionEventId = event ∧ m.playerId = player ∧ m.unitId = unit ∧
      m.status = .active := by
  obtain ⟨minted, later⟩ := e.stored.mint drawn
  have unused := e.stored.fresh ws.registry.drawn (Nat.le_refl _)
  let m : UnitMembership :=
    { id := (ws.mint p).1, unitId := unit, competitionEventId := event, playerId := player,
      entryId := none, slot := ws.nextSlot unit, origin := .manual }
  obtain ⟨memberships, inserted⟩ : ∃ t, ws.memberships.insert m = some t :=
    Option.ne_none_iff_exists'.mp (fun h => unused.memberships (Table.insert_eq_none.mp h))
  have rows := (Table.insert_eq_some.mp inserted).2
  have uniqueMember : ws.UniqueMember m := by
    intro x hx _
    refine ⟨fun h => free x hx h.1 h.2, fun h => ?_, fun h => ?_⟩
    · exact absurd h.2 (Nat.ne_of_lt (slot_lt_nextSlot hx h.1))
    · rw [h.2] at h
      exact absurd h.1 (by simp [m])
  refine ⟨{ (ws.mint p).2 with memberships := memberships }, m, ?_, ⟨⟨?_, ?_, minted.codes,
    fun n h => ?_⟩, ⟨e.beside.events, e.beside.formats, e.beside.draws, e.beside.brackets, ?_⟩,
    e.units, e.pending⟩, rfl, rows, rfl, rfl, rfl, rfl⟩
  · show Workspace.insertMember (ws.mint p).2 m = _
    unfold Workspace.insertMember
    simp only [bind_eq_ok, require_eq_ok, found_eq_ok]
    exact ⟨(), uniqueMember, (), here, (), e.unconfirmed here, memberships, inserted, rfl⟩
  · intro y hy x hx ne
    simp only [rows, List.mem_append, List.mem_singleton] at hx hy
    rcases hy with hy | rfl <;> rcases hx with hx | rfl
    · exact e.stored.unique y hy x hx ne
    · exact clash_symm (uniqueMember y hy ne.symm)
    · exact uniqueMember x hx ne
    · exact absurd rfl ne
  · intro y hy
    simp only [rows, List.mem_append, List.mem_singleton] at hy
    rcases hy with hy | rfl
    · exact e.stored.ofUnit y hy
    · exact here
  · have unused := minted.fresh n h
    refine { unused with memberships := fun has => ?_ }
    rcases (Table.has_rows_concat rows).mp has with has | same
    · exact unused.memberships has
    · exact later n h same
  · intro x away
    rw [← e.beside.members x away]
    simp only [rows, List.mem_append, List.mem_singleton]
    exact or_iff_left (fun same => away (congrArg UnitMembership.competitionEventId same))

theorem unitOrNew_ok (e : Editing p event start ws) :
    ∃ id ws', unitOrNew p ws event none = .ok (id, ws') ∧ Editing p event start ws' ∧
      ws'.memberships = ws.memberships ∧ InEvent ws' event id ∧
      ∀ k, InEvent ws event k → InEvent ws' event k ∧ k ≠ id := by
  obtain ⟨minted, later⟩ := e.stored.mint drawn
  have unused := e.stored.fresh ws.registry.drawn (Nat.le_refl _)
  let u : CompetitionUnit := { id := (ws.mint p).1, competitionEventId := event }
  obtain ⟨units, inserted⟩ : ∃ t, ws.units.insert u = some t :=
    Option.ne_none_iff_exists'.mp (fun h => unused.units (Table.insert_eq_none.mp h))
  have rows := (Table.insert_eq_some.mp inserted).2
  have stays : ∀ {k x}, ws.units.get k = some x → units.get k = some x :=
    fun h => Table.get_of_rows_append rows h
  have more : ∀ k event, InEvent ws event k →
      InEvent { (ws.mint p).2 with units := units } event k := by
    rintro k event ⟨x, found, here⟩
    exact ⟨x, stays found, here⟩
  refine ⟨(ws.mint p).1, { (ws.mint p).2 with units := units }, ?_, ⟨⟨e.stored.unique, ?_,
    minted.codes, fun n h => ?_⟩, ⟨e.beside.events, e.beside.formats, e.beside.draws,
    e.beside.brackets, e.beside.members⟩, fun k h => more k event (e.units k h), ?_⟩, rfl, ?_,
    fun k h => ⟨more k event h, ?_⟩⟩
  · simp only [unitOrNew, Workspace.insertUnit, bind_eq_ok, require_eq_ok, found_eq_ok]
    exact ⟨_, ⟨(), (by decide), units, inserted, rfl⟩, rfl⟩
  · exact fun m hm => more m.unitId _ (e.stored.ofUnit m hm)
  · have unused := minted.fresh n h
    refine { unused with units := fun has => ?_ }
    rcases (Table.has_rows_concat rows).mp has with has | same
    · exact unused.units has
    · exact later n h same
  · intro x hx here
    simp only [rows, List.mem_append, List.mem_singleton] at hx
    rcases hx with hx | rfl
    · exact e.pending x hx here
    · rfl
  · exact ⟨u, Table.get_eq_some_iff.mpr ⟨by simp [rows], rfl⟩, rfl⟩
  · rintro rfl
    obtain ⟨x, found, -⟩ := h
    exact unused.units (Table.has_iff.mpr ⟨x, Table.mem_of_get found, Table.key_of_get found⟩)

/-! ## Seats -/

/-- The rows while groups are seated. Whoever has a seat sits there; everybody else is in a row
that stood before, and active only where a seat is to come. -/
structure Seating (p : Platform) (event : Uuid) (start : Workspace)
    (existing : List UnitMembership) (wanted : List Uuid) (ws : Workspace)
    (seats : List (Uuid × Uuid)) : Prop where
  editing : Editing p event start ws
  rows : ∀ m ∈ ws.memberships.rows, m.competitionEventId = event →
    ((m.unitId, m.playerId) ∈ seats ∧ m.status = .active) ∨
      (m.playerId ∉ seats.map Prod.snd ∧ (∃ old ∈ existing, old.playerId = m.playerId) ∧
        (m.status = .active → m.playerId ∈ wanted))
  kept : ∀ old ∈ existing, ∃ m, ws.memberships.get old.id = some m ∧
    m.playerId = old.playerId ∧ m.competitionEventId = event
  present : ∀ s ∈ seats, ∃ m ∈ ws.memberships.rows, m.competitionEventId = event ∧
    m.playerId = s.2

variable {existing : List UnitMembership} {wanted : List Uuid} {seats : List (Uuid × Uuid)}

omit drawn in
theorem Seating.audit (h : Seating p event start existing wanted ws seats)
    (row : CompetitionAudit) : Seating p event start existing wanted (ws.audit row) seats :=
  ⟨h.editing.audit row, h.rows, h.kept, h.present⟩

omit drawn in
theorem withdrawUnwanted_ok {ms : List UnitMembership} (e : Editing p event start ws)
    (ids : (ms.map UnitMembership.id).Nodup)
    (stand : ∀ m ∈ ms, ws.memberships.get m.id = some m ∧ m.competitionEventId = event)
    (rows : ∀ m ∈ ws.memberships.rows, m.competitionEventId = event →
      (∃ old ∈ existing, old.playerId = m.playerId) ∧
        (m.status = .active → m.playerId ∈ wanted ∨ m ∈ ms))
    (kept : ∀ old ∈ existing, ∃ m, ws.memberships.get old.id = some m ∧
      m.playerId = old.playerId ∧ m.competitionEventId = event) :
    ∃ ws', withdrawUnwanted wanted ws ms = .ok ws' ∧
      Seating p event start existing wanted ws' [] := by
  induction ms generalizing ws with
  | nil =>
    refine ⟨ws, rfl, e, fun m hm here => Or.inr ⟨by simp, (rows m hm here).1, fun active => ?_⟩,
      kept, by simp⟩
    exact ((rows m hm here).2 active).resolve_right List.not_mem_nil
  | cons m ms ih =>
    obtain ⟨apart, ids⟩ := List.nodup_cons.mp ids
    obtain ⟨found, here⟩ := stand m List.mem_cons_self
    have hm := Table.mem_of_get found
    unfold withdrawUnwanted
    split
    · next unwanted =>
      obtain ⟨written, e'⟩ := @updateMember_ok _ _ _ _ e { m with status := .withdrawn } m
        found here here rfl rfl (here ▸ e.stored.ofUnit m hm)
        (fun x hx ne => (e.stored.unique m hm x hx ne).2.1)
      dsimp only
      rw [written, ok_bind]
      refine ih (e'.audit _) ids (fun x hx => ?_) (fun x hx here' => ?_) (fun old hold => ?_)
      · refine ⟨(Table.get_put_of_ne _ ?_).trans (stand x (List.mem_cons_of_mem _ hx)).1,
          (stand x (List.mem_cons_of_mem _ hx)).2⟩
        intro same
        exact apart (same ▸ List.mem_map_of_mem hx)
      · rcases Table.mem_put.mp hx with rfl | ⟨row, ne⟩
        · exact ⟨(rows m hm here).1, fun active => nomatch active⟩
        · obtain ⟨before, after⟩ := rows x row here'
          refine ⟨before, fun active => (after active).imp_right fun listed => ?_⟩
          rcases List.mem_cons.mp listed with rfl | listed
          · exact absurd rfl ne
          · exact listed
      · obtain ⟨x, at_, same, here'⟩ := kept old hold
        by_cases own : m.id = old.id
        · refine ⟨{ m with status := .withdrawn }, (Table.get_put _ _ _).trans (if_pos own), ?_,
            here⟩
          obtain rfl : m = x := Option.some.inj (found.symm.trans (own ▸ at_))
          exact same
        · exact ⟨x, (Table.get_put _ _ _).trans ((if_neg own).trans at_), same, here'⟩
    · next stays =>
      refine ih e ids (fun x hx => stand x (List.mem_cons_of_mem _ hx)) (fun x hx here' => ?_) kept
      refine ⟨(rows x hx here').1, fun active => ?_⟩
      rcases (rows x hx here').2 active with wanted_ | listed
      · exact Or.inl wanted_
      · rcases List.mem_cons.mp listed with rfl | listed
        · exact Or.inl (by_contra fun no => stays ⟨no, active⟩)
        · exact Or.inr listed

theorem seatPlayer_ok (h : Seating p event start existing wanted ws seats)
    (here : InEvent ws event unit) (fresh : player ∉ seats.map Prod.snd) :
    ∃ ws', seatPlayer p existing unit event ws player = .ok ws' ∧ ws'.units = ws.units ∧
      Seating p event start existing wanted ws' (seats ++ [(unit, player)]) := by
  have e := h.editing
  -- rows of other players keep their place
  have others : ∀ m ∈ ws.memberships.rows, m.competitionEventId = event → m.playerId ≠ player →
      ((m.unitId, m.playerId) ∈ seats ++ [(unit, player)] ∧ m.status = .active) ∨
        (m.playerId ∉ (seats ++ [(unit, player)]).map Prod.snd ∧
          (∃ old ∈ existing, old.playerId = m.playerId) ∧
            (m.status = .active → m.playerId ∈ wanted)) := by
    intro m hm inside ne
    refine (h.rows m hm inside).imp (fun s => ⟨List.mem_append_left _ s.1, s.2⟩) fun s => ⟨?_, s.2⟩
    simp only [List.map_append, List.map_cons, List.map_nil, List.mem_append, List.mem_singleton]
    exact not_or.mpr ⟨s.1, ne⟩
  unfold seatPlayer
  cases before : existing.find? (fun m => m.playerId = player) with
  | none =>
    have free : ∀ x ∈ ws.memberships.rows, x.competitionEventId = event → x.playerId ≠ player := by
      rintro x hx inside rfl
      rcases h.rows x hx inside with seated | ⟨-, ⟨old, hold, same⟩, -⟩
      · exact fresh (List.mem_map_of_mem (f := Prod.snd) seated.1)
      · simpa [same] using List.find?_eq_none.mp before old hold
    obtain ⟨ws', m, done, e', units, rows, event_, player_, unit_, active⟩ :=
      insertManual_ok drawn e here free
    refine ⟨ws', done, units, e', fun x hx inside => ?_, fun old hold => ?_, fun s hs => ?_⟩
    · rw [rows, List.mem_append, List.mem_singleton] at hx
      rcases hx with hx | rfl
      · exact others x hx inside (free x hx inside)
      · exact Or.inl ⟨by simp [unit_, player_], active⟩
    · obtain ⟨x, found, rest⟩ := h.kept old hold
      exact ⟨x, Table.get_of_rows_append rows found, rest⟩
    · rw [rows]
      rcases List.mem_append.mp hs with hs | hs
      · obtain ⟨x, hx, rest⟩ := h.present s hs
        exact ⟨x, List.mem_append_left _ hx, rest⟩
      · obtain rfl := List.mem_singleton.mp hs
        exact ⟨m, by simp, event_, player_⟩
  | some old =>
    obtain ⟨hold, theirs⟩ : old ∈ existing ∧ old.playerId = player :=
      ⟨List.mem_of_find?_eq_some before, by simpa using List.find?_some before⟩
    obtain ⟨m, found_, same, inside⟩ := h.kept old hold
    have hm := Table.mem_of_get found_
    have id : m.id = old.id := Table.key_of_get found_
    let moved := if m.unitId = unit then m else { m with unitId := unit, slot := ws.nextSlot unit }
    let seated := { moved with status := .active }
    have shape : seated.id = m.id ∧ seated.competitionEventId = event ∧
        seated.playerId = player ∧ seated.entryId = m.entryId ∧ seated.unitId = unit := by
      simp only [seated, moved]
      split
      · next there => exact ⟨rfl, inside, same.trans theirs, rfl, there⟩
      · exact ⟨rfl, inside, same.trans theirs, rfl, rfl⟩
    obtain ⟨id', event_, player_, entry_, unit_⟩ := shape
    have slot : ∀ x ∈ ws.memberships.rows, x.id ≠ seated.id →
        ¬ (x.unitId = seated.unitId ∧ x.slot = seated.slot) := by
      intro x hx ne
      rw [id'] at ne
      by_cases there : m.unitId = unit
      · simp only [seated, moved, if_pos there]
        exact (e.stored.unique m hm x hx ne).2.1
      · simp only [seated, moved, if_neg there]
        exact fun clash => absurd clash.2 (Nat.ne_of_lt (slot_lt_nextSlot hx clash.1))
    obtain ⟨written, e'⟩ := @updateMember_ok _ _ _ _ e seated m
      (by rw [id', id]; exact found_) event_ inside
      (player_.trans (same.trans theirs).symm) entry_ (unit_ ▸ here) slot
    have seating : Seating p event start existing wanted
        { ws with memberships := ws.memberships.put seated } (seats ++ [(unit, player)]) := by
      refine ⟨e', fun x hx inside' => ?_, fun o ho => ?_, fun s hs => ?_⟩
      · rcases Table.mem_put.mp hx with rfl | ⟨row, ne⟩
        · exact Or.inl ⟨by simp [unit_, player_], rfl⟩
        · refine others x row inside' (fun clash => ne ?_)
          rw [id', e.stored.once row hm (inside'.trans inside.symm)
            (clash.trans (same.trans theirs).symm)]
      · obtain ⟨x, at_, rest⟩ := h.kept o ho
        by_cases own : seated.id = o.id
        · refine ⟨seated, (Table.get_put _ _ _).trans (if_pos own), ?_, event_⟩
          rw [id'] at own
          have at' : ws.memberships.get m.id = some x := own ▸ at_
          obtain rfl : m = x :=
            Option.some.inj ((Table.get_eq_some_iff.mpr ⟨hm, rfl⟩).symm.trans at')
          exact (player_.trans (same.trans theirs).symm).trans rest.1
        · exact ⟨x, (Table.get_put_of_ne _ own).trans at_, rest⟩
      · rcases List.mem_append.mp hs with hs | hs
        · obtain ⟨x, hx, inside', theirs'⟩ := h.present s hs
          by_cases own : x.id = seated.id
          · refine ⟨seated, Table.mem_put.mpr (Or.inl rfl), event_, ?_⟩
            obtain rfl := Table.eq_of_key_eq hx hm (own.trans id')
            exact (player_.trans (same.trans theirs).symm).trans theirs'
          · exact ⟨x, Table.mem_put.mpr (Or.inr ⟨hx, own⟩), inside', theirs'⟩
        · obtain rfl := List.mem_singleton.mp hs
          exact ⟨seated, Table.mem_put.mpr (Or.inl rfl), event_, player_⟩
    simp only [bind_eq_ok, found_eq_ok]
    by_cases quiet : outcome m = outcome seated
    · refine ⟨_, ⟨m, found_, _, written, rfl⟩, ?_, ?_⟩ <;> rw [if_pos quiet]
      exact seating
    · refine ⟨_, ⟨m, found_, _, written, rfl⟩, ?_, ?_⟩ <;> rw [if_neg quiet]
      · rfl
      · exact seating.audit _

theorem seatPlayers_ok {group : List Uuid} (h : Seating p event start existing wanted ws seats)
    (here : InEvent ws event unit) (nodup : group.Nodup)
    (fresh : ∀ x ∈ group, x ∉ seats.map Prod.snd) :
    ∃ ws', seatPlayers p existing unit event ws group = .ok ws' ∧ ws'.units = ws.units ∧
      Seating p event start existing wanted ws' (seats ++ group.map (fun x => (unit, x))) := by
  induction group generalizing ws seats with
  | nil => exact ⟨ws, rfl, rfl, by simpa using h⟩
  | cons player group ih =>
    obtain ⟨apart, nodup⟩ := List.nodup_cons.mp nodup
    obtain ⟨ws₁, first, units, h₁⟩ := seatPlayer_ok drawn h here (fresh player List.mem_cons_self)
    obtain ⟨ws₂, rest, units', h₂⟩ := ih h₁ (by rwa [InEvent, units]) nodup (fun x hx => by
      simp only [List.map_append, List.map_cons, List.map_nil, List.mem_append,
        List.mem_singleton, not_or]
      exact ⟨fresh x (List.mem_cons_of_mem _ hx), fun same => apart (same ▸ hx)⟩)
    refine ⟨ws₂, ?_, units'.trans units, by simpa using h₂⟩
    unfold seatPlayers
    rw [first, ok_bind]
    exact rest

def seatsOf (units : List Uuid) (groups : List (List Uuid)) : List (Uuid × Uuid) :=
  (units.zip groups).flatMap (fun x => x.2.map (fun player => (x.1, player)))

theorem seatGroups_ok {groups : List (List Uuid)} {oldGroups : List (Uuid × List Uuid)}
    {used : List Uuid} (h : Seating p event start existing wanted ws seats)
    (old : ∀ x ∈ oldGroups, InEvent start event x.1) (nodup : groups.flatten.Nodup)
    (fresh : ∀ x ∈ groups.flatten, x ∉ seats.map Prod.snd)
    (inside : ∀ unit ∈ used, InEvent ws event unit) (apart : used.Nodup) :
    ∃ ws' units, seatGroups p existing oldGroups event ws used groups = .ok (ws', used ++ units) ∧
      units.length = groups.length ∧ (used ++ units).Nodup ∧
      (∀ unit ∈ used ++ units, InEvent ws' event unit) ∧
      Seating p event start existing wanted ws' (seats ++ seatsOf units groups) := by
  induction groups generalizing ws seats used with
  | nil => exact ⟨ws, [], by simp [seatGroups], rfl, by simpa, by simpa, by simpa [seatsOf]⟩
  | cons group groups ih =>
    rw [List.flatten_cons, List.nodup_append] at nodup
    obtain ⟨own, rest, disjoint⟩ := nodup
    -- the unit of the group, one there was or a new one
    obtain ⟨unit, ws₁, chosen, h₁, here, new, stays⟩ : ∃ unit ws₁,
        (oldGroups.find? (fun x => x.2 ⊆ group ∧ group ⊆ x.2 ∧ x.1 ∉ used)).elim
          (unitOrNew p ws event none) (fun old => .ok (old.1, ws)) = .ok (unit, ws₁) ∧
        Seating p event start existing wanted ws₁ seats ∧ InEvent ws₁ event unit ∧ unit ∉ used ∧
        ∀ k, InEvent ws event k → InEvent ws₁ event k := by
      cases found : oldGroups.find? (fun x => x.2 ⊆ group ∧ group ⊆ x.2 ∧ x.1 ∉ used) with
      | some x =>
        have free : x.1 ∉ used := by
          have := List.find?_some found
          simp only [decide_eq_true_eq] at this
          exact this.2.2
        exact ⟨x.1, ws, rfl, h, h.editing.units _ (old x (List.mem_of_find?_eq_some found)), free,
          fun _ inside => inside⟩
      | none =>
        obtain ⟨id, ws₁, made, e, members, here, others⟩ := unitOrNew_ok drawn h.editing
        refine ⟨id, ws₁, made, ⟨e, ?_, ?_, ?_⟩, here,
          fun taken => (others id (inside id taken)).2 rfl,
          fun k inside => (others k inside).1⟩
        · rw [members]
          exact h.rows
        · rw [members]
          exact h.kept
        · rw [members]
          exact h.present
    obtain ⟨ws₂, seated, units, h₂⟩ := seatPlayers_ok drawn h₁ here own
      (fun x hx => fresh x (List.mem_append_left _ hx))
    obtain ⟨ws₃, us, done, length, unique, inside', h₃⟩ := @ih ws₂ _ (used ++ [unit]) h₂ rest
      (fun x hx => by
        simp only [List.map_append, List.map_map, List.mem_append, List.mem_map, not_or]
        refine ⟨fun taken => fresh x (List.mem_append_right _ hx) (List.mem_map.mpr taken), ?_⟩
        rintro ⟨y, hy, rfl⟩
        exact disjoint y hy y hx rfl)
      (fun k hk => by
        rw [InEvent, units]
        rcases List.mem_append.mp hk with hk | hk
        · exact stays k (inside k hk)
        · obtain rfl := List.mem_singleton.mp hk
          exact here)
      (List.nodup_append.mpr ⟨apart, List.nodup_singleton _, fun a ha b hb same => by
        obtain rfl := List.mem_singleton.mp hb
        exact new (same ▸ ha)⟩)
    rw [List.append_assoc, List.singleton_append] at done unique inside'
    refine ⟨ws₃, unit :: us, ?_, by simp [length], unique, inside', ?_⟩
    · unfold seatGroups
      cases found : oldGroups.find? (fun x => x.2 ⊆ group ∧ group ⊆ x.2 ∧ x.1 ∉ used) with
      | some x =>
        rw [found] at chosen
        cases chosen
        simp only [ok_bind, seated, done]
      | none =>
        rw [found, Option.elim_none] at chosen
        simp only [chosen, ok_bind, seated, done]
    · simpa [seatsOf] using h₃

end

/-! ## Units settled -/

section

variable {start : Workspace} {unit : Uuid} {used : List Uuid} {e : CompetitionEvent}
  {list : List Uuid}

def FitsFormat (ws : Workspace) (e : CompetitionEvent) (unit : Uuid) : Prop :=
  ∃ f, ws.formats.get e.formatVersionId = some f ∧ (ws.activeMembersOf unit).length ≤ f.rosterMax

theorem UnitsOnly.fitting (h : UnitsOnly ws ws') :
    FitsFormat ws' e unit ↔ FitsFormat ws e unit := by
  rw [h.rest]
  exact Iff.rfl

theorem UnitsOnly.events (h : UnitsOnly ws ws') : ws'.events = ws.events := by rw [h.rest]

theorem settleUnit_fitting (known : ws.events.get e.id = some e) (here : InEvent ws e.id unit)
    (ok : settleUnit ws unit = .ok ws') : FitsFormat ws e unit := by
  obtain ⟨u, found_, same⟩ := here
  unfold settleUnit eventFor at ok
  simp only [bind_eq_ok, found_eq_ok, require_eq_ok, found_, Option.some.injEq,
    Option.bind_some] at ok
  obtain ⟨_, rfl, _, known', fmt, format, ⟨⟩, few, -⟩ := ok
  rw [same, known, Option.some.injEq] at known'
  exact ⟨fmt, known' ▸ format, few⟩

theorem settleUnit_ok (known : ws.events.get e.id = some e) (here : InEvent ws e.id unit)
    (fits : FitsFormat ws e unit) : ∃ ws', settleUnit ws unit = .ok ws' ∧ UnitsOnly ws ws' := by
  obtain ⟨u, found_, same⟩ := here
  obtain ⟨f, format, few⟩ := fits
  obtain rfl : u.id = unit := Table.key_of_get found_
  let count := (ws.activeMembersOf u.id).length
  let settled := { u with status :=
    if f.rosterMin ≤ count ∧ count ≤ f.rosterMax then .confirmed else .pending }
  have legal : settled.status = .confirmed → ws.LegalSize u.id u.competitionEventId := by
    intro confirmed
    simp only [settled] at confirmed
    split at confirmed
    · next bounds =>
      refine ⟨f, ?_, bounds⟩
      rw [same, Workspace.formatOf, known]
      exact format
    · cases confirmed
  obtain ⟨version, done⟩ := @updateUnit_ok ws settled u found_ rfl legal
  refine ⟨_, ?_, @put_unitsOnly ws { settled with version := version } u found_ rfl⟩
  unfold settleUnit eventFor
  simp only [bind_eq_ok, found_eq_ok, require_eq_ok]
  refine ⟨u, found_, e, ?_, f, format, (), few, done⟩
  rw [same]
  exact known

theorem withdrawUnit_ok {u : CompetitionUnit} (found_ : ws.units.get unit = some u) :
    ∃ ws', ws.updateUnit { u with status := .withdrawn } = .ok ws' ∧ UnitsOnly ws ws' := by
  obtain rfl : u.id = unit := Table.key_of_get found_
  obtain ⟨version, done⟩ := @updateUnit_ok ws { u with status := .withdrawn } u found_ rfl
    (fun h => nomatch h)
  exact ⟨_, done,
    @put_unitsOnly ws { u with status := .withdrawn, version := version } u found_ rfl⟩

/-- **The units settle exactly where every used one fits the format.** -/
theorem settleUnits_ok (known : ws.events.get e.id = some e)
    (here : ∀ unit ∈ list, InEvent ws e.id unit)
    (fits : ∀ unit ∈ list, unit ∈ used → FitsFormat ws e unit) :
    ∃ ws', settleUnits used ws list = .ok ws' ∧ UnitsOnly ws ws' := by
  induction list generalizing ws with
  | nil => exact ⟨ws, rfl, .refl ws⟩
  | cons unit list ih =>
    have further : ∀ ws₁, UnitsOnly ws ws₁ →
        ∃ ws', settleUnits used ws₁ list = .ok ws' ∧ UnitsOnly ws ws' := by
      intro ws₁ only
      obtain ⟨ws', ok, rest⟩ := ih (only.events ▸ known)
        (fun k hk => only.unit (here k (List.mem_cons_of_mem _ hk)))
        (fun k hk inside => only.fitting.mpr (fits k (List.mem_cons_of_mem _ hk) inside))
      exact ⟨ws', ok, only.trans rest⟩
    unfold settleUnits
    split
    · next inside =>
      obtain ⟨ws₁, done, only⟩ := settleUnit_ok known (here unit List.mem_cons_self)
        (fits unit List.mem_cons_self inside)
      rw [done, ok_bind]
      exact further ws₁ only
    · split
      · obtain ⟨u, found_, -⟩ := here unit List.mem_cons_self
        obtain ⟨ws₁, done, only⟩ := withdrawUnit_ok found_
        simp only [found_, found, ok_bind, done]
        exact further ws₁ only
      · exact further ws (.refl ws)

theorem settleUnits_fitting (known : ws.events.get e.id = some e)
    (here : ∀ unit ∈ list, InEvent ws e.id unit) (ok : settleUnits used ws list = .ok ws') :
    ∀ unit ∈ list, unit ∈ used → FitsFormat ws e unit := by
  induction list generalizing ws with
  | nil => exact fun unit none => absurd none List.not_mem_nil
  | cons unit list ih =>
    have further : ∀ ws₁, UnitsOnly ws ws₁ → settleUnits used ws₁ list = .ok ws' →
        ∀ k ∈ list, k ∈ used → FitsFormat ws e k := by
      intro ws₁ only ok k hk inside
      exact only.fitting.mp (ih (only.events ▸ known)
        (fun k hk => only.unit (here k (List.mem_cons_of_mem _ hk))) ok k hk inside)
    unfold settleUnits at ok
    intro k hk inside
    split at ok
    · simp only [bind_eq_ok] at ok
      obtain ⟨ws₁, done, ok⟩ := ok
      have fits := settleUnit_fitting known (here unit List.mem_cons_self) done
      rcases List.mem_cons.mp hk with rfl | hk
      · exact fits
      · obtain ⟨ws₂, done', only⟩ := settleUnit_ok known (here unit List.mem_cons_self) fits
        obtain rfl := Except.ok.inj (done.symm.trans done')
        exact further ws₁ only ok k hk inside
    · next unused =>
      have hk : k ∈ list := (List.mem_cons.mp hk).resolve_left (fun same => unused (same ▸ inside))
      split at ok
      · obtain ⟨u, found_, -⟩ := here unit List.mem_cons_self
        obtain ⟨ws₁, done, only⟩ := withdrawUnit_ok found_
        simp only [found_, found, ok_bind, done] at ok
        exact further ws₁ only ok k hk inside
      · exact further ws (.refl ws) ok k hk inside

end

end Competition
