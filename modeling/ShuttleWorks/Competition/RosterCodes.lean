import ShuttleWorks.Competition.Pairing
import ShuttleWorks.Competition.Seating

/-! The codes of a roster document: when their rows are accepted, and who is active together
afterwards. Only the turns of silent partners tell two orders of the rows apart. -/

namespace Competition
open Lib Entries
open Sync (Uuid)

variable {p : Platform} {ws ws' ws'' : Workspace} {event : Uuid}

/-! ## The event of a code -/

section

variable {ws₁ : Workspace} {code : String} {size : Nat} {e : CompetitionEvent}

/-- The event of a code is found or made; the rows of other codes stand as they did. -/
structure Ensured (p : Platform) (code : String) (ws ws₁ : Workspace) (e : CompetitionEvent) :
    Prop where
  stored : SoundRows p ws₁
  known : ws₁.events.get e.id = some e
  named : e.categoryCode = code
  others : ∀ x, x.categoryCode ≠ code → (x ∈ ws₁.events.rows ↔ x ∈ ws.events.rows)
  memberships : ws₁.memberships = ws.memberships
  draws : ws₁.draws = ws.draws
  brackets : ws₁.bracketEvents = ws.bracketEvents

theorem linkEvent_same (code : String) (bracket : Bool) (e : CompetitionEvent) :
    (linkEvent code bracket e).id = e.id ∧
      (linkEvent code bracket e).categoryCode = e.categoryCode := by
  unfold linkEvent
  split <;> split <;> exact ⟨rfl, rfl⟩

theorem ensureEvent_ok (drawn : Function.Injective p.uuid4) (s : SoundRows p ws) :
    ∃ ws₁ e, ensureEvent p ws code size false = .ok (ws₁, e) ∧ Ensured p code ws ws₁ e := by
  unfold ensureEvent
  cases before : ws.events.rows.find? (fun e => e.categoryCode = code) with
  | some old =>
    have hold := List.mem_of_find?_eq_some before
    have own : old.categoryCode = code := by simpa using List.find?_some before
    obtain ⟨id, named⟩ := linkEvent_same code false old
    refine ⟨_, _, rfl, ⟨s.unique, s.ofUnit, ?_, fun n later => ?_⟩, Table.get_put_self _ _,
      named.trans own, ?_, rfl, rfl, rfl⟩
    · have code_of : ∀ x ∈ (ws.events.put (linkEvent code false old)).rows, x.categoryCode = code →
          x = linkEvent code false old := by
        intro x hx same
        rcases Table.mem_put.mp hx with rfl | ⟨row, ne⟩
        · rfl
        · rw [s.codes x row old hold (same.trans own.symm)] at ne
          exact absurd id.symm ne
      intro x hx y hy same
      by_cases here : x.categoryCode = code
      · rw [code_of x hx here, code_of y hy (same ▸ here)]
      · rcases Table.mem_put.mp hx with rfl | ⟨row, -⟩
        · exact absurd (named.trans own) here
        · rcases Table.mem_put.mp hy with rfl | ⟨row', -⟩
          · exact absurd (same.trans (named.trans own)) here
          · exact s.codes x row y row' same
    · have unused := s.fresh n later
      refine { unused with events := fun has => unused.events ?_ }
      rcases Table.has_put_iff.mp has with same | has
      · exact Table.has_iff.mpr ⟨old, hold, id.symm.trans same.symm⟩
      · exact has
    · intro x away
      rw [Table.mem_put]
      constructor
      · rintro (rfl | ⟨row, -⟩)
        · exact absurd (named.trans own) away
        · exact row
      · refine fun row => Or.inr ⟨row, fun same => away ?_⟩
        rw [Table.eq_of_key_eq row hold (same.trans id), own]
  | none =>
    have unused := s.fresh ws.registry.drawn (Nat.le_refl _)
    obtain ⟨minted, later⟩ := s.mint drawn
    have absent : ∀ x ∈ ws.events.rows, x.categoryCode ≠ code := fun x hx =>
      by simpa using List.find?_eq_none.mp before x hx
    let made : CompetitionEvent :=
      { id := (ws.mint p).1, categoryCode := code
        formatVersionId := catalogId p (if size = 2 then "doubles/1" else "singles/1")
        meetEventId := some code }
    obtain ⟨events, inserted⟩ : ∃ t, ws.events.insert made = some t :=
      Option.ne_none_iff_exists'.mp (fun h => unused.events (Table.insert_eq_none.mp h))
    have rows := (Table.insert_eq_some.mp inserted).2
    refine ⟨{ ((seedCatalog p ws).mint p).2 with events := events }, made, ?_,
      ⟨s.unique, s.ofUnit, ?_, fun n h => ?_⟩, ?_, rfl, ?_, rfl, rfl, rfl⟩
    · simp only [bind_eq_ok, found_eq_ok]
      exact ⟨events, inserted, rfl⟩
    · intro x hx y hy same
      simp only [rows, List.mem_append, List.mem_singleton] at hx hy
      rcases hx with hx | rfl <;> rcases hy with hy | rfl
      · exact s.codes x hx y hy same
      · exact absurd same (absent x hx)
      · exact absurd same.symm (absent y hy)
      · rfl
    · have unused := minted.fresh n h
      refine { unused with events := fun has => ?_ }
      rcases (Table.has_rows_concat rows).mp has with has | same
      · exact unused.events has
      · exact later n h same
    · exact Table.get_eq_some_iff.mpr ⟨by simp [rows], rfl⟩
    · intro x away
      simp only [rows, List.mem_append, List.mem_singleton]
      exact or_iff_left (fun same => away (congrArg CompetitionEvent.categoryCode same))

end

/-! ## Who is active together -/

/-- Two players are active in one unit of the event. -/
def Together (ws : Workspace) (event x y : Uuid) : Prop :=
  ∃ m ∈ ws.memberships.rows, ∃ m' ∈ ws.memberships.rows, m.competitionEventId = event ∧
    m'.competitionEventId = event ∧ m.status = .active ∧ m'.status = .active ∧
      m.unitId = m'.unitId ∧ m.playerId = x ∧ m'.playerId = y

variable {x y : Uuid}

section

variable {start : Workspace} {existing : List UnitMembership} {wanted units : List Uuid}
  {seats : List (Uuid × Uuid)} {groups : List (List Uuid)}

theorem mem_seatsOf {unit : Uuid} :
    (unit, x) ∈ seatsOf units groups ↔ ∃ g, (unit, g) ∈ units.zip groups ∧ x ∈ g := by
  simp only [seatsOf, List.mem_flatMap, List.mem_map, Prod.mk.injEq, Prod.exists]
  constructor
  · rintro ⟨u, g, hg, y, hy, rfl, rfl⟩
    exact ⟨g, hg, hy⟩
  · rintro ⟨g, hg, hx⟩
    exact ⟨unit, g, hg, x, hx, rfl, rfl⟩

theorem seatsOf_players (length : units.length = groups.length) :
    (seatsOf units groups).map Prod.snd = groups.flatten := by
  have snd : (units.zip groups).map Prod.snd = groups := List.map_snd_zip (Nat.le_of_eq length.symm)
  conv_rhs => rw [← snd]
  simp only [seatsOf, List.map_flatMap, List.map_map, List.flatten_eq_flatMap, List.flatMap_map]
  refine List.flatMap_congr fun x _ => ?_
  simp [Function.comp_def]

theorem Seating.active_iff (h : Seating p event start existing wanted ws seats)
    (once : (seats.map Prod.snd).Nodup) (covered : ∀ x ∈ wanted, x ∈ seats.map Prod.snd)
    (unit x : Uuid) : (∃ m ∈ ws.memberships.rows, m.competitionEventId = event ∧
      m.status = .active ∧ m.unitId = unit ∧ m.playerId = x) ↔ (unit, x) ∈ seats := by
  have taken : ∀ m ∈ ws.memberships.rows, m.competitionEventId = event →
      m.status = .active ∨ m.playerId ∈ seats.map Prod.snd →
        (m.unitId, m.playerId) ∈ seats ∧ m.status = .active := by
    intro m hm here either
    refine (h.rows m hm here).resolve_right ?_
    rintro ⟨free, -, coming⟩
    exact free (either.elim (fun active => covered _ (coming active)) id)
  constructor
  · rintro ⟨m, hm, here, active, rfl, rfl⟩
    exact (taken m hm here (Or.inl active)).1
  · intro seat
    obtain ⟨m, hm, here, same⟩ := h.present _ seat
    obtain ⟨theirs, active⟩ := taken m hm here
      (Or.inr (same ▸ List.mem_map_of_mem (f := Prod.snd) seat))
    have pair := List.inj_on_of_nodup_map once theirs seat same
    exact ⟨m, hm, here, active, congrArg Prod.fst pair, same⟩

theorem Seating.together_iff (h : Seating p event start existing wanted ws (seatsOf units groups))
    (length : units.length = groups.length) (once : groups.flatten.Nodup) (apart : units.Nodup)
    (covered : ∀ x ∈ wanted, x ∈ groups.flatten) :
    Together ws event x y ↔ ∃ g ∈ groups, x ∈ g ∧ y ∈ g := by
  have players := seatsOf_players length
  have active := h.active_iff (players.symm ▸ once) (fun x hx => players.symm ▸ covered x hx)
  have fst : (units.zip groups).map Prod.fst = units := List.map_fst_zip (Nat.le_of_eq length)
  have snd : (units.zip groups).map Prod.snd = groups := List.map_snd_zip (Nat.le_of_eq length.symm)
  constructor
  · rintro ⟨m, hm, m', hm', here, here', on, on', same, rfl, rfl⟩
    obtain ⟨g, hg, hx⟩ := mem_seatsOf.mp ((active _ _).mp ⟨m, hm, here, on, rfl, rfl⟩)
    obtain ⟨g', hg', hy⟩ := mem_seatsOf.mp ((active _ _).mp ⟨m', hm', here', on', same.symm, rfl⟩)
    obtain ⟨-, rfl⟩ := Prod.mk.inj (List.inj_on_of_nodup_map (fst ▸ apart) hg hg' rfl)
    exact ⟨g, snd ▸ List.mem_map_of_mem (f := Prod.snd) hg, hx, hy⟩
  · rintro ⟨g, hg, hx, hy⟩
    obtain ⟨⟨unit, g'⟩, zipped, rfl⟩ := List.mem_map.mp (snd ▸ hg)
    obtain ⟨m, hm, here, on, unit_, rfl⟩ := (active _ _).mpr (mem_seatsOf.mpr ⟨g', zipped, hx⟩)
    obtain ⟨m', hm', here', on', unit_', rfl⟩ :=
      (active _ _).mpr (mem_seatsOf.mpr ⟨g', zipped, hy⟩)
    exact ⟨m, hm, m', hm', here, here', on, on', unit_.trans unit_'.symm, rfl, rfl⟩

theorem Seating.count (h : Seating p event start existing wanted ws (seatsOf units groups))
    (length : units.length = groups.length) (once : groups.flatten.Nodup) (apart : units.Nodup)
    (covered : ∀ x ∈ wanted, x ∈ groups.flatten) {unit : Uuid} {g : List Uuid}
    (hg : (unit, g) ∈ units.zip groups) (here : InEvent ws event unit) :
    (ws.activeMembersOf unit).length = g.length := by
  have players := seatsOf_players length
  have active := h.active_iff (players.symm ▸ once) (fun x hx => players.symm ▸ covered x hx)
  have fst : (units.zip groups).map Prod.fst = units := List.map_fst_zip (Nat.le_of_eq length)
  have snd : (units.zip groups).map Prod.snd = groups := List.map_snd_zip (Nat.le_of_eq length.symm)
  have listed : ∀ m, m ∈ ws.activeMembersOf unit ↔
      m ∈ ws.memberships.rows ∧ m.unitId = unit ∧ m.status = .active := by
    intro m
    simp [Workspace.activeMembersOf, Workspace.membersOf, and_assoc]
  have inside : ∀ m ∈ ws.activeMembersOf unit, m.competitionEventId = event := by
    intro m hm
    obtain ⟨row, same, -⟩ := (listed m).mp hm
    obtain ⟨u, found_, event_⟩ := h.editing.stored.ofUnit m row
    obtain ⟨u', found', event'⟩ := here
    rw [same, found', Option.some.injEq] at found_
    rw [← event_, ← found_, event']
  have perm : ((ws.activeMembersOf unit).map UnitMembership.playerId).Perm g := by
    rw [List.perm_ext_iff_of_nodup]
    · intro x
      rw [List.mem_map]
      constructor
      · rintro ⟨m, hm, rfl⟩
        obtain ⟨row, same, on⟩ := (listed m).mp hm
        obtain ⟨g', hg', hx⟩ :=
          mem_seatsOf.mp ((active _ _).mp ⟨m, row, inside m hm, on, same, rfl⟩)
        obtain ⟨-, rfl⟩ := Prod.mk.inj (List.inj_on_of_nodup_map (fst ▸ apart) hg hg' rfl)
        exact hx
      · intro hx
        obtain ⟨m, row, -, on, same, own⟩ := (active _ _).mpr (mem_seatsOf.mpr ⟨g, hg, hx⟩)
        exact ⟨m, (listed m).mpr ⟨row, same, on⟩, own⟩
    · refine List.Nodup.map_on (fun m hm m' hm' same => ?_) ?_
      · exact h.editing.stored.once ((listed m).mp hm).1 ((listed m').mp hm').1
          ((inside m hm).trans (inside m' hm').symm) same
      · refine List.Nodup.filter _ ((List.mergeSort_perm _ _).nodup_iff.mpr ?_)
        exact (List.Nodup.of_map _ ws.memberships.unique).filter _
    · exact (List.nodup_flatten.mp once).1 g (snd ▸ List.mem_map_of_mem (f := Prod.snd) hg)
  rw [← perm.length_eq, List.length_map]

end

/-! ## One code -/

/-- Every row has a player, and those of the code have players of their own. -/
structure Rostered (players : List (String × Uuid)) (rows : List JsonObject) (code : String) :
    Prop where
  ids : (rows.map rowId).Nodup
  known : ∀ row ∈ rows, ∃ x, Assoc.get (rowId row) players = some x
  apart : ∀ k ∈ Assoc.keys (desiredRows code rows), ∀ l ∈ Assoc.keys (desiredRows code rows),
    ∀ x, Assoc.get k players = some x → Assoc.get l players = some x → k = l

/-- What no order of the rows decides: the event may be edited, and the declarations answer
each other and fit its format. -/
structure Suits (ws : Workspace) (e : CompetitionEvent) (code : String)
    (desired : List (String × JsonObject)) : Prop where
  editable : ¬ Drawn ws e
  paired : Paired code desired
  fits : ∀ k l, Matched code desired k l → ∃ f, ws.formats.get e.formatVersionId = some f ∧
    (if k = l then 1 else 2) ≤ f.rosterMax

section

variable {players : List (String × Uuid)} {rows : List JsonObject} {code : String}
  {ws₁ out : Workspace} {e : CompetitionEvent} {groups : List (List String)}

theorem keys_desiredRows :
    Assoc.keys (desiredRows code rows) =
      (rows.filter (fun row => code ∈ ranksOf row)).map rowId := by
  simp [Assoc.keys, desiredRows, Function.comp_def]

theorem nodup_desiredRows (ids : (rows.map rowId).Nodup) :
    (Assoc.keys (desiredRows code rows)).Nodup := by
  rw [keys_desiredRows]
  exact ids.sublist (List.filter_sublist.map rowId)

namespace Rostered

variable (n : Rostered players rows code)

include n

theorem known_key {k : String} (hk : k ∈ Assoc.keys (desiredRows code rows)) :
    ∃ x, Assoc.get k players = some x := by
  rw [keys_desiredRows] at hk
  obtain ⟨row, hrow, rfl⟩ := List.mem_map.mp hk
  exact n.known row (List.mem_of_mem_filter hrow)

theorem nodup_groups (formed : Formed code (desiredRows code rows) [] groups) :
    (groups.map (fun g => g.filterMap (fun key => Assoc.get key players))).flatten.Nodup := by
  rw [← List.filterMap_flatten]
  refine List.pairwise_filterMap.mpr (formed.nodup.imp_of_mem fun hk hl ne x hx y hy => ?_)
  rintro rfl
  exact ne (n.apart _ (formed.mem_keys hk) _ (formed.mem_keys hl) x hx hy)

end Rostered

theorem ingestCode_eq (drawn : Function.Injective p.uuid4) (n : Rostered players rows code)
    (ensured : ensureEvent p ws code (groupSize code (desiredRows code rows)) false = .ok (ws₁, e))
    (h : Ensured p code ws ws₁ e) (editable : ¬ Drawn ws₁ e)
    (ok : groupsOf code (desiredRows code rows) (desiredRows code rows) [] = .ok groups) :
    ∃ ws₂ used list existing wanted, ingestCode p players rows ws code = settleUnits used ws₂ list ∧
      Seating p e.id ws₁ existing wanted ws₂ (seatsOf used
        (groups.map (fun g => g.filterMap (fun key => Assoc.get key players)))) ∧
      used.length = groups.length ∧ used.Nodup ∧ (∀ unit ∈ used, unit ∈ list) ∧
      (∀ unit ∈ list, InEvent ws₂ e.id unit) ∧
      ∀ x ∈ wanted, x ∈ (groups.map
        (fun g => g.filterMap (fun key => Assoc.get key players))).flatten := by
  have keys := @nodup_desiredRows rows code n.ids
  have formed := groupsOf_formed (fun x hx => Or.inl hx) ok
  let named := groups.map (fun g => g.filterMap (fun key => Assoc.get key players))
  let existing := ws₁.memberships.rows.filter (fun m => m.competitionEventId = e.id)
  let units := unitsOf ws₁ e.id
  let oldGroups := units.map (fun u => (u.id, (existing.filter (fun m =>
    m.unitId = u.id ∧ m.status = .active)).map UnitMembership.playerId))
  let wanted := (Assoc.keys (desiredRows code rows)).filterMap (fun key => Assoc.get key players)
  have member : ∀ m, m ∈ existing ↔ m ∈ ws₁.memberships.rows ∧ m.competitionEventId = e.id := by
    simp [existing]
  have mem_units : ∀ u, u ∈ units ↔ u ∈ ws₁.units.rows ∧ u.competitionEventId = e.id := by
    simp [units, unitsOf]
  obtain ⟨wsₒ, opened, only, pending⟩ := @openUnits_ok ws₁ units
    (ws₁.units.unique.sublist (List.filter_sublist.map _))
    (fun u hu => Table.get_eq_some_iff.mpr ⟨((mem_units u).mp hu).1, rfl⟩)
  have editing : Editing p e.id ws₁ wsₒ := by
    refine ⟨only.stored h.stored, only.beside _, fun unit here => only.unit here,
      fun u hu here => ?_⟩
    refine (pending u hu).resolve_left fun before => before.2 ?_
    exact List.mem_map_of_mem ((mem_units u).mpr ⟨before.1, here⟩)
  obtain ⟨wsw, withdrawn, seating⟩ := @withdrawUnwanted_ok _ _ _ _ existing wanted existing editing
    (ws₁.memberships.unique.sublist (List.filter_sublist.map _))
    (fun m hm => by
      rw [only.memberships]
      exact ⟨Table.get_eq_some_iff.mpr ⟨((member m).mp hm).1, rfl⟩, ((member m).mp hm).2⟩)
    (fun m hm here => by
      rw [only.memberships] at hm
      have listed := (member m).mpr ⟨hm, here⟩
      exact ⟨⟨m, listed, rfl⟩, fun _ => Or.inr listed⟩)
    (fun m hm => by
      rw [only.memberships]
      exact ⟨m, Table.get_eq_some_iff.mpr ⟨((member m).mp hm).1, rfl⟩, rfl, ((member m).mp hm).2⟩)
  obtain ⟨ws₂, used, seated, length, apart, inside, seating⟩ :=
    @seatGroups_ok _ _ _ _ drawn _ _ _ named oldGroups [] seating
      (fun x hx => by
        obtain ⟨u, hu, rfl⟩ := List.mem_map.mp hx
        obtain ⟨row, here⟩ := (mem_units u).mp hu
        exact ⟨u, Table.get_eq_some_iff.mpr ⟨row, rfl⟩, here⟩)
      (n.nodup_groups formed) (by simp) (by simp) List.nodup_nil
  simp only [List.nil_append] at seated apart inside seating
  let old := units.map CompetitionUnit.id
  refine ⟨ws₂, used, old ++ used.filter (fun unit => unit ∉ old), existing, wanted, ?_, seating,
    by simpa [named] using length, apart, ?_, ?_, ?_⟩
  · unfold ingestCode assertEditable
    simp only [ensured, ok_bind, require, if_pos editable, ok]
    show (openUnits ws₁ units >>= _) = _
    rw [opened, ok_bind]
    show (withdrawUnwanted wanted wsₒ existing >>= _) = _
    rw [withdrawn, ok_bind]
    show (seatGroups p existing oldGroups e.id wsw [] named >>= _) = _
    rw [seated, ok_bind]
  · intro unit hu
    by_cases listed : unit ∈ old
    · exact List.mem_append_left _ listed
    · exact List.mem_append_right _ (List.mem_filter.mpr ⟨hu, by simpa using listed⟩)
  · intro unit hu
    rcases List.mem_append.mp hu with hu | hu
    · obtain ⟨u, was, rfl⟩ := List.mem_map.mp hu
      obtain ⟨row, here⟩ := (mem_units u).mp was
      exact seating.editing.units _ ⟨u, Table.get_eq_some_iff.mpr ⟨row, rfl⟩, here⟩
    · exact inside unit (List.mem_of_mem_filter hu)
  · intro x hx
    obtain ⟨k, hk, found_⟩ := List.mem_filterMap.mp hx
    obtain ⟨row, hrow⟩ := row_of_mem_keys hk
    have covered := (formed.covers _ hrow).resolve_left List.not_mem_nil
    rw [← List.filterMap_flatten]
    exact List.mem_filterMap.mpr ⟨k, covered, found_⟩

theorem Rostered.length_group (n : Rostered players rows code)
    (ok : groupsOf code (desiredRows code rows) (desiredRows code rows) [] = .ok groups)
    {g : List String} (hg : g ∈ groups) :
    (g.filterMap (fun key => Assoc.get key players)).length = g.length := by
  have formed := groupsOf_formed (fun x hx => Or.inl hx) ok
  refine List.filterMap_length_eq_length.mpr fun k hk => ?_
  obtain ⟨x, found_⟩ := n.known_key (formed.mem_keys (List.mem_flatten.mpr ⟨g, hg, hk⟩))
  simp [found_]

/-- **A code is accepted exactly where its event suits the rows, and every partner that declares
nobody stands in turn.** -/
theorem ingestCode_isOk_iff (drawn : Function.Injective p.uuid4) (n : Rostered players rows code)
    (ensured : ensureEvent p ws code (groupSize code (desiredRows code rows)) false = .ok (ws₁, e))
    (h : Ensured p code ws ws₁ e) :
    (∃ out, ingestCode p players rows ws code = .ok out) ↔
      Suits ws₁ e code (desiredRows code rows) ∧ InTurn code (desiredRows code rows) := by
  have keys := @nodup_desiredRows rows code n.ids
  -- the groups and the units they sit in
  have fitting : ∀ groups, ¬ Drawn ws₁ e →
      groupsOf code (desiredRows code rows) (desiredRows code rows) [] = .ok groups →
        ((∃ out, ingestCode p players rows ws code = .ok out) ↔
          ∀ g ∈ groups, ∃ f, ws₁.formats.get e.formatVersionId = some f ∧
            g.length ≤ f.rosterMax) := by
    intro groups editable ok
    obtain ⟨ws₂, used, list, existing, wanted, same, seating, length, apart, listed, inside,
      covered⟩ := ingestCode_eq drawn n ensured h editable ok
    have once := n.nodup_groups (groupsOf_formed (fun x hx => Or.inl hx) ok)
    have known : ws₂.events.get e.id = some e := by
      rw [seating.editing.beside.events]
      exact h.known
    have length' : used.length = (groups.map
        (fun g => g.filterMap (fun key => Assoc.get key players))).length := by simpa using length
    have fst := List.map_fst_zip (Nat.le_of_eq length')
    have snd := List.map_snd_zip (Nat.le_of_eq length'.symm)
    have fits : ∀ unit named, (unit, named) ∈ used.zip (groups.map
        (fun g => g.filterMap (fun key => Assoc.get key players))) →
          (FitsFormat ws₂ e unit ↔ ∃ f, ws₁.formats.get e.formatVersionId = some f ∧
            named.length ≤ f.rosterMax) := by
      intro unit named zipped
      have hu : unit ∈ used := fst ▸ List.mem_map_of_mem (f := Prod.fst) zipped
      rw [FitsFormat,
        seating.count length' once apart covered zipped (inside unit (listed unit hu)),
        seating.editing.beside.formats]
    rw [same]
    constructor
    · rintro ⟨out, done⟩ g hg
      have hn : g.filterMap (fun key => Assoc.get key players) ∈ groups.map
        (fun g => g.filterMap (fun key => Assoc.get key players)) := List.mem_map_of_mem hg
      obtain ⟨⟨unit, named⟩, zipped, same⟩ := List.mem_map.mp (snd ▸ hn)
      have hu : unit ∈ used := fst ▸ List.mem_map_of_mem (f := Prod.fst) zipped
      have fit := (fits unit named zipped).mp
        (settleUnits_fitting known inside done unit (listed unit hu) hu)
      rwa [show named = _ from same, n.length_group ok hg] at fit
    · intro all
      have fitted : ∀ unit ∈ list, unit ∈ used → FitsFormat ws₂ e unit := by
        intro unit _ hu
        rw [← fst] at hu
        obtain ⟨⟨unit, named⟩, zipped, rfl⟩ := List.mem_map.mp hu
        refine (fits unit named zipped).mpr ?_
        have hn : named ∈ groups.map (fun g => g.filterMap (fun key => Assoc.get key players)) :=
          snd ▸ List.mem_map_of_mem (f := Prod.snd) zipped
        obtain ⟨g, hg, rfl⟩ := List.mem_map.mp hn
        rw [n.length_group ok hg]
        exact all g hg
      obtain ⟨out, done, -⟩ := settleUnits_ok known inside fitted
      exact ⟨out, done⟩
  have less : ∀ m k : Nat, m ≤ k →
      (∃ f, ws₁.formats.get e.formatVersionId = some f ∧ k ≤ f.rosterMax) →
        ∃ f, ws₁.formats.get e.formatVersionId = some f ∧ m ≤ f.rosterMax := by
    rintro m k few ⟨f, found_, fits⟩
    exact ⟨f, found_, few.trans fits⟩
  constructor
  · rintro ⟨out, done⟩
    have begun := done
    unfold ingestCode assertEditable at begun
    simp only [bind_eq_ok, require_eq_ok, ensured, Except.ok.injEq] at begun
    obtain ⟨_, rfl, ⟨⟩, editable, groups, ok, -⟩ := begun
    have formed := groupsOf_formed (fun x hx => Or.inl hx) ok
    have fits := (formed.lengths keys less).mp ((fitting groups editable ok).mp ⟨out, done⟩)
    exact ⟨⟨editable, formed.paired keys, fits⟩, formed.inTurn keys⟩
  · rintro ⟨⟨editable, paired, fits⟩, turn⟩
    obtain ⟨groups, ok⟩ := (groupsOf_isOk_iff keys).mpr ⟨paired, turn⟩
    have formed := groupsOf_formed (fun x hx => Or.inl hx) ok
    exact (fitting groups editable ok).mpr ((formed.lengths keys less).mpr fits)

theorem ingestCode_done (drawn : Function.Injective p.uuid4) (n : Rostered players rows code)
    (ensured : ensureEvent p ws code (groupSize code (desiredRows code rows)) false = .ok (ws₁, e))
    (h : Ensured p code ws ws₁ e) (done : ingestCode p players rows ws code = .ok out) :
    SoundRows p out ∧ Beside e.id ws₁ out ∧ ∀ x y, Together out e.id x y ↔
      ∃ k l, Matched code (desiredRows code rows) k l ∧ Assoc.get k players = some x ∧
        Assoc.get l players = some y := by
  obtain ⟨⟨editable, paired, -⟩, turn⟩ := (ingestCode_isOk_iff drawn n ensured h).mp ⟨out, done⟩
  obtain ⟨groups, ok⟩ := (groupsOf_isOk_iff (nodup_desiredRows n.ids)).mpr ⟨paired, turn⟩
  obtain ⟨ws₂, used, list, existing, wanted, same, seating, length, apart, listed, inside,
    covered⟩ := ingestCode_eq drawn n ensured h editable ok
  have formed := groupsOf_formed (fun x hx => Or.inl hx) ok
  have known : ws₂.events.get e.id = some e := by
    rw [seating.editing.beside.events]
    exact h.known
  rw [same] at done
  obtain ⟨out', done', only⟩ := settleUnits_ok known inside
    (fun unit hl hu => settleUnits_fitting known inside done unit hl hu)
  obtain rfl := Except.ok.inj (done.symm.trans done')
  refine ⟨only.stored seating.editing.stored, seating.editing.beside.trans (only.beside _),
    fun x y => ?_⟩
  have kept : Together out e.id x y ↔ Together ws₂ e.id x y := by
    unfold Together
    rw [only.memberships]
  rw [kept, seating.together_iff (by simpa using length) (n.nodup_groups formed) apart covered]
  simp only [← formed.joined (nodup_desiredRows n.ids), List.mem_map]
  constructor
  · rintro ⟨_, ⟨g, hg, rfl⟩, hx, hy⟩
    obtain ⟨k, hk, hx⟩ := List.mem_filterMap.mp hx
    obtain ⟨l, hl, hy⟩ := List.mem_filterMap.mp hy
    exact ⟨k, l, ⟨g, hg, hk, hl⟩, hx, hy⟩
  · rintro ⟨k, l, ⟨g, hg, hk, hl⟩, hx, hy⟩
    exact ⟨_, ⟨g, hg, rfl⟩, List.mem_filterMap.mpr ⟨k, hk, hx⟩, List.mem_filterMap.mpr ⟨l, hl, hy⟩⟩

/-! ## Two orders -/

theorem groupSize_perm {desired desired' : List (String × JsonObject)}
    (same : desired.Perm desired') : groupSize code desired = groupSize code desired' := by
  have any : desired.any (fun x => (partnerOf code x.2).isSome) =
      desired'.any (fun x => (partnerOf code x.2).isSome) := by
    rw [Bool.eq_iff_iff, List.any_eq_true, List.any_eq_true]
    simp only [same.mem_iff]
  simp only [groupSize, any]

theorem desiredRows_perm {rows' : List JsonObject} (same : rows.Perm rows') :
    (desiredRows code rows).Perm (desiredRows code rows') :=
  (same.filter _).map _

theorem Suits.perm {desired desired' : List (String × JsonObject)} (same : desired.Perm desired')
    (h : Suits ws e code desired) : Suits ws e code desired' :=
  ⟨h.editable, h.paired.perm same, fun k l m => h.fits k l ((Matched.perm same).mpr m)⟩

theorem Rostered.perm {rows' : List JsonObject} (same : rows.Perm rows')
    (n : Rostered players rows code) : Rostered players rows' code := by
  refine ⟨(same.map rowId).nodup_iff.mp n.ids, fun row hr => n.known row (same.mem_iff.mpr hr), ?_⟩
  have keys : (Assoc.keys (desiredRows code rows)).Perm (Assoc.keys (desiredRows code rows')) :=
    (desiredRows_perm same).map _
  intro k hk l hl
  exact n.apart k (keys.mem_iff.mpr hk) l (keys.mem_iff.mpr hl)

/-- **Two orders of the rows of a code** are both accepted or both refused exactly where the event
does not suit them or the silent partners stand in turn in both or in neither. -/
theorem ingestCode_perm (drawn : Function.Injective p.uuid4) (s : SoundRows p ws)
    (n : Rostered players rows code) {rows' : List JsonObject} (same : rows.Perm rows') :
    ∃ ws₁ e, ensureEvent p ws code (groupSize code (desiredRows code rows)) false = .ok (ws₁, e) ∧
      (((∃ out, ingestCode p players rows ws code = .ok out) ↔
          ∃ out, ingestCode p players rows' ws code = .ok out) ↔
        (Suits ws₁ e code (desiredRows code rows) →
          (InTurn code (desiredRows code rows) ↔ InTurn code (desiredRows code rows')))) := by
  have desired := @desiredRows_perm rows code rows' same
  obtain ⟨ws₁, e, ensured, h⟩ :=
    @ensureEvent_ok _ _ code (groupSize code (desiredRows code rows)) drawn s
  have ensured' := ensured
  rw [groupSize_perm desired] at ensured'
  refine ⟨ws₁, e, ensured, ?_⟩
  rw [ingestCode_isOk_iff drawn n ensured h, ingestCode_isOk_iff drawn (n.perm same) ensured' h]
  have suits : Suits ws₁ e code (desiredRows code rows) ↔ Suits ws₁ e code (desiredRows code rows') :=
    ⟨fun h => h.perm desired, fun h => h.perm desired.symm⟩
  rw [← suits]
  tauto

end

end Competition
