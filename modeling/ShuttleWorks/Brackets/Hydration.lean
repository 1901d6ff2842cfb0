import ShuttleWorks.Brackets.Rows

/-! Draws read back from their rows. Rows that show the units of a draw, each at its
place, give back the units, the waves and the segments, in whatever order they come. -/

namespace Brackets
open Lib

variable {eventId : EventId} {rounds : List (List PlayUnitId)} {units : PlayUnits}
  {rows : List MatchRow}

/-- The rows are the units, each at its place of the rounds. -/
structure Rendered (eventId : EventId) (rounds : List (List PlayUnitId)) (units : PlayUnits)
    (rows : List MatchRow) : Prop where
  unique : (rows.map MatchRow.id).Nodup
  unit : ∀ row ∈ rows, ∃ u, units.get row.id = some u ∧ u.eventId = eventId ∧
    row = { matchRow eventId row.roundIndex row.matchIndex u with version := row.version }
  place : ∀ r m id, At rounds r m id ↔
    ∃ row ∈ rows, row.roundIndex = r ∧ row.matchIndex = m ∧ row.id = id

/-! ## Units and waves -/

theorem playUnitFromRow_matchRow {u : PlayUnit} (h : u.eventId = eventId) (r m v : Nat) :
    playUnitFromRow eventId { matchRow eventId r m u with version := v } = .ok u := by
  subst h
  simp only [playUnitFromRow, matchRow, dictToSlot_slotToDict, parsePlayUnitKind_upper]
  rfl

namespace Rendered

theorem units_ok (h : Rendered eventId rounds units rows) :
    ∃ us, rows.mapM (playUnitFromRow eventId) = .ok us ∧
      us.map PlayUnit.id = rows.map MatchRow.id ∧ ∀ u ∈ us, units.get u.id = some u := by
  refine mapM_ok (fun row hrow => ?_)
  obtain ⟨u, hu, he, hr⟩ := h.unit row hrow
  have key : u.id = row.id := Table.key_of_get hu
  refine ⟨u, ?_, key, key ▸ hu⟩
  rw [hr]
  exact playUnitFromRow_matchRow he _ _ _

theorem nodup_places (h : Rendered eventId rounds units rows) {own : List MatchRow}
    (sub : own.Sublist rows) (r m : MatchRow → Nat) :
    (own.map fun row => (r row, m row, row.id)).Nodup := by
  refine List.Nodup.of_map (fun e => e.2.2) ?_
  rw [List.map_map]
  exact (sub.map MatchRow.id).nodup h.unique

/-- **The waves are read back**, but for those without units. -/
theorem regroup_rounds (h : Rendered eventId rounds units rows) :
    regroup (rows.map fun row => (row.roundIndex, row.matchIndex, row.id)) =
      rounds.filter fun round => round ≠ [] := by
  refine regroup_eq (h.nodup_places (List.Sublist.refl _) _ _) (fun r m id => ?_)
  rw [h.place, List.mem_map]
  constructor
  · rintro ⟨row, hrow, e⟩
    cases e
    exact ⟨row, hrow, rfl, rfl, rfl⟩
  · rintro ⟨row, hrow, rfl, rfl, rfl⟩
    exact ⟨row, hrow, rfl⟩

/-! ## Segments -/

theorem segments_none (h : Rendered eventId rounds units rows) (formatId : String)
    (plain : ∀ u ∈ units.rows, u.metadata.segment = none) :
    segmentsFromMatchMeta formatId rows = none := by
  have ids : rows.filterMap (fun row => row.metadata.segment) = [] := by
    refine List.filterMap_eq_nil_iff.mpr (fun row hrow => ?_)
    obtain ⟨u, hu, -, hr⟩ := h.unit row hrow
    rw [hr]
    exact plain u (Table.mem_of_get hu)
  rw [segmentsFromMatchMeta, ids]
  rfl

end Rendered

/-- The metadata of every row names its place in one of the segments, and every place is named. -/
structure Named (formatId : String) (rows : List MatchRow) (segments : List DrawSegment) :
    Prop where
  unique : (rows.map MatchRow.id).Nodup
  segmented : ∀ row ∈ rows, ∃ seg ∈ segments, row.metadata.segment = some seg.id ∧
    row.metadata.segmentOrder = seg.order ∧ row.metadata.positions = seg.positions ∧
    At seg.rounds row.metadata.round row.metadata.matchIndex row.id
  place : ∀ seg ∈ segments, ∀ r m id, At seg.rounds r m id → ∃ row ∈ rows, row.id = id ∧
    row.metadata.segment = some seg.id ∧ row.metadata.round = r ∧ row.metadata.matchIndex = m

variable {formatId : String} {segments : List DrawSegment}

theorem Rendered.named (h : Rendered eventId rounds units rows)
    (segmented : Segmented formatId units.rows segments)
    (all : ∀ u ∈ units.rows, u.id ∈ rounds.flatten) : Named formatId rows segments where
  unique := h.unique
  segmented := by
    intro row hrow
    obtain ⟨u, hu, -, hr⟩ := h.unit row hrow
    have key : u.id = row.id := Table.key_of_get hu
    obtain ⟨seg, hs, own, order, pos, place⟩ := segmented.ofUnit u (Table.mem_of_get hu)
    have metadata : row.metadata = u.metadata := congrArg MatchRow.metadata hr
    rw [metadata, ← key]
    exact ⟨seg, hs, own, order, pos, place⟩
  place := by
    intro seg hs r m id hid
    obtain ⟨u, hu, rfl, own, hr, hm⟩ := segmented.ofPlace seg hs r m id hid
    obtain ⟨r', m', place⟩ := mem_flatten_iff_at.mp (all u hu)
    obtain ⟨row, hrow, -, -, e⟩ := (h.place r' m' u.id).mp place
    obtain ⟨u', hu', -, hr'⟩ := h.unit row hrow
    have same : u' = u := by
      rw [e, Table.get_eq_some_iff.mpr ⟨hu, rfl⟩] at hu'
      exact (Option.some.inj hu').symm
    subst same
    have metadata : row.metadata = u'.metadata := congrArg MatchRow.metadata hr'
    exact ⟨row, hrow, e, by rw [metadata]; exact ⟨own, hr, hm⟩⟩

namespace Named

variable {seg : DrawSegment}

theorem eq_of_id (segmented : (segments.map DrawSegment.id).Nodup) {seg' : DrawSegment}
    (hs : seg ∈ segments) (hs' : seg' ∈ segments) (e : seg.id = seg'.id) : seg = seg' :=
  List.inj_on_of_nodup_map segmented hs hs' e

theorem own (h : Named formatId rows segments) (ids : (segments.map DrawSegment.id).Nodup)
    (hs : seg ∈ segments) {row : MatchRow} (hrow : row ∈ rows)
    (e : row.metadata.segment = some seg.id) : row.metadata.segmentOrder = seg.order ∧
      row.metadata.positions = seg.positions ∧
      At seg.rounds row.metadata.round row.metadata.matchIndex row.id := by
  obtain ⟨seg', hs', e', rest⟩ := h.segmented row hrow
  rw [e] at e'
  obtain rfl := eq_of_id ids hs hs' (Option.some.inj e')
  exact rest

theorem exists_own (h : Named formatId rows segments) (hs : seg ∈ segments)
    (some : seg.rounds ≠ [] ∧ ∀ round ∈ seg.rounds, round ≠ []) :
    ∃ row ∈ rows, row.metadata.segment = Option.some seg.id := by
  obtain ⟨round, rest, hr⟩ := List.exists_cons_of_ne_nil some.1
  obtain ⟨id, others, hid⟩ := List.exists_cons_of_ne_nil (some.2 round (by simp [hr]))
  obtain ⟨row, hrow, -, e, -⟩ := h.place seg hs 0 0 id ⟨round, by simp [hr], by simp [hid]⟩
  exact ⟨row, hrow, e⟩

variable (h : Named formatId rows segments)
  {all : List PlayUnit} (segmented : Segmented formatId all segments)

include h segmented

theorem segmentFromRows_eq (hs : seg ∈ segments) :
    segmentFromRows formatId rows (seg.order, seg.id) = seg := by
  have mem : ∀ row, row ∈ (rows.filter fun row => row.metadata.segment = some seg.id) ↔
      row ∈ rows ∧ row.metadata.segment = some seg.id := by
    intro row
    rw [List.mem_filter, decide_eq_true_eq]
  have positions : ((rows.filter fun row => row.metadata.segment = some seg.id).findSome?
      fun row => segmentPositions seg.id row.metadata.positions) = seg.positions := by
    refine findSome?_eq_of_forall ?_ (fun row hrow => ?_)
    · obtain ⟨row, hrow, e⟩ := h.exists_own hs (segmented.rounds seg hs)
      exact List.ne_nil_of_mem ((mem row).mpr ⟨hrow, e⟩)
    · obtain ⟨hrow, e⟩ := (mem row).mp hrow
      rw [(h.own segmented.ids hs hrow e).2.1]
      exact segmented.positions seg hs
  have places : regroup ((rows.filter fun row => row.metadata.segment = some seg.id).map
      fun row => (row.metadata.round, row.metadata.matchIndex, row.id)) = seg.rounds := by
    rw [regroup_eq ?_ ?_]
    · refine List.filter_eq_self.mpr (fun round hr => ?_)
      simpa using (segmented.rounds seg hs).2 round hr
    · refine List.Nodup.of_map (fun e => e.2.2) ?_
      rw [List.map_map]
      exact (List.filter_sublist.map MatchRow.id).nodup h.unique
    · intro r m id
      simp only [List.mem_map, mem]
      constructor
      · rintro ⟨row, ⟨hrow, e⟩, place⟩
        cases place
        exact (h.own segmented.ids hs hrow e).2.2
      · intro place
        obtain ⟨row, hrow, rfl, e, rfl, rfl⟩ := h.place seg hs r m id place
        exact ⟨row, ⟨hrow, e⟩, rfl⟩
  have label := segmented.label seg hs
  simp only [segmentFromRows, positions, places, ← label]

theorem segmentOrderOf_eq (hs : seg ∈ segments) :
    segmentOrderOf rows seg.id = seg.order := by
  rw [segmentOrderOf]
  cases hf : rows.find? (fun row => row.metadata.segment = some seg.id) with
  | none =>
    obtain ⟨row, hrow, e⟩ := h.exists_own hs (segmented.rounds seg hs)
    exact absurd e (by simpa using List.find?_eq_none.mp hf row hrow)
  | some row =>
    have e : row.metadata.segment = some seg.id := by simpa using List.find?_some hf
    exact (h.own segmented.ids hs (List.mem_of_find?_eq_some hf) e).1

/-- **The segments are read back**, in their order. -/
theorem segments_eq : segmentsFromMatchMeta formatId rows = some segments := by
  have mem : ∀ x, x ∈ (rows.filterMap fun row => row.metadata.segment).dedup ↔
      ∃ seg ∈ segments, seg.id = x := by
    intro x
    rw [List.mem_dedup, List.mem_filterMap]
    constructor
    · rintro ⟨row, hrow, e⟩
      obtain ⟨seg, hs, e', -⟩ := h.segmented row hrow
      rw [e] at e'
      exact ⟨seg, hs, (Option.some.inj e').symm⟩
    · rintro ⟨seg, hs, rfl⟩
      exact h.exists_own hs (segmented.rounds seg hs)
  have ascending : (segments.map fun seg => (seg.order, seg.id)).Pairwise
      fun p q => p.1 < q.1 := by
    refine List.pairwise_map.mpr (List.pairwise_iff_getElem.mpr (fun i j hi hj lt => ?_))
    rw [segmented.order i _ (List.getElem?_eq_getElem hi),
      segmented.order j _ (List.getElem?_eq_getElem hj)]
    exact lt
  have buckets : (((rows.filterMap fun row => row.metadata.segment).dedup.map
      fun segId => (segmentOrderOf rows segId, segId)).insertionSort columnLe) =
        segments.map fun seg => (seg.order, seg.id) := by
    refine insertionSort_eq_of_perm (r := columnLe) (s := fun p q => p.1 < q.1)
      (fun _ _ => Or.inl) ?_ ?_ ascending
    · rintro p q lt (h | ⟨h, -⟩) <;> omega
    · refine (List.perm_ext_iff_of_nodup ?_ (ascending.imp ?_)).mpr ?_
      · refine List.Nodup.map (fun x y e => congrArg Prod.snd e) (List.nodup_dedup _)
      · rintro p q lt rfl
        omega
      · rintro ⟨order, segId⟩
        simp only [List.mem_map, mem, Prod.mk.injEq]
        constructor
        · rintro ⟨_, ⟨seg, hs, rfl⟩, rfl, rfl⟩
          exact ⟨seg, hs, (h.segmentOrderOf_eq segmented hs).symm, rfl⟩
        · rintro ⟨seg, hs, rfl, rfl⟩
          exact ⟨seg.id, ⟨seg, hs, rfl⟩, h.segmentOrderOf_eq segmented hs, rfl⟩
  have some : (rows.filterMap fun row => row.metadata.segment).dedup ≠ [] := by
    obtain ⟨seg, rest, e⟩ := List.exists_cons_of_ne_nil segmented.nonempty
    exact List.ne_nil_of_mem ((mem seg.id).mpr ⟨seg, by simp [e], rfl⟩)
  have each : ∀ seg ∈ segments, segmentFromRows formatId rows (seg.order, seg.id) = seg :=
    fun seg hs => h.segmentFromRows_eq segmented hs
  simp only [segmentsFromMatchMeta, if_neg some, buckets, List.map_map]
  exact congrArg Option.some ((List.map_congr_left each).trans (List.map_id' _))

end Named

end Brackets
