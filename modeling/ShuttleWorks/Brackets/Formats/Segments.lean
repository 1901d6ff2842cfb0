import ShuttleWorks.Brackets.Formats.Knockout
import ShuttleWorks.Brackets.Formats.Waves
import ShuttleWorks.Brackets.Registration

/-! Draws put together from segments: their labels, the positions they decide, and
the units of all segments under one set of waves. A layout of regular segments,
each unit of which depends on earlier rounds or earlier segments, gives a drawn draw. -/

namespace Brackets
open Lib

/-! ## Labels and positions -/

/-- The range in an id of the form `P{lo}_{hi}`. -/
def positionsOfId (segId : String) : Option (Nat × Nat) :=
  match segId.toList with
  | 'P' :: rest =>
    match rest.dropWhile Char.isDigit with
    | '_' :: hi =>
      let lo := rest.takeWhile Char.isDigit
      if lo ≠ [] ∧ hi ≠ [] ∧ ∀ c ∈ hi, c.isDigit then
        some (Nat.ofDigitChars 10 lo 0, Nat.ofDigitChars 10 hi 0)
      else none
    | _ => none
  | _ => none

/-- `segment_positions`: the explicit range, or the one the id spells. -/
def segmentPositions (segId : String) (positions : Option (Nat × Nat)) : Option (Nat × Nat) :=
  match positions with
  | some range => some range
  | none => positionsOfId segId

def labelsByFormat : List (String × List (String × String)) :=
  [("de", [("W", "Main draw"), ("L", "Losers bracket"), ("GF", "Grand final")]),
   ("monrad", [("M", "Main draw"), ("PLATE", "Plate")]),
   ("compass", [("E", "East"), ("W", "West"), ("N", "North"), ("S", "South"), ("NE", "Northeast"),
     ("NW", "Northwest"), ("SE", "Southeast"), ("SW", "Southwest")])]

def segmentLabel (formatId segId : String) (positions : Option (Nat × Nat) := none) : String :=
  match Assoc.get segId ((Assoc.get formatId labelsByFormat).getD []) with
  | some label => label
  | none =>
    match segmentPositions segId positions with
    | some (lo, hi) => toString lo ++ "–" ++ toString hi
    | none => segId

/-! ## Assembly -/

/-- A segment with its units, round by round. -/
structure BuiltSegment where
  segment : DrawSegment
  units : List (List PlayUnit)

/-- A segment around the units of its rounds. -/
def builtSegment (formatId segId : String) (order : Nat) (positions : Option (Nat × Nat))
    (units : List (List PlayUnit)) : BuiltSegment where
  segment :=
    { id := segId, label := segmentLabel formatId segId positions, order := order
      rounds := units.map fun round => round.map PlayUnit.id
      positions := positions }
  units := units

def allUnits (built : List BuiltSegment) : List PlayUnit := built.flatMap fun b => b.units.flatten

/-- The draw over the units of all segments, in waves. -/
def assemble (event : Event) (participants : List Participant) (built : List BuiltSegment) :
    Except String Draw :=
  (wavesFromDependencies (Table.ofRows (allUnits built))).map fun rounds =>
    { event := event
      participants := Table.ofRows participants
      playUnits := Table.ofRows (allUnits built)
      rounds := rounds
      segments := some (built.map BuiltSegment.segment) }

/-! ## What the outcomes feed -/

def PlayUnit.DependsOnFeeders (u : PlayUnit) : Prop :=
  ∀ x, x ∈ u.dependencies ↔ u.slotA.FedBy x ∨ u.slotB.FedBy x

def FedOnce (o : List PlayUnit) : Prop :=
  ∀ u ∈ o, ∀ v ∈ o, ∀ i j : PlayUnit.Place, ∀ id take,
    u.slot i = .feeder id take → v.slot j = .feeder id take → u = v ∧ i = j

def EntersOnce (o : List PlayUnit) : Prop :=
  ∀ u ∈ o, ∀ v ∈ o, ∀ i j : PlayUnit.Place, ∀ x, x ≠ BYE →
    u.slot i = .participant x → v.slot j = .participant x → u = v ∧ i = j

/-- The units lead every outcome to one slot and seat distinct participants once. -/
structure Routed (participants : List Participant) (o : List PlayUnit) : Prop where
  once : FedOnce o
  feeders : ∀ u ∈ o, u.DependsOnFeeders
  sides : ∀ u ∈ o, ∀ i, u.side i = sideOf (u.slot i)
  enters : (participants.map Participant.id).Nodup → EntersOnce o

variable {u : PlayUnit}

theorem dependsOnFeeders_of_concrete (h : u.Concrete) : u.DependsOnFeeders := by
  obtain ⟨deps, ⟨p, ha⟩, q, hb⟩ := h
  intro x
  simp [deps, ha, hb]

theorem waiting_of_feeders {f g : PlayUnitId} {t t' : FeederTake} (sideA : u.sideA = [])
    (sideB : u.sideB = []) (a : u.slotA = .feeder f t) (b : u.slotB = .feeder g t')
    (h : u.DependsOnFeeders) : u.Waiting :=
  ⟨sideA, sideB, ⟨f, (h f).mpr (Or.inl (by simp [a])), t, a⟩,
    ⟨g, (h g).mpr (Or.inr (by simp [b])), t', b⟩⟩

/-! ## Layouts -/

/-- A unit's place in its segment is in its id and its metadata. -/
structure BuiltSegment.Regular (b : BuiltSegment) (formatId idPrefix : String) (eventId : EventId)
    (order : Nat) : Prop where
  dashFree : DashFree b.segment.id
  index : b.segment.order = order
  label : b.segment.label = segmentLabel formatId b.segment.id b.segment.positions
  positions : segmentPositions b.segment.id b.segment.positions = b.segment.positions
  rounds : b.segment.rounds = b.units.map fun round => round.map PlayUnit.id
  nonempty : b.units ≠ [] ∧ ∀ round ∈ b.units, round ≠ []
  id : ∀ r m u, At b.units r m u → u.id = knockoutUnitId idPrefix b.segment.id r m
  event : ∀ r m u, At b.units r m u → u.eventId = eventId
  metadata : ∀ r m u, At b.units r m u → u.metadata.segment = some b.segment.id ∧
    u.metadata.segmentOrder = order ∧ u.metadata.round = r ∧ u.metadata.matchIndex = m ∧
    u.metadata.positions = b.segment.positions

/-- Regular segments, each unit of which depends on earlier segments or earlier rounds. -/
structure Layout (formatId idPrefix : String) (eventId : EventId) (built : List BuiltSegment) :
    Prop where
  regular : ∀ (i : Nat) b, built[i]? = some b → b.Regular formatId idPrefix eventId i
  ids : (built.map fun b => b.segment.id).Nodup
  nonempty : built ≠ []
  shape : ∀ u ∈ allUnits built, u.Concrete ∨ u.Waiting
  feeders : ∀ u ∈ allUnits built, u.DependsOnFeeders
  depends : ∀ (i : Nat) b, built[i]? = some b → ∀ r m u, At b.units r m u →
    ∀ d ∈ u.dependencies,
      (∃ j < i, ∃ b', built[j]? = some b' ∧ ∃ r' m' u', At b'.units r' m' u' ∧ u'.id = d) ∨
        ∃ r' < r, ∃ m' u', At b.units r' m' u' ∧ u'.id = d
  once : FedOnce (allUnits built)

theorem mem_allUnits {built : List BuiltSegment} :
    u ∈ allUnits built ↔ ∃ (i : Nat) (b : BuiltSegment) (r m : Nat),
      built[i]? = some b ∧ At b.units r m u := by
  simp only [allUnits, List.mem_flatMap, mem_flatten_iff_at]
  constructor
  · rintro ⟨b, hb, r, m, hu⟩
    obtain ⟨i, hi⟩ := List.getElem?_of_mem hb
    exact ⟨i, b, r, m, hi, hu⟩
  · rintro ⟨i, b, r, m, hi, hu⟩
    exact ⟨b, List.mem_of_getElem? hi, r, m, hu⟩

namespace BuiltSegment.Regular

variable {b : BuiltSegment} {formatId idPrefix : String} {eventId : EventId} {order : Nat}

theorem nodup (h : b.Regular formatId idPrefix eventId order) :
    (b.units.flatten.map PlayUnit.id).Nodup := by
  rw [List.map_flatten]
  refine nodup_flatten_of_at (fun r m r' m' id hid hid' => ?_)
  obtain ⟨u, hu, rfl⟩ := at_map.mp hid
  obtain ⟨u', hu', e⟩ := at_map.mp hid'
  rw [h.id r m u hu, h.id r' m' u' hu'] at e
  obtain ⟨-, hr, hm⟩ := knockoutUnitId_inj h.dashFree h.dashFree e
  exact ⟨hr.symm, hm.symm⟩

end BuiltSegment.Regular

namespace Layout

variable {formatId idPrefix : String} {eventId : EventId} {built : List BuiltSegment}

theorem unique (h : Layout formatId idPrefix eventId built) :
    ((allUnits built).map PlayUnit.id).Nodup := by
  rw [allUnits, List.map_flatMap, List.nodup_flatMap]
  constructor
  · intro b hb
    obtain ⟨i, hi⟩ := List.getElem?_of_mem hb
    exact (h.regular i b hi).nodup
  · have distinct := List.pairwise_map.mp h.ids
    refine List.Pairwise.imp_of_mem ?_ distinct
    intro b b' hb hb' hne id hid hid'
    obtain ⟨i, hi⟩ := List.getElem?_of_mem hb
    obtain ⟨j, hj⟩ := List.getElem?_of_mem hb'
    obtain ⟨u, hu, rfl⟩ := List.mem_map.mp hid
    obtain ⟨u', hu', e⟩ := List.mem_map.mp hid'
    obtain ⟨r, m, hu⟩ := mem_flatten_iff_at.mp hu
    obtain ⟨r', m', hu'⟩ := mem_flatten_iff_at.mp hu'
    rw [(h.regular i b hi).id r m u hu, (h.regular j b' hj).id r' m' u' hu'] at e
    obtain ⟨hs, -⟩ := knockoutUnitId_inj (h.regular j b' hj).dashFree (h.regular i b hi).dashFree e
    exact hne hs.symm

end Layout

theorem ordered_allUnits {built : List BuiltSegment} {seen : List PlayUnitId}
    (h : ∀ (i : Nat) b, built[i]? = some b → ∀ r m u, At b.units r m u → ∀ d ∈ u.dependencies,
      d ∈ seen ∨
      (∃ j < i, ∃ b', built[j]? = some b' ∧ ∃ r' m' u', At b'.units r' m' u' ∧ u'.id = d) ∨
        ∃ r' < r, ∃ m' u', At b.units r' m' u' ∧ u'.id = d) :
    Ordered PlayUnit.id PlayUnit.dependencies seen (allUnits built) := by
  induction built generalizing seen with
  | nil => trivial
  | cons b built ih =>
    rw [allUnits, List.flatMap_cons]
    refine Ordered.append (Ordered.flatten ?_) (ih ?_)
    · intro r m u hu d hd
      rcases h 0 b rfl r m u hu d hd with hd | ⟨j, hj, -⟩ | hd
      · exact Or.inl hd
      · omega
      · exact Or.inr hd
    · intro i b' hi r m u hu d hd
      rw [List.mem_append]
      rcases h (i + 1) b' (by simpa using hi) r m u hu d hd with hd | ⟨j, hj, b'', hb'', hd⟩ | hd
      · exact Or.inl (Or.inr hd)
      · cases j with
        | zero =>
          simp only [List.getElem?_cons_zero, Option.some.injEq] at hb''
          subst hb''
          obtain ⟨r', m', u', hu', rfl⟩ := hd
          exact Or.inl (Or.inl (List.mem_map_of_mem hu'.mem))
        | succ j => exact Or.inr (Or.inl ⟨j, by omega, b'', by simpa using hb'', hd⟩)
      · exact Or.inr (Or.inr hd)

/-- What a segment format guarantees besides `Drawn`: segments that name every unit's place. -/
structure Segmented (formatId : String) (units : List PlayUnit) (segments : List DrawSegment) :
    Prop where
  nonempty : segments ≠ []
  order : ∀ (i : Nat) seg, segments[i]? = some seg → seg.order = i
  ids : (segments.map DrawSegment.id).Nodup
  label : ∀ seg ∈ segments, seg.label = segmentLabel formatId seg.id seg.positions
  positions : ∀ seg ∈ segments, segmentPositions seg.id seg.positions = seg.positions
  rounds : ∀ seg ∈ segments, seg.rounds ≠ [] ∧ ∀ round ∈ seg.rounds, round ≠ []
  ofUnit : ∀ u ∈ units, ∃ seg ∈ segments, u.metadata.segment = some seg.id ∧
    u.metadata.segmentOrder = seg.order ∧ u.metadata.positions = seg.positions ∧
    At seg.rounds u.metadata.round u.metadata.matchIndex u.id
  ofPlace : ∀ seg ∈ segments, ∀ r m id, At seg.rounds r m id → ∃ u ∈ units, u.id = id ∧
    u.metadata.segment = some seg.id ∧ u.metadata.round = r ∧ u.metadata.matchIndex = m

namespace Layout

variable {formatId idPrefix : String} {eventId : EventId} {built : List BuiltSegment}

theorem wellFormed (h : Layout formatId idPrefix eventId built) : WellFormed (allUnits built) where
  unique := h.unique
  shape := h.shape
  sameEvent := by
    intro u hu v hv _
    obtain ⟨i, b, r, m, hi, hu⟩ := mem_allUnits.mp hu
    obtain ⟨j, b', r', m', hj, hv⟩ := mem_allUnits.mp hv
    rw [(h.regular i b hi).event r m u hu, (h.regular j b' hj).event r' m' v hv]
  ordered := ordered_allUnits (fun i b hi r m u hu d hd => Or.inr (h.depends i b hi r m u hu d hd))

theorem segmented (h : Layout formatId idPrefix eventId built) :
    Segmented formatId (allUnits built) (built.map BuiltSegment.segment) where
  nonempty := by simpa using h.nonempty
  order := by
    intro i seg hs
    rw [List.getElem?_map, Option.map_eq_some_iff] at hs
    obtain ⟨b, hb, rfl⟩ := hs
    exact (h.regular i b hb).index
  ids := by
    rw [List.map_map]
    exact h.ids
  label := by
    intro seg hs
    obtain ⟨b, hb, rfl⟩ := List.mem_map.mp hs
    obtain ⟨i, hi⟩ := List.getElem?_of_mem hb
    exact (h.regular i b hi).label
  positions := by
    intro seg hs
    obtain ⟨b, hb, rfl⟩ := List.mem_map.mp hs
    obtain ⟨i, hi⟩ := List.getElem?_of_mem hb
    exact (h.regular i b hi).positions
  rounds := by
    intro seg hs
    obtain ⟨b, hb, rfl⟩ := List.mem_map.mp hs
    obtain ⟨i, hi⟩ := List.getElem?_of_mem hb
    obtain ⟨some, each⟩ := (h.regular i b hi).nonempty
    rw [(h.regular i b hi).rounds]
    refine ⟨by simpa using some, fun round hr => ?_⟩
    obtain ⟨row, hrow, rfl⟩ := List.mem_map.mp hr
    simpa using each row hrow
  ofUnit := by
    intro u hu
    obtain ⟨i, b, r, m, hi, hu⟩ := mem_allUnits.mp hu
    have reg := h.regular i b hi
    obtain ⟨hs, ho, hr, hm, hp⟩ := reg.metadata r m u hu
    refine ⟨b.segment, List.mem_map_of_mem (List.mem_of_getElem? hi), hs, ho.trans reg.index.symm,
      hp, ?_⟩
    rw [reg.rounds, hr, hm]
    exact at_map.mpr ⟨u, hu, rfl⟩
  ofPlace := by
    intro seg hs r m id hid
    obtain ⟨b, hb, rfl⟩ := List.mem_map.mp hs
    obtain ⟨i, hi⟩ := List.getElem?_of_mem hb
    have reg := h.regular i b hi
    rw [reg.rounds] at hid
    obtain ⟨u, hu, rfl⟩ := at_map.mp hid
    obtain ⟨hs, -, hr, hm, -⟩ := reg.metadata r m u hu
    exact ⟨u, mem_allUnits.mpr ⟨i, b, r, m, hi, hu⟩, rfl, hs, hr, hm⟩

/-- **Assembling a layout succeeds and gives a drawn draw.** -/
theorem assemble_ok (h : Layout formatId idPrefix eventId built) {event : Event}
    (he : event.id = eventId) (participants : List Participant) :
    ∃ d, assemble event participants built = .ok d ∧ d.event = event ∧
      d.participants = Table.ofRows participants ∧ d.playUnits.rows = allUnits built ∧
      d.segments = some (built.map BuiltSegment.segment) ∧ Layered d.playUnits d.rounds ∧
      Drawn d := by
  have rows : (Table.ofRows (allUnits built) : PlayUnits).rows = allUnits built :=
    Table.rows_ofRows h.unique
  have wf := h.wellFormed
  obtain ⟨rounds, hw, layered⟩ := wavesFromDependencies_ok (by rw [rows]; exact wf.ordered)
  refine ⟨_, by rw [assemble, hw]; rfl, rfl, rfl, rows, rfl, layered, ?_⟩
  refine ⟨?_, ?_, layered.all, ?_, ?_⟩
  · show WellFormed (Table.ofRows (allUnits built) : PlayUnits).rows
    rw [rows]
    exact wf
  · intro u hu
    replace hu : u ∈ (Table.ofRows (allUnits built) : PlayUnits).rows := hu
    rw [rows] at hu
    obtain ⟨i, b, r, m, hi, hu⟩ := mem_allUnits.mp hu
    exact ((h.regular i b hi).event r m u hu).trans he.symm
  · intro u hu n hn x hx
    replace hu : u ∈ (Table.ofRows (allUnits built) : PlayUnits).rows := hu
    obtain ⟨-, -, -, hn⟩ := (layered.round n u.id).mp hn
    have has : (Table.ofRows (allUnits built) : PlayUnits).Has x := by
      rw [Table.Has]
      rw [rows] at hu ⊢
      obtain ⟨v, hv, rfl⟩ := wf.closed hu hx
      exact List.mem_map_of_mem hv
    obtain ⟨m, lt, hm⟩ := wave_lt hu hn hx has
    obtain ⟨v, hv, rfl⟩ := Table.has_iff.mp has
    exact ⟨m, lt, (layered.round m v.id).mpr ⟨v, hv, rfl, hm⟩⟩
  · intro u hu deps _
    replace hu : u ∈ (Table.ofRows (allUnits built) : PlayUnits).rows := hu
    exact (layered.round 0 u.id).mpr ⟨u, hu, rfl, wave_zero hu deps⟩

end Layout

end Brackets
