import ShuttleWorks.Brackets.Formats.Knockout
import ShuttleWorks.Brackets.Registration
import ShuttleWorks.Lib.Grid

/-! Draws in plain rounds, without segments: a unit's round and match number make its
id, and a round only depends on the rounds before it. -/

namespace Brackets
open Lib

/-- `_pu_id`. -/
def roundUnitId (idPrefix : String) (r m : Nat) : PlayUnitId :=
  idPrefix ++ ("-R" ++ (toString r ++ "-" ++ toString m))

/-- The draw whose rounds are these. -/
def plainDraw (event : Event) (participants : List Participant) (rows : List (List PlayUnit)) :
    Draw where
  event := event
  participants := Table.ofRows participants
  playUnits := Table.ofRows rows.flatten
  rounds := rows.map fun row => row.map PlayUnit.id

/-- Rounds of units of one event, each of which depends on units of earlier rounds alone. -/
structure RoundRows (eventId : EventId) (rows : List (List PlayUnit)) : Prop where
  unique : (rows.flatten.map PlayUnit.id).Nodup
  event : ∀ r m u, At rows r m u → u.eventId = eventId
  shape : ∀ r m u, At rows r m u → u.Concrete ∨ u.Waiting
  depends : ∀ r m u, At rows r m u → ∀ d ∈ u.dependencies,
    ∃ r' < r, ∃ m' u', At rows r' m' u' ∧ u'.id = d
  first : ∀ r m u, At rows r m u → u.dependencies = [] → walkoverSide u ≠ none → r = 0

theorem plainDraw_rows {rows : List (List PlayUnit)}
    (unique : (rows.flatten.map PlayUnit.id).Nodup) (event : Event)
    (participants : List Participant) :
    (plainDraw event participants rows).playUnits.rows = rows.flatten :=
  Table.rows_ofRows unique

variable {u : PlayUnit} {participants : List Participant} {n m m' : Nat}

theorem plainDraw_inRound {rows : List (List PlayUnit)}
    (unique : (rows.flatten.map PlayUnit.id).Nodup) {event : Event} (hu : u ∈ rows.flatten) :
    (plainDraw event participants rows).InRound n u.id ↔ ∃ m, At rows n m u := by
  constructor
  · rintro ⟨round, hr, hid⟩
    obtain ⟨m, hm⟩ := List.getElem?_of_mem hid
    obtain ⟨v, hv, e⟩ := at_map.mp ⟨round, hr, hm⟩
    obtain rfl := List.inj_on_of_nodup_map unique hv.mem hu e
    exact ⟨m, hv⟩
  · rintro ⟨m, hu⟩
    obtain ⟨round, hr, hm⟩ := at_map.mpr ⟨u, hu, rfl⟩
    exact ⟨round, hr, List.mem_of_getElem? hm⟩

namespace RoundRows

variable {eventId : EventId} {rows : List (List PlayUnit)}

theorem wellFormed (h : RoundRows eventId rows) : WellFormed rows.flatten where
  unique := h.unique
  shape := by
    intro u hu
    obtain ⟨r, m, hu⟩ := mem_flatten_iff_at.mp hu
    exact h.shape r m u hu
  sameEvent := by
    intro u hu v hv _
    obtain ⟨r, m, hu⟩ := mem_flatten_iff_at.mp hu
    obtain ⟨r', m', hv⟩ := mem_flatten_iff_at.mp hv
    rw [h.event r m u hu, h.event r' m' v hv]
  ordered := Ordered.flatten (fun r m u hu d hd => Or.inr (h.depends r m u hu d hd))

/-- **A draw in such rounds is a drawn one.** -/
theorem drawn (h : RoundRows eventId rows) {event : Event} (he : event.id = eventId)
    (participants : List Participant) : Drawn (plainDraw event participants rows) := by
  have units := plainDraw_rows h.unique event participants
  refine ⟨?_, ?_, ?_, ?_, ?_⟩
  · rw [units]
    exact h.wellFormed
  · intro u hu
    rw [units] at hu
    obtain ⟨r, m, hu⟩ := mem_flatten_iff_at.mp hu
    exact (h.event r m u hu).trans he.symm
  · rw [units]
    exact List.Perm.of_eq List.map_flatten.symm
  · intro u hu n hn x hx
    rw [units] at hu
    obtain ⟨m, hm⟩ := (plainDraw_inRound h.unique hu).mp hn
    obtain ⟨r, lt, m', v, hv, rfl⟩ := h.depends n m u hm x hx
    exact ⟨r, lt, (plainDraw_inRound h.unique hv.mem).mpr ⟨m', hv⟩⟩
  · intro u hu deps walkover
    rw [units] at hu
    obtain ⟨r, m, hm⟩ := mem_flatten_iff_at.mp hu
    obtain rfl := h.first r m u hm deps walkover
    exact (plainDraw_inRound h.unique hu).mpr ⟨m, hm⟩

end RoundRows

/-- Rounds in which every unit's place is in its id and its metadata. -/
structure PlainRounds (idPrefix : String) (eventId : EventId) (rows : List (List PlayUnit)) :
    Prop where
  id : ∀ r m u, At rows r m u → u.id = roundUnitId idPrefix r u.metadata.matchIndex
  round : ∀ r m u, At rows r m u → u.metadata.round = r
  ascending : ∀ row ∈ rows,
    row.Pairwise fun u v => u.metadata.matchIndex < v.metadata.matchIndex
  event : ∀ r m u, At rows r m u → u.eventId = eventId
  segment : ∀ r m u, At rows r m u → u.metadata.segment = none
  shape : ∀ r m u, At rows r m u → u.Concrete ∨ u.Waiting
  depends : ∀ r m u, At rows r m u → ∀ d ∈ u.dependencies,
    ∃ r' < r, ∃ m' u', At rows r' m' u' ∧ u'.id = d
  first : ∀ r m u, At rows r m u → u.dependencies = [] → walkoverSide u ≠ none → r = 0

theorem roundUnitId_inj {p : String} {r r' : Nat} (e : roundUnitId p r m = roundUnitId p r' m') :
    r = r' ∧ m = m' := by
  obtain ⟨hr, hm⟩ := dash_inj (dashFree_toString r) (dashFree_toString r')
    ((String.append_right_inj _).mp ((String.append_right_inj _).mp e))
  exact ⟨toString_injective hr, toString_injective hm⟩

namespace PlainRounds

variable {idPrefix : String} {eventId : EventId} {rows : List (List PlayUnit)}

theorem column {row : List PlayUnit}
    (asc : row.Pairwise fun u v => u.metadata.matchIndex < v.metadata.matchIndex) {v : PlayUnit}
    (hu : row[m]? = some u) (hv : row[m']? = some v)
    (e : u.metadata.matchIndex = v.metadata.matchIndex) : m = m' := by
  obtain ⟨hm, rfl⟩ := List.getElem?_eq_some_iff.mp hu
  obtain ⟨hm', rfl⟩ := List.getElem?_eq_some_iff.mp hv
  rcases Nat.lt_trichotomy m m' with lt | eq | gt
  · have := List.pairwise_iff_getElem.mp asc m m' hm hm' lt
    omega
  · exact eq
  · have := List.pairwise_iff_getElem.mp asc m' m hm' hm gt
    omega

theorem unique (h : PlainRounds idPrefix eventId rows) :
    (rows.flatten.map PlayUnit.id).Nodup := by
  rw [List.map_flatten]
  refine nodup_flatten_of_at (fun r m r' m' id hid hid' => ?_)
  obtain ⟨u, hu, rfl⟩ := at_map.mp hid
  obtain ⟨u', hu', e⟩ := at_map.mp hid'
  rw [h.id r m u hu, h.id r' m' u' hu'] at e
  obtain ⟨rfl, number⟩ := roundUnitId_inj e
  obtain ⟨row, hrow, hm⟩ := hu
  obtain ⟨row', hrow', hm'⟩ := hu'
  rw [hrow] at hrow'
  cases hrow'
  exact ⟨rfl, column (h.ascending row (List.mem_of_getElem? hrow)) hm hm' number.symm⟩

theorem roundRows (h : PlainRounds idPrefix eventId rows) : RoundRows eventId rows :=
  ⟨h.unique, h.event, h.shape, h.depends, h.first⟩

theorem rows_playUnits (h : PlainRounds idPrefix eventId rows) (event : Event)
    (participants : List Participant) :
    (plainDraw event participants rows).playUnits.rows = rows.flatten :=
  plainDraw_rows h.unique event participants

theorem inRound (h : PlainRounds idPrefix eventId rows) {event : Event} (hu : u ∈ rows.flatten) :
    (plainDraw event participants rows).InRound n u.id ↔ ∃ m, At rows n m u :=
  plainDraw_inRound h.unique hu

/-- **A draw in plain rounds is a drawn one.** -/
theorem drawn (h : PlainRounds idPrefix eventId rows) {event : Event} (he : event.id = eventId)
    (participants : List Participant) : Drawn (plainDraw event participants rows) :=
  h.roundRows.drawn he participants

end PlainRounds

end Brackets
