import ShuttleWorks.Documents.Store

/-! The rows of `matches` that a document's matches and schedule ask for. A row is compared
with the document that is written, not with the one written before it. -/

namespace Documents
open Lib Operations
open Sync (Uuid getD)

/-! ## What a document asks for -/

/-- The court and the slot of an assignment. -/
abbrev Placement := Json × Json

def unplaced : Placement := (.null, .null)

/-- The match an assignment is for, and where it puts it. -/
def assignmentEntry (assignment : Json) : Option (String × Placement) :=
  match assignment with
  | .obj a =>
    match Assoc.get "matchId" a with
    | some (.str mid) =>
      if mid = "" then none else some (mid, getD "courtId" .null a, getD "slotId" .null a)
    | _ => none
  | _ => none

def courtSlotById (assignments : List Json) : List (String × Placement) :=
  (assignments.filterMap assignmentEntry).foldl (fun acc p => Assoc.set p.1 p.2 acc) []

def scheduleAssignments (document : JsonObject) : List Json :=
  ((objectMember "schedule" document).map (arrayMember "assignments")).getD []

def placementOf (document : JsonObject) (mid : String) : Placement :=
  (Assoc.get mid (courtSlotById (scheduleAssignments document))).getD unplaced

def idMember (match_ : Json) : Option String :=
  match match_ with
  | .obj m =>
    match Assoc.get "id" m with
    | some (.str mid) => if mid = "" then none else some mid
    | _ => none
  | _ => none

def matchIds (document : JsonObject) : List String :=
  ((arrayMember "matches" document).filterMap idMember).foldl
    (fun ids mid => if mid ∈ ids then ids else ids ++ [mid]) []

/-- A key that is a list or an object cannot be looked up; an id that is no text is refused by
its column. -/
def keyError (onlyText : Bool) (key : Option Json) : Option DocumentError :=
  match key with
  | some (.arr (_ :: _)) => some (.typeError "unhashable type: 'list'")
  | some (.obj (_ :: _)) => some (.typeError "unhashable type: 'dict'")
  | some j =>
    if onlyText ∧ j.truthy ∧ (Competition.textOf j).isNone then
      some (.database "matches.id is a text")
    else none
  | none => none

def memberKeyError (onlyText : Bool) (key : String) (row : Json) : Option DocumentError :=
  match row with
  | .obj kvs => keyError onlyText (Assoc.get key kvs)
  | _ => none

/-- The exception that the keys of a document raise, if they raise one. -/
def keysError (document : JsonObject) : Option DocumentError :=
  ((scheduleAssignments document).findSome? (memberKeyError false "matchId")).or
    ((arrayMember "matches" document).findSome? (memberKeyError true "id"))

/-! ## The projection -/

def Stands (row : Match) (placement : Placement) : Prop :=
  Json.same (jsonOption .int row.courtId) placement.1 = true ∧
    Json.same (jsonOption .int row.timeSlot) placement.2 = true

instance (row : Match) (placement : Placement) : Decidable (Stands row placement) :=
  inferInstanceAs (Decidable (_ ∧ _))

def placementColumn (j : Json) : Except DocumentError (Option Int) :=
  (columnInt j).mapError .live

/-- The row of a match after the projection: a new one, or the one there is, moved with its
version counted up unless it stands. -/
def projectedRow (tournamentId : Uuid) (mid : String) (placement : Placement)
    (row : Option Match) : Except DocumentError Match :=
  match row with
  | none => do
    let courtId ← placementColumn placement.1
    let timeSlot ← placementColumn placement.2
    .ok { tournamentId := tournamentId, id := mid, courtId := courtId, timeSlot := timeSlot }
  | some row =>
    if Stands row placement then .ok row
    else do
      let courtId ← placementColumn placement.1
      let timeSlot ← placementColumn placement.2
      .ok { row with courtId := courtId, timeSlot := timeSlot, version := row.version + 1 }

def Touches (tournamentId : Uuid) (document : JsonObject) (s : LiveStore) (mid : String) : Prop :=
  ∀ row ∈ s.matchRows.get (tournamentId, mid), ¬ Stands row (placementOf document mid)

instance (tournamentId : Uuid) (document : JsonObject) (s : LiveStore) (mid : String) :
    Decidable (Touches tournamentId document s mid) :=
  inferInstanceAs (Decidable (∀ row ∈ s.matchRows.get (tournamentId, mid), _))

def dropped (tournamentId : Uuid) (document : JsonObject) (s : LiveStore) (key : MatchKey) : Bool :=
  key.1 = tournamentId ∧ key.2 ∉ matchIds document ∧ s.matchRows.Has key

theorem dropped_iff {tournamentId : Uuid} {document : JsonObject} {s : LiveStore} {key : MatchKey} :
    dropped tournamentId document s key = true ↔
      key.1 = tournamentId ∧ key.2 ∉ matchIds document ∧ s.matchRows.Has key := by
  simp [dropped]

/-- Project a document's matches and assignments into rows: how many rows it touched. A match
that goes takes its commands and its states with it. -/
def bulkProjectFromSchedule (tournamentId : Uuid) (document : JsonObject) (s : LiveStore) :
    Except DocumentError (Nat × LiveStore) :=
  match keysError document with
  | some e => .error e
  | none => do
    let rows ← (matchIds document).mapM (fun mid =>
      projectedRow tournamentId mid (placementOf document mid)
        (s.matchRows.get (tournamentId, mid)))
    let gone := dropped tournamentId document s
    let touched := (matchIds document).countP (fun mid => Touches tournamentId document s mid) +
      s.matchRows.rows.countP (fun row => gone row.key)
    .ok (touched, { s with
      matchRows := (rows.foldl Table.put s.matchRows).remove (fun row => gone row.key)
      commands := s.commands.remove (fun c => gone (c.tournamentId, c.matchId))
      matchStates := s.matchStates.remove (fun state => gone state.key) })

/-! ## What the projection does to a row -/

variable {mid : String} {placement : Placement} {row' : Match}

theorem projectedRow_key {tournamentId : Uuid} {row : Option Match}
    (own : ∀ m ∈ row, m.key = (tournamentId, mid))
    (h : projectedRow tournamentId mid placement row = .ok row') :
    row'.key = (tournamentId, mid) := by
  cases row with
  | none =>
    simp only [projectedRow, bind_eq_ok] at h
    obtain ⟨_, -, _, -, h⟩ := h
    cases h
    rfl
  | some row =>
    unfold projectedRow at h
    dsimp only at h
    split at h
    · cases h
      exact own _ rfl
    · simp only [bind_eq_ok] at h
      obtain ⟨_, -, _, -, h⟩ := h
      cases h
      exact own row rfl

theorem projectedRow_stands {tournamentId : Uuid} {row : Match}
    (h : projectedRow tournamentId mid placement (some row) = .ok row') :
    row' = row ↔ Stands row placement := by
  unfold projectedRow at h
  dsimp only at h
  split at h
  · next stands =>
    cases h
    simp [stands]
  · next moved =>
    simp only [bind_eq_ok] at h
    obtain ⟨_, -, _, -, h⟩ := h
    cases h
    refine iff_of_false (fun same => ?_) moved
    have := congrArg Match.version same
    simp at this

section

variable {tournamentId : Uuid} {document : JsonObject} {s s' : LiveStore} {touched : Nat}

theorem bulkProject_get (h : bulkProjectFromSchedule tournamentId document s = .ok (touched, s'))
    (mid : String) :
    if mid ∈ matchIds document then
      ∃ row, projectedRow tournamentId mid (placementOf document mid)
        (s.matchRows.get (tournamentId, mid)) = .ok row ∧
        s'.matchRows.get (tournamentId, mid) = some row
    else s'.matchRows.get (tournamentId, mid) = none := by
  unfold bulkProjectFromSchedule at h
  split at h
  · cases h
  simp only [bind_eq_ok] at h
  obtain ⟨rows, projected, h⟩ := h
  cases h
  have own : ∀ mid, ∀ m ∈ s.matchRows.get (tournamentId, mid), m.key = (tournamentId, mid) :=
    fun mid m found => Table.key_of_get found
  have keys : ∀ row ∈ rows, ∃ mid ∈ matchIds document, row.key = (tournamentId, mid) ∧
      projectedRow tournamentId mid (placementOf document mid)
        (s.matchRows.get (tournamentId, mid)) = .ok row := by
    intro row mem
    obtain ⟨mid, listed, made⟩ := mapM_mem projected row mem
    exact ⟨mid, listed, projectedRow_key (own mid) made, made⟩
  let project (k : MatchKey) : Option Match :=
    (projectedRow tournamentId k.2 (placementOf document k.2)
      (s.matchRows.get (tournamentId, k.2))).toOption
  have written : ∀ row ∈ rows, project row.key = some row := by
    intro row mem
    obtain ⟨mid, -, key, made⟩ := keys row mem
    simp [project, key, made, Except.toOption]
  have listed_iff : (tournamentId, mid) ∈ rows.map Match.key ↔ mid ∈ matchIds document := by
    rw [List.mem_map]
    constructor
    · rintro ⟨row, mem, key⟩
      obtain ⟨mid', listed, key', -⟩ := keys row mem
      cases key.symm.trans key'
      exact listed
    · intro listed
      obtain ⟨row, mem, made⟩ := mapM_mem_of_mem projected mid listed
      exact ⟨row, mem, projectedRow_key (own mid) made⟩
  rw [Table.get_remove _ (dropped tournamentId document s), Table.get_foldl_put written]
  split
  · next listed =>
    obtain ⟨row, mem, made⟩ := mapM_mem_of_mem projected mid listed
    refine ⟨row, made, ?_⟩
    rw [if_neg (by simp [dropped, listed]), if_pos (listed_iff.mpr listed)]
    simp [project, made, Except.toOption]
  · next unlisted =>
    by_cases has : s.matchRows.Has (tournamentId, mid)
    · rw [if_pos (by simp [dropped, unlisted, has])]
    · rw [if_neg (by simp [dropped, has]), if_neg (listed_iff.not.mpr unlisted),
        Table.get_eq_none_iff.mpr has]

/-- Every listed match has a row that stands, and there is no other row. -/
def Projected (tournamentId : Uuid) (document : JsonObject) (s : LiveStore) : Prop :=
  (∀ mid ∈ matchIds document, ¬ Touches tournamentId document s mid) ∧
    ∀ row ∈ s.matchRows.rows, row.tournamentId = tournamentId → row.id ∈ matchIds document

instance (tournamentId : Uuid) (document : JsonObject) (s : LiveStore) :
    Decidable (Projected tournamentId document s) :=
  inferInstanceAs (Decidable (_ ∧ _))

theorem bulkProject_touched
    (h : bulkProjectFromSchedule tournamentId document s = .ok (touched, s')) :
    touched = 0 ↔ Projected tournamentId document s := by
  unfold bulkProjectFromSchedule at h
  split at h
  · cases h
  simp only [bind_eq_ok] at h
  obtain ⟨rows, -, h⟩ := h
  cases h
  rw [Nat.add_eq_zero_iff, List.countP_eq_zero, List.countP_eq_zero]
  refine and_congr (forall₂_congr fun mid _ => by simp) (forall₂_congr fun row mem => ?_)
  rw [dropped_iff]
  constructor
  · intro kept own
    by_contra unlisted
    exact kept ⟨own, unlisted, List.mem_map_of_mem mem⟩
  · rintro listed ⟨own, unlisted, -⟩
    exact unlisted (listed own)

theorem bulkProject_projected
    (h : bulkProjectFromSchedule tournamentId document s = .ok (touched, s'))
    (projected : Projected tournamentId document s) : s' = s := by
  unfold bulkProjectFromSchedule at h
  split at h
  · cases h
  simp only [bind_eq_ok] at h
  obtain ⟨rows, made, h⟩ := h
  cases h
  have kept : ∀ key, dropped tournamentId document s key = false := by
    intro key
    rw [Bool.eq_false_iff, ne_eq, dropped_iff]
    rintro ⟨own, unlisted, has⟩
    obtain ⟨row, mem, rfl⟩ := Table.has_iff.mp has
    exact unlisted (projected.2 row mem own)
  have same : ∀ row ∈ rows, s.matchRows.get row.key = some row := by
    intro row mem
    obtain ⟨mid, listed, made⟩ := mapM_mem made row mem
    obtain ⟨old, found, stands⟩ : ∃ old, s.matchRows.get (tournamentId, mid) = some old ∧
        Stands old (placementOf document mid) := by
      simpa [Touches] using projected.1 mid listed
    rw [found] at made
    obtain rfl := (projectedRow_stands made).mpr stands
    rw [Table.key_of_get found, found]
  rw [Table.foldl_put_of_get same, Table.remove_of_none (fun _ _ => kept _),
    Table.remove_of_none (fun _ _ => kept _), Table.remove_of_none (fun _ _ => kept _)]

theorem bulkProject_ne
    (h : bulkProjectFromSchedule tournamentId document s = .ok (touched, s'))
    (moves : ¬ Projected tournamentId document s) : s' ≠ s := by
  rintro rfl
  refine moves ⟨fun mid listed touches => ?_, fun row mem own => ?_⟩
  · have rows := bulkProject_get h mid
    rw [if_pos listed] at rows
    obtain ⟨row, made, found⟩ := rows
    rw [found] at made
    exact touches row found ((projectedRow_stands made).mp rfl)
  · by_contra unlisted
    have rows := bulkProject_get h row.id
    rw [if_neg unlisted] at rows
    exact Table.get_eq_none_iff.mp rows (Table.has_iff.mpr ⟨row, mem, by rw [Match.key, own]⟩)

end

end Documents
