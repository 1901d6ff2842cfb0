import ShuttleWorks.Brackets.ImportedSession

/-! The session a table is imported to. Every row becomes the unit of its round and its place
there, takes winners of units built before it, and registration settles the byes. -/

namespace Brackets
open Lib

variable {rd : CsvReading} {eventId : EventId} {csv : List CsvRow} {participants : Participants}
  {b b' : Building} {k : Nat}

def PlayUnit.Place.sideColumn : PlayUnit.Place → String
  | .A => "side_a"
  | .B => "side_b"

def PlayUnit.Place.feederColumn : PlayUnit.Place → String
  | .A => "feeder_a"
  | .B => "feeder_b"

/-- What the unit of a row in round `r` at place `m` is. -/
structure CsvImported (eventId : EventId) (row : CsvRow) (r m : Nat) (u : PlayUnit) : Prop where
  id : u.id = roundUnitId eventId r m
  event : u.eventId = eventId
  first : r = 0 → u.dependencies = [] ∧ ∀ X : PlayUnit.Place,
    u.side X = splitSide (row.cell X.sideColumn) ∧
      u.slot X = .participant (slotHead (splitSide (row.cell X.sideColumn)))
  later : r ≠ 0 → ∃ f : PlayUnit.Place → PlayUnitId, u.dependencies = [f .A, f .B] ∧
    ∀ X : PlayUnit.Place, row.ident X.feederColumn = some (f X) ∧ u.side X = [] ∧
      u.slot X = .feeder (f X) .winner

def CsvFits (rd : CsvReading) (eventId : EventId) (csv : List CsvRow) (r m : Nat)
    (u : PlayUnit) : Prop :=
  ∃ row ∈ csv, roundOf rd eventId row = .ok (r : Int) ∧ CsvImported eventId row r m u

/-- The loop over an event after `k` rounds and `j` rows of the next. -/
structure CsvBuilt (rd : CsvReading) (eventId : EventId) (csv : List CsvRow) (l : List CsvRow)
    (k j : Nat) (b : Building) : Prop where
  rounds : b.rounds.length = k
  row : b.row.length = j
  built : Built (CsvFits rd eventId csv) b.grid
  before : ∀ r m u, At b.grid r m u → ∀ d ∈ u.dependencies, Before b.grid r m d
  onto : ∀ n < k, ∀ row ∈ csv, roundOf rd eventId row = .ok (n : Int) →
    ∃ m u, At b.grid n m u ∧ CsvImported eventId row n m u
  here : ∀ i row, l[i]? = some row → i < j → ∃ u, At b.grid k i u ∧ CsvImported eventId row k i u

theorem csvUnit_eq_ok {r m : Nat} {row : CsvRow}
    (h : csvUnit rd eventId participants r b (row, m) = .ok b') :
    ∃ u, b' = b.add u ∧ CsvImported eventId row r m u ∧ ∀ d ∈ u.dependencies, d ∈ b.seenIds := by
  simp only [csvUnit, bind_eq_ok] at h
  obtain ⟨duration, -, h⟩ := h
  split at h
  · next first =>
    simp only [bind_eq_ok] at h
    obtain ⟨slotA, hA, slotB, hB, h⟩ := h
    cases h
    obtain rfl := slotFromSide_eq_ok hA
    obtain rfl := slotFromSide_eq_ok hB
    refine ⟨_, rfl, ⟨rfl, rfl, fun _ => ⟨rfl, ?_⟩, fun later => absurd first later⟩,
      fun d hd => absurd hd List.not_mem_nil⟩
    rintro (_ | _)
    · exact ⟨rfl, rfl⟩
    · exact ⟨rfl, rfl⟩
  · next later =>
    split at h
    · next feederA feederB namedA namedB =>
      simp only [bind_eq_ok, reject_eq_ok, not_or, not_not] at h
      obtain ⟨-, ⟨seenA, seenB⟩, h⟩ := h
      cases h
      refine ⟨_, rfl, ⟨rfl, rfl, fun first => absurd first later, fun _ => ?_⟩, ?_⟩
      · refine ⟨fun X => match X with | .A => feederA | .B => feederB, rfl, ?_⟩
        rintro (_ | _)
        · exact ⟨namedA, rfl, rfl⟩
        · exact ⟨namedB, rfl, rfl⟩
      · intro d hd
        simp only [List.mem_cons, List.not_mem_nil, or_false] at hd
        rcases hd with rfl | rfl
        · exact seenA
        · exact seenB
    · cases h

theorem CsvBuilt.step {l : List CsvRow} {j : Nat} {row : CsvRow}
    (h : CsvBuilt rd eventId csv l k j b) (hrow : l[j]? = some row) (mem : row ∈ csv)
    (hround : roundOf rd eventId row = .ok (k : Int))
    (done : csvUnit rd eventId participants k b (row, j) = .ok b') :
    CsvBuilt rd eventId csv l k (j + 1) b' := by
  obtain ⟨u, rfl, imported, seen⟩ := csvUnit_eq_ok done
  have place : k = b.rounds.length ∧ j = b.row.length := ⟨h.rounds.symm, h.row.symm⟩
  have grows : ∀ r m v, At b.grid r m v → At (b.add u).grid r m v := fun r m v hv =>
    at_grid_add.mpr (.inl hv)
  have last : At (b.add u).grid k j u := at_grid_add.mpr (.inr ⟨place.1, place.2, rfl⟩)
  have new : u.id ∉ b.seenIds := by
    intro hu
    obtain ⟨r, m, v, lt, hv, e⟩ := before_of_seen hu
    obtain ⟨row', -, -, imported'⟩ := h.built.fits r m v hv
    rw [imported.id, imported'.id] at e
    obtain ⟨rfl, rfl⟩ := roundUnitId_inj e
    omega
  refine ⟨h.rounds, by simp [Building.add, h.row], ?_, ?_, ?_, ?_⟩
  · refine h.built.add new ?_ fun d hd => .inr (seen d hd)
    rw [← place.1, ← place.2]
    exact ⟨row, mem, hround, imported⟩
  · intro r m v hv d hd
    rcases at_grid_add.mp hv with hv | ⟨rfl, rfl, rfl⟩
    · exact (h.before r m v hv d hd).mono grows
    · exact (before_of_seen (seen d hd)).mono grows
  · intro n lt row' hrow' hr'
    obtain ⟨m, v, hv, imported'⟩ := h.onto n lt row' hrow' hr'
    exact ⟨m, v, grows n m v hv, imported'⟩
  · intro i row' hi lt
    by_cases e : i = j
    · subst e
      rw [hrow] at hi
      cases hi
      exact ⟨u, last, imported⟩
    · obtain ⟨v, hv, imported'⟩ := h.here i row' hi (by omega)
      exact ⟨v, grows k i v hv, imported'⟩

theorem mem_roundRows {rows sorted : List CsvRow} (h : roundRows rd rows = .ok sorted) {row : CsvRow} :
    row ∈ sorted ↔ row ∈ rows := by
  simp only [roundRows, bind_eq_ok] at h
  obtain ⟨numbered, hn, h⟩ := h
  cases h
  rw [List.mem_map]
  constructor
  · rintro ⟨p, hp, rfl⟩
    obtain ⟨row, hrow, e⟩ := mapM_mem hn p ((List.mem_insertionSort _).mp hp)
    cases hm : matchIndexOf rd row with
    | error e' =>
      rw [hm] at e
      cases e
    | ok index =>
      rw [hm] at e
      cases e
      exact hrow
  · intro hrow
    obtain ⟨p, hp, e⟩ := mapM_mem_of_mem hn row hrow
    refine ⟨p, (List.mem_insertionSort _).mpr hp, ?_⟩
    cases hm : matchIndexOf rd row with
    | error e' =>
      rw [hm] at e
      cases e
    | ok index =>
      rw [hm] at e
      cases e
      rfl

theorem CsvBuilt.round {byRound : List (Int × List CsvRow)} (h : CsvBuilt rd eventId csv [] k 0 b)
    (rows : ∀ row, row ∈ (Assoc.get (k : Int) byRound).getD [] ↔
      row ∈ csv ∧ roundOf rd eventId row = .ok (k : Int))
    (done : csvRound rd eventId participants byRound b k = .ok b') :
    CsvBuilt rd eventId csv [] (k + 1) 0 b' := by
  simp only [csvRound, bind_eq_ok] at done
  obtain ⟨sorted, hs, b₁, done, closed⟩ := done
  cases closed
  have start : CsvBuilt rd eventId csv sorted k 0 b :=
    ⟨h.rounds, h.row, h.built, h.before, h.onto, fun _ _ _ lt => absurd lt (Nat.not_lt_zero _)⟩
  have full : CsvBuilt rd eventId csv sorted k (0 + sorted.length) b₁ := by
    refine foldlM_zipIdx_keeps (I := fun j b => CsvBuilt rd eventId csv sorted k j b) ?_ start done
    intro i row b b' hi hb hb'
    rw [Nat.zero_add] at hb hb' ⊢
    obtain ⟨mem, hround⟩ := (rows row).mp ((mem_roundRows hs).mp (List.mem_of_getElem? hi))
    exact hb.step hi mem hround hb'
  rw [Nat.zero_add] at full
  refine ⟨by simp [Building.close, full.rounds], rfl, full.built.close, ?_, ?_, ?_⟩
  · intro r m u hu d hd
    exact (full.before r m u (at_grid_close.mp hu) d hd).mono fun _ _ _ => at_grid_close.mpr
  · intro n lt row hrow hr
    by_cases last : n = k
    · subst last
      have mem := (mem_roundRows hs).mpr ((rows row).mpr ⟨hrow, hr⟩)
      obtain ⟨i, hi⟩ := List.getElem?_of_mem mem
      obtain ⟨u, hu, imported⟩ := full.here i row hi (List.getElem?_eq_some_iff.mp hi).1
      exact ⟨i, u, at_grid_close.mpr hu, imported⟩
    · obtain ⟨m, u, hu, imported⟩ := full.onto n (by omega) row hrow hr
      exact ⟨m, u, at_grid_close.mpr hu, imported⟩
  · exact fun _ _ _ lt => absurd lt (Nat.not_lt_zero _)

/-- **An accepted table event is built row by row.** -/
structure CsvDraw (rd : CsvReading) (eventId : EventId) (csv : List CsvRow) (d : Draw)
    (rows : List (List PlayUnit)) : Prop where
  draw : ∃ event participants, d = plainDraw event participants rows ∧ event.id = eventId
  built : Built (CsvFits rd eventId csv) rows
  before : ∀ r m u, At rows r m u → ∀ x ∈ u.dependencies, Before rows r m x
  onto : ∀ row ∈ csv, ∃ r m u, roundOf rd eventId row = .ok ((r : Nat) : Int) ∧
    At rows r m u ∧ CsvImported eventId row r m u

theorem roundOf_placed {placed : List (Int × CsvRow)}
    (h : csv.mapM (fun row => (roundOf rd eventId row).map (·, row)) = .ok placed)
    {r : Int} {row : CsvRow} : (r, row) ∈ placed ↔ row ∈ csv ∧ roundOf rd eventId row = .ok r := by
  have value : ∀ {row : CsvRow} {p : Int × CsvRow},
      (roundOf rd eventId row).map (·, row) = .ok p ↔
        p.2 = row ∧ roundOf rd eventId row = .ok p.1 := by
    intro row p
    cases hr : roundOf rd eventId row with
    | error e => simp [Except.map]
    | ok r =>
      simp only [Except.map, Except.ok.injEq, Prod.ext_iff]
      exact ⟨fun ⟨a, b⟩ => ⟨b.symm, a⟩, fun ⟨a, b⟩ => ⟨b, a.symm⟩⟩
  constructor
  · intro hp
    obtain ⟨row', hrow, e⟩ := mapM_mem h _ hp
    obtain ⟨rfl, hr⟩ := value.mp e
    exact ⟨hrow, hr⟩
  · rintro ⟨hrow, hr⟩
    obtain ⟨⟨r', row'⟩, hp, e⟩ := mapM_mem_of_mem h row hrow
    obtain ⟨rfl, hr'⟩ := value.mp e
    rw [hr] at hr'
    cases hr'
    exact hp

theorem buildDrawFromCsvRows_eq_ok {format : String} {d : Draw}
    (h : buildDrawFromCsvRows rd eventId format csv = .ok d) :
    ∃ rows, CsvDraw rd eventId csv d rows := by
  simp only [buildDrawFromCsvRows, bind_eq_ok, reject_eq_ok, not_not] at h
  obtain ⟨placed, hp, -, contiguous, -, -, b, done, h⟩ := h
  cases h
  set byRound := placed.foldl (fun groups p => Assoc.push p.1 p.2 groups) [] with hby
  set n := ((Assoc.keys byRound).insertionSort (· ≤ ·)).length with hn
  have group : ∀ (k : Nat) row, row ∈ (Assoc.get (k : Int) byRound).getD [] ↔
      row ∈ csv ∧ roundOf rd eventId row = .ok (k : Int) := by
    intro k row
    rw [hby, Assoc.get_foldl_push, ← roundOf_placed hp]
    simp
  have start : CsvBuilt rd eventId csv [] 0 0 {} :=
    ⟨rfl, rfl, Built.start, fun r m u hu => by simpa [Building.grid] using hu.mem,
      fun _ lt => absurd lt (Nat.not_lt_zero _), fun _ _ _ lt => absurd lt (Nat.not_lt_zero _)⟩
  have full : CsvBuilt rd eventId csv [] n 0 b := by
    clear_value n
    clear contiguous hn
    induction n generalizing b with
    | zero =>
      cases done
      exact start
    | succ n ih =>
      rw [List.range_succ, List.foldlM_append, bind_eq_ok] at done
      obtain ⟨b₁, before, last⟩ := done
      rw [List.foldlM_cons, bind_eq_ok] at last
      obtain ⟨b₂, last, e⟩ := last
      cases e
      exact (ih _ before).round (group n) last
  have nil : b.row = [] := List.length_eq_zero_iff.mp full.row
  have same : ∀ r m u, At b.rounds r m u ↔ At b.grid r m u := by
    intro r m u
    rw [Building.grid, nil, at_concat_nil]
  refine ⟨b.rounds, ⟨_, _, rfl, rfl⟩, full.built.congr same (by simp [Building.grid, nil]), ?_, ?_⟩
  · intro r m u hu x hx
    exact (full.before r m u ((same r m u).mp hu) x hx).mono fun r m u => (same r m u).mpr
  · intro row hrow
    obtain ⟨⟨r, row'⟩, hmem, e⟩ := mapM_mem_of_mem hp row hrow
    have hr : roundOf rd eventId row = .ok r := by
      cases hr : roundOf rd eventId row with
      | error e' =>
        rw [hr] at e
        cases e
      | ok r' =>
        rw [hr] at e
        cases e
        rfl
    have key : r ∈ Assoc.keys byRound := by
      rw [hby]
      exact Assoc.mem_keys_foldl_push.mpr (.inr ⟨_, hmem, rfl⟩)
    rw [← List.mem_insertionSort (· ≤ ·), contiguous] at key
    obtain ⟨k, hk, rfl⟩ := List.mem_map.mp key
    obtain ⟨m, u, hu, imported⟩ := full.onto k (List.mem_range.mp hk) row hrow hr
    exact ⟨k, m, u, hr, (same k m u).mpr hu, imported⟩

end Brackets
