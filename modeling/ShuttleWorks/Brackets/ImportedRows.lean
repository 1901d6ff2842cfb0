import ShuttleWorks.Brackets.ImportingCsv

/-! What an accepted event is. Its units stand where the payload has them, a unit of a later
round takes the winners of two units that stand before it or of itself, and a completed match
names feeders of earlier rounds whose winners are its sides. -/

namespace Brackets
open Lib

/-! ## Building unit by unit -/

/-- The unit `id` stands before a place of the rounds. -/
def Before (rows : List (List PlayUnit)) (r m : Nat) (id : PlayUnitId) : Prop :=
  ∃ r' m' v, (r' < r ∨ (r' = r ∧ m' < m)) ∧ At rows r' m' v ∧ v.id = id

def Building.grid (b : Building) : List (List PlayUnit) := b.rounds ++ [b.row]

/-- Units with distinct ids, each fit for its place, that depend on themselves or on units
before them. -/
structure Built (Fits : Nat → Nat → PlayUnit → Prop) (rows : List (List PlayUnit)) : Prop where
  unique : (rows.flatten.map PlayUnit.id).Nodup
  fits : ∀ r m u, At rows r m u → Fits r m u
  depends : ∀ r m u, At rows r m u → ∀ d ∈ u.dependencies, d = u.id ∨ Before rows r m d

section

variable {Fits : Nat → Nat → PlayUnit → Prop} {b : Building} {unit u : PlayUnit}
  {rows' : List (List PlayUnit)}

theorem Building.seenIds_eq (b : Building) : b.seenIds = b.grid.flatten.map PlayUnit.id := by
  simp [Building.seenIds, Building.grid]

theorem at_grid_add {r m : Nat} :
    At (b.add unit).grid r m u ↔
      At b.grid r m u ∨ (r = b.rounds.length ∧ m = b.row.length ∧ u = unit) :=
  at_add

theorem at_grid_close {r m : Nat} : At b.close.grid r m u ↔ At b.grid r m u :=
  at_concat_nil

theorem Before.mono {rows : List (List PlayUnit)} {r m : Nat} {id : PlayUnitId}
    (h : Before rows r m id) (sub : ∀ r m u, At rows r m u → At rows' r m u) :
    Before rows' r m id := by
  obtain ⟨r', m', v, lt, hv, e⟩ := h
  exact ⟨r', m', v, lt, sub r' m' v hv, e⟩

theorem before_of_seen {id : PlayUnitId} (h : id ∈ b.seenIds) :
    Before b.grid b.rounds.length b.row.length id := by
  rw [Building.seenIds_eq] at h
  obtain ⟨v, hv, e⟩ := List.mem_map.mp h
  obtain ⟨r, m, hv⟩ := mem_flatten_iff_at.mp hv
  refine ⟨r, m, v, ?_, hv, e⟩
  obtain ⟨row, hr, hm⟩ := hv
  have lt := (List.getElem?_eq_some_iff.mp hr).1
  simp only [Building.grid, List.length_append, List.length_singleton] at lt
  by_cases last : r = b.rounds.length
  · subst last
    rw [Building.grid, List.getElem?_concat_length] at hr
    cases hr
    exact Or.inr ⟨rfl, (List.getElem?_eq_some_iff.mp hm).1⟩
  · exact Or.inl (by omega)

theorem Built.add (h : Built Fits b.grid) (new : unit.id ∉ b.seenIds)
    (fits : Fits b.rounds.length b.row.length unit)
    (depends : ∀ d ∈ unit.dependencies, d = unit.id ∨ d ∈ b.seenIds) :
    Built Fits (b.add unit).grid where
  unique := by
    have flat : (b.add unit).grid.flatten = b.grid.flatten ++ [unit] := by
      simp [Building.grid, Building.add]
    rw [flat, List.map_append, List.nodup_append]
    refine ⟨h.unique, by simp, ?_⟩
    rintro a ha c hc rfl
    rw [List.map_singleton, List.mem_singleton] at hc
    exact new (by rw [Building.seenIds_eq, ← hc]; exact ha)
  fits := by
    intro r m u hu
    rcases at_grid_add.mp hu with hu | ⟨rfl, rfl, rfl⟩
    · exact h.fits r m u hu
    · exact fits
  depends := by
    intro r m u hu d hd
    have grows : ∀ r m u, At b.grid r m u → At (b.add unit).grid r m u := fun r m u hu =>
      at_grid_add.mpr (.inl hu)
    rcases at_grid_add.mp hu with hu | ⟨rfl, rfl, rfl⟩
    · exact (h.depends r m u hu d hd).imp_right fun before => before.mono grows
    · exact (depends d hd).imp_right fun seen => (before_of_seen seen).mono grows

theorem Built.congr {rows : List (List PlayUnit)} (h : Built Fits rows)
    (same : ∀ r m u, At rows' r m u ↔ At rows r m u) (flat : rows'.flatten = rows.flatten) :
    Built Fits rows' where
  unique := by
    rw [flat]
    exact h.unique
  fits := fun r m u hu => h.fits r m u ((same r m u).mp hu)
  depends := by
    intro r m u hu d hd
    exact (h.depends r m u ((same r m u).mp hu) d hd).imp_right fun before =>
      before.mono fun r m u => (same r m u).mpr

theorem Built.close (h : Built Fits b.grid) : Built Fits b.close.grid :=
  h.congr (fun _ _ _ => at_grid_close) (by simp [Building.grid, Building.close])

theorem Built.start : Built Fits (Building.grid {}) where
  unique := List.nodup_nil
  fits := fun r m u hu => by simpa [Building.grid] using hu.mem
  depends := fun r m u hu => by simpa [Building.grid] using hu.mem

end

/-! ## Units of a payload -/

def slotHead (side : Side) : ParticipantId := side.head?.getD BYE

theorem slotFromSide_eq_ok {eventId : EventId} {participants : Participants} {side : Side}
    {slot : BracketSlot} (h : slotFromSide eventId participants side = .ok slot) :
    slot = .participant (slotHead side) := by
  unfold slotFromSide at h
  split at h
  · cases h
    rfl
  · split at h
    · cases h
      rfl
    · cases h

/-- The completed match takes the winner of a match of an earlier round. -/
structure Advanced (ev : ImportEventIn) (r : Nat) (feederId : PlayUnitId) (side : Side) : Prop where
  feeder : ∃ r' < r, ∃ m mu result, At ev.rounds r' m mu ∧ mu.id = feederId ∧
    mu.result = some result ∧ (mu.winningSide result).Perm side

/-- What the unit of an entry of round `r` is. -/
structure Imported (ev : ImportEventIn) (r : Nat) (mu : ImportPlayUnitIn) (u : PlayUnit) :
    Prop where
  id : u.id = mu.id
  event : u.eventId = ev.id
  first : ¬ ev.HistoricalRecords → r = 0 → u.dependencies = [] ∧ ∀ X,
    u.side X = mu.side X ∧ u.slot X = .participant (slotHead (mu.side X))
  later : ¬ ev.HistoricalRecords → r ≠ 0 → ∃ f : PlayUnit.Place → PlayUnitId,
    u.dependencies = [f .A, f .B] ∧ ∀ X,
      mu.feeder X = some (f X) ∧ u.side X = [] ∧ u.slot X = .feeder (f X) .winner
  completed : ev.HistoricalRecords → mu.result ≠ none ∧
    (∀ d ∈ u.dependencies, ∃ X, mu.feeder X = some d) ∧ ∀ X,
      mu.side X ≠ [] ∧ u.side X = mu.side X ∧
        ((mu.feeder X = none ∧ u.slot X = .participant (slotHead (mu.side X))) ∨
          ∃ f ∈ u.dependencies, mu.feeder X = some f ∧ u.slot X = .feeder f .winner ∧
            Advanced ev r f (mu.side X))

/-- The loop over an event after `k` rounds and `j` units of the next. -/
structure Importing.Sound (ev : ImportEventIn) (k j : Nat) (st : Importing) : Prop where
  rounds : st.rounds.length = k
  row : st.row.length = j
  built : Built (fun r m u => ∃ mu, At ev.rounds r m mu ∧ Imported ev r mu u) st.grid
  onto : ∀ r m mu, At ev.rounds r m mu → r < k ∨ (r = k ∧ m < j) → ∃ u, At st.grid r m u
  imported : ∀ p ∈ st.imported, ∃ m, At ev.rounds p.2.2 m p.2.1 ∧ p.2.1.id = p.1
  keys : Assoc.keys st.imported = st.seenIds

section

variable {ev : ImportEventIn} {participants : Participants} {mu : ImportPlayUnitIn} {r m : Nat}
  {unit : PlayUnit} {imported : List (PlayUnitId × ImportPlayUnitIn × Nat)} {k : Nat}
  {st st' : Importing}

theorem historicalSlot_eq_ok {place : PlayUnit.Place} {concrete slot : BracketSlot}
    {feederId : Option PlayUnitId}
    (entries : ∀ p ∈ imported, ∃ m, At ev.rounds p.2.2 m p.2.1 ∧ p.2.1.id = p.1)
    (h : historicalSlot ev mu place concrete r imported = .ok (slot, feederId)) :
    mu.feeder place = feederId ∧
      ((feederId = none ∧ slot = concrete) ∨
        ∃ f, feederId = some f ∧ slot = .feeder f .winner ∧ f ∈ Assoc.keys imported ∧
          Advanced ev r f (mu.side place)) := by
  unfold historicalSlot at h
  split at h
  · next none =>
    cases h
    exact ⟨none, .inl ⟨rfl, rfl⟩⟩
  next f named =>
  split at h
  · cases h
  next feeder feederRound found =>
  split at h
  · cases h
  next earlier =>
  split at h
  · cases h
  split at h
  · cases h
  next result decided =>
  split at h
  · next same =>
    cases h
    have entry := Assoc.mem_of_get found
    obtain ⟨m, stands, key⟩ := entries _ entry
    refine ⟨named, .inr ⟨f, rfl, rfl, List.mem_map_of_mem entry, ?_⟩⟩
    exact ⟨feederRound, by omega, m, feeder, result, stands, key, decided, same⟩
  · cases h

theorem concreteUnit_eq_ok
    (entries : ∀ p ∈ imported, ∃ m, At ev.rounds p.2.2 m p.2.1 ∧ p.2.1.id = p.1)
    (concrete : r = 0 ∨ ev.HistoricalRecords)
    (h : concreteUnit ev participants r m imported mu = .ok unit) :
    Imported ev r mu unit ∧ ∀ d ∈ unit.dependencies, d ∈ Assoc.keys imported := by
  unfold concreteUnit at h
  simp only [bind_eq_ok] at h
  obtain ⟨slotA, hA, slotB, hB, h⟩ := h
  obtain rfl := slotFromSide_eq_ok hA
  obtain rfl := slotFromSide_eq_ok hB
  split at h
  · next hist =>
    simp only [bind_eq_ok, reject_eq_ok] at h
    obtain ⟨-, sides, -, decided, ⟨slotA, feederA⟩, hA, ⟨slotB, feederB⟩, hB, -, -, h⟩ := h
    cases h
    obtain ⟨namedA, shapeA⟩ := historicalSlot_eq_ok entries hA
    obtain ⟨namedB, shapeB⟩ := historicalSlot_eq_ok entries hB
    obtain ⟨sideA, sideB⟩ := not_or.mp sides
    have feeds : ∀ d ∈ feederA.toList ++ feederB.toList,
        mu.feeder .A = some d ∨ mu.feeder .B = some d := by
      intro d hd
      rcases List.mem_append.mp hd with hd | hd
      · exact .inl (namedA.trans (Option.mem_toList.mp hd))
      · exact .inr (namedB.trans (Option.mem_toList.mp hd))
    refine ⟨⟨rfl, rfl, fun live => absurd hist live, fun live => absurd hist live,
      fun _ => ⟨decided, ?_, ?_⟩⟩, ?_⟩
    · intro d hd
      rcases feeds d hd with named | named
      · exact ⟨.A, named⟩
      · exact ⟨.B, named⟩
    · rintro (_ | _)
      · refine ⟨sideA, rfl, ?_⟩
        rcases shapeA with ⟨rfl, rfl⟩ | ⟨f, rfl, rfl, -, advanced⟩
        · exact .inl ⟨namedA, rfl⟩
        · exact .inr ⟨f, by simp, namedA, rfl, advanced⟩
      · refine ⟨sideB, rfl, ?_⟩
        rcases shapeB with ⟨rfl, rfl⟩ | ⟨f, rfl, rfl, -, advanced⟩
        · exact .inl ⟨namedB, rfl⟩
        · exact .inr ⟨f, by simp, namedB, rfl, advanced⟩
    · intro d hd
      rcases List.mem_append.mp hd with hd | hd
      · rcases shapeA with ⟨rfl, -⟩ | ⟨f, rfl, -, known, -⟩
        · cases hd
        · simp only [Option.toList_some, List.mem_singleton] at hd
          exact hd ▸ known
      · rcases shapeB with ⟨rfl, -⟩ | ⟨f, rfl, -, known, -⟩
        · cases hd
        · simp only [Option.toList_some, List.mem_singleton] at hd
          exact hd ▸ known
  · next live =>
    cases h
    obtain rfl : r = 0 := concrete.resolve_right live
    refine ⟨⟨rfl, rfl, fun _ _ => ⟨rfl, ?_⟩, fun _ h => absurd rfl h,
      fun hist => absurd hist live⟩, fun d hd => by cases hd⟩
    rintro (_ | _)
    · exact ⟨rfl, rfl⟩
    · exact ⟨rfl, rfl⟩

theorem openUnit_eq_ok {seen : List PlayUnitId} (later : ¬ (r = 0 ∨ ev.HistoricalRecords))
    (h : openUnit ev r m seen mu = .ok unit) :
    Imported ev r mu unit ∧ ∀ d ∈ unit.dependencies, d = unit.id ∨ d ∈ seen := by
  obtain ⟨pos, live⟩ := not_or.mp later
  unfold openUnit at h
  split at h
  · next feederA feederB namedA namedB =>
    split at h
    · cases h
    · next known =>
      cases h
      rw [not_or, not_not, not_not] at known
      have place : ∀ {f}, f ∈ seen ++ [mu.id] → f = mu.id ∨ f ∈ seen := by
        intro f hf
        rcases List.mem_append.mp hf with hf | hf
        · exact .inr hf
        · exact .inl (List.mem_singleton.mp hf)
      refine ⟨⟨rfl, rfl, fun _ h => absurd h pos, fun _ _ => ?_, fun hist => absurd hist live⟩, ?_⟩
      · refine ⟨fun X => if X = .A then feederA else feederB, rfl, ?_⟩
        rintro (_ | _)
        · exact ⟨namedA, rfl, rfl⟩
        · exact ⟨namedB, rfl, rfl⟩
      · intro d hd
        simp only [List.mem_cons, List.not_mem_nil, or_false] at hd
        rcases hd with rfl | rfl
        · exact place known.1
        · exact place known.2
  · cases h

theorem Importing.Sound.step {j : Nat} (h : st.Sound ev k j) (stands : At ev.rounds k j mu)
    (done : importUnit ev participants k st (mu, j) = .ok st') : st'.Sound ev k (j + 1) := by
  simp only [importUnit, bind_eq_ok, reject_eq_ok] at done
  obtain ⟨-, new, unit, built, done⟩ := done
  cases done
  have facts : Imported ev k mu unit ∧ ∀ d ∈ unit.dependencies, d = unit.id ∨ d ∈ st.seenIds := by
    unfold placedUnit at built
    split at built
    · next concrete =>
      obtain ⟨imported, known⟩ := concreteUnit_eq_ok h.imported concrete built
      exact ⟨imported, fun d hd => .inr (h.keys ▸ known d hd)⟩
    · next later => exact openUnit_eq_ok later built
  obtain ⟨imported, depends⟩ := facts
  have place : k = st.rounds.length ∧ j = st.row.length := ⟨h.rounds.symm, h.row.symm⟩
  refine ⟨h.rounds, by simp [Building.add, h.row], ?_, ?_, ?_, ?_⟩
  · refine h.built.add (imported.id ▸ new) ?_ depends
    rw [← place.1, ← place.2]
    exact ⟨mu, stands, imported⟩
  · intro r m mu' hmu lt
    by_cases here : r = k ∧ m = j
    · exact ⟨unit, at_grid_add.mpr (.inr ⟨here.1.trans place.1, here.2.trans place.2, rfl⟩)⟩
    · obtain ⟨u, hu⟩ := h.onto r m mu' hmu (by omega)
      exact ⟨u, at_grid_add.mpr (.inl hu)⟩
  · intro p hp
    rcases List.mem_append.mp hp with hp | hp
    · exact h.imported p hp
    · obtain rfl := List.mem_singleton.mp hp
      exact ⟨j, stands, rfl⟩
  · have keys := h.keys
    simp only [Assoc.keys, Building.seenIds, Building.add, List.map_append, List.map_cons,
      List.map_nil] at keys ⊢
    rw [keys, imported.id, List.append_assoc]

theorem Importing.Sound.round {units : List ImportPlayUnitIn} (h : st.Sound ev k 0)
    (stands : ev.rounds[k]? = some units)
    (done : importRound ev participants st (units, k) = .ok st') : st'.Sound ev (k + 1) 0 := by
  simp only [importRound, bind_eq_ok] at done
  obtain ⟨st₁, done, closed⟩ := done
  cases closed
  have full : st₁.Sound ev k (0 + units.length) := by
    refine foldlM_zipIdx_keeps (I := fun j st => Importing.Sound ev k j st) ?_ h done
    intro i mu st st' hi hst hst'
    rw [Nat.zero_add] at hst hst' ⊢
    exact hst.step ⟨units, stands, hi⟩ hst'
  refine ⟨by simp [Building.close, full.rounds], rfl, full.built.close, ?_, full.imported, ?_⟩
  · intro r m mu hmu lt
    obtain ⟨u, hu⟩ := full.onto r m mu hmu (by
      by_cases last : r = k
      · subst last
        obtain ⟨row, hr, hm⟩ := hmu
        rw [stands] at hr
        cases hr
        have := (List.getElem?_eq_some_iff.mp hm).1
        omega
      · omega)
    exact ⟨u, at_grid_close.mpr hu⟩
  · rw [full.keys, Building.seenIds_eq, Building.seenIds_eq]
    simp [Building.grid, Building.close]

theorem Importing.Sound.start : Importing.Sound ev 0 0 {} :=
  ⟨rfl, rfl, Built.start, fun _ _ _ _ lt => absurd lt (by omega),
    fun p hp => absurd hp List.not_mem_nil, rfl⟩

end

/-- **An accepted event is built entry by entry.** -/
structure ImportedDraw (ev : ImportEventIn) (d : Draw) (rows : List (List PlayUnit)) : Prop where
  draw : ∃ event participants, d = plainDraw event participants rows ∧ event.id = ev.id
  built : Built (fun r m u => ∃ mu, At ev.rounds r m mu ∧ Imported ev r mu u) rows
  onto : ∀ r m mu, At ev.rounds r m mu → ∃ u, At rows r m u ∧ Imported ev r mu u

theorem buildDrawFromImport_eq_ok {rosterIds : Option (List ParticipantId)} {ev : ImportEventIn}
    {d : Draw} (h : buildDrawFromImport rosterIds ev = .ok d) :
    ∃ rows, ImportedDraw ev d rows := by
  simp only [buildDrawFromImport, bind_eq_ok, reject_eq_ok] at h
  obtain ⟨-, -, participants, -, -, -, st, done, -, -, -, -, h⟩ := h
  cases h
  have full : st.Sound ev (0 + ev.rounds.length) 0 := by
    refine foldlM_zipIdx_keeps (I := fun k st => Importing.Sound ev k 0 st) ?_
      Importing.Sound.start done
    intro i units st st' hi hst hst'
    rw [Nat.zero_add] at hst hst' ⊢
    exact hst.round hi hst'
  have nil : st.row = [] := List.length_eq_zero_iff.mp full.row
  have same : ∀ r m u, At st.rounds r m u ↔ At st.grid r m u := by
    intro r m u
    rw [Building.grid, nil, at_concat_nil]
  have built := full.built.congr same (by simp [Building.grid, nil])
  refine ⟨st.rounds, ⟨_, _, rfl, rfl⟩, built, ?_⟩
  intro r m mu hmu
  obtain ⟨u, hu⟩ := full.onto r m mu hmu (.inl (by simpa using hmu.lt))
  have hu := (same r m u).mpr hu
  obtain ⟨mu', hmu', imported⟩ := built.fits r m u hu
  obtain rfl := hmu.unique hmu'
  exact ⟨u, hu, imported⟩

end Brackets
