import ShuttleWorks.Brackets.Settled
import ShuttleWorks.Lib.Transition

/-! The sweep as a run. Every result the program stores, by hand or in a sweep,
is one step of a transition system; a sweep is a run of walkovers that ends when
none is due, and it always ends. -/

namespace Brackets
open Lib

/-! ## Single steps -/

def IsWalkover (unit : PlayUnit) (r : Result) : Prop :=
  ∃ side, walkoverSide unit = some side ∧ r = walkover side

/-- A result the unit may get: its walkover, or one that is allowed once both sides are known. -/
def Decides (allowed : PlayUnitId → Result → Prop) (unit : PlayUnit) (r : Result) : Prop :=
  IsWalkover unit r ∨ (walkoverSide unit = none ∧ allowed unit.id r)

variable {r : Result} {allowed allowed' : PlayUnitId → Result → Prop} {s s' s'' : TournamentState}
  {α : Type} {draws : List EventId} {affected : List PlayUnitId}

theorem Decides.mono {unit : PlayUnit} (h : ∀ id r, allowed id r → allowed' id r)
    (hd : Decides allowed unit r) :
    Decides allowed' unit r := by
  rcases hd with hd | ⟨hn, ha⟩
  · exact Or.inl hd
  · exact Or.inr ⟨hn, h _ _ ha⟩

theorem walkoverSide_eq_none_iff {unit : PlayUnit} :
    walkoverSide unit = none ↔ unit.sideA ≠ [] ∧ unit.sideB ≠ [] := by
  unfold walkoverSide
  cases unit.sideA <;> cases unit.sideB <;> simp

/-- One result stored and propagated: the unit has none, all its dependencies have one. -/
inductive Advance (allowed : PlayUnitId → Result → Prop) :
    TournamentState → PlayUnitId × Result → TournamentState → Prop
  | store {s : TournamentState} {unit : PlayUnit} {r : Result} :
    s.playUnits.get unit.id = some unit → s.result unit.id = none →
    (∀ d ∈ unit.dependencies, s.Resulted d) → Decides allowed unit r →
    Advance allowed s (unit.id, r) (recordAndPropagate s unit r).1

theorem Advance.mono (h : ∀ id r, allowed id r → allowed' id r) {a : PlayUnitId × Result}
    (ha : Advance allowed s a s') : Advance allowed' s a s' := by
  obtain ⟨hu, hn, hd, hr⟩ := ha
  exact .store hu hn hd (hr.mono h)

def SameAt (id : PlayUnitId) (s s' : TournamentState) : Prop :=
  s.playUnits.get id = s'.playUnits.get id ∧ s.result id = s'.result id

theorem SameAt.refl (id : PlayUnitId) (s : TournamentState) : SameAt id s s := ⟨rfl, rfl⟩

theorem SameAt.trans {id : PlayUnitId} (h : SameAt id s s') (h' : SameAt id s' s'') :
    SameAt id s s'' :=
  ⟨h.1.trans h'.1, h.2.trans h'.2⟩

@[simp] theorem recordAndPropagate_result (s : TournamentState) (unit : PlayUnit) (r : Result) :
    (recordAndPropagate s unit r).1.result = Function.update s.result unit.id (some r) := by
  funext id
  simp only [TournamentState.result, recordAndPropagate, Assoc.get_set, Function.update_apply,
    eq_comm]

@[simp] theorem recordAndPropagate_playUnits (s : TournamentState) (unit : PlayUnit) (r : Result) :
    (recordAndPropagate s unit r).1.playUnits =
      s.playUnits.update (receive unit r) (receive_id unit r) := rfl

theorem recordAndPropagate_ids (s : TournamentState) (unit : PlayUnit) (r : Result) :
    (recordAndPropagate s unit r).1.playUnits.rows.map PlayUnit.id =
      s.playUnits.rows.map PlayUnit.id := by
  simp [Table.update, Function.comp_def]

theorem recordAndPropagate_sameAt (s : TournamentState) (unit : PlayUnit) (r : Result)
    {id : PlayUnitId} (hid : id ≠ unit.id) (hd : id ∉ (recordAndPropagate s unit r).2) :
    SameAt id s (recordAndPropagate s unit r).1 := by
  constructor
  · rw [recordAndPropagate_playUnits, Table.get_update]
    cases hu : s.playUnits.get id with
    | none => rfl
    | some u =>
      have : ¬ Receives unit u := by
        intro h
        refine hd (List.mem_map.mpr ⟨u, ?_, Table.key_of_get hu⟩)
        simpa [h] using Table.mem_of_get hu
      simp [receive, this]
  · rw [recordAndPropagate_result, Function.update_of_ne hid]

theorem recordAndPropagate_others {unit : PlayUnit} (r : Result)
    (hs : s.playUnits.get unit.id = some unit) {id : PlayUnitId} {u : PlayUnit}
    (hu : s.playUnits.get id = some u) (he : u.eventId ≠ unit.eventId) :
    SameAt id s (recordAndPropagate s unit r).1 := by
  have hid : id ≠ unit.id := by
    rintro rfl
    rw [hs] at hu
    exact he (Option.some.inj hu ▸ rfl)
  constructor
  · have : ¬ Receives unit u := fun h => he h.1
    rw [recordAndPropagate_playUnits, Table.get_update, hu]
    simp [receive, this]
  · rw [recordAndPropagate_result, Function.update_of_ne hid]

/-! ## What a sweep does -/

def Keyed (s : TournamentState) : Prop := (Assoc.keys s.results).Nodup

theorem Keyed.recordAndPropagate (h : Keyed s) (unit : PlayUnit) (r : Result) :
    Keyed (recordAndPropagate s unit r).1 :=
  Assoc.nodup_keys_set h

theorem recordAndPropagate_known {unit : PlayUnit} {id : PlayUnitId}
    (h : id ∈ (recordAndPropagate s unit r).2) : s.playUnits.Has id := by
  obtain ⟨u, hu, rfl⟩ := List.mem_map.mp h
  exact List.mem_map_of_mem (List.mem_of_mem_filter hu)

/-- `s'` comes from `s` by walkovers in these draws that change no unit but the touched ones. -/
structure Sweeps (draws : List EventId) (s s' : TournamentState) (touched : List PlayUnitId) :
    Prop where
  run : ∃ steps, Run (Advance fun _ _ => False) s steps s'
  frame : ∀ id, id ∉ touched → SameAt id s s'
  known : ∀ id ∈ touched, s.playUnits.Has id
  keyed : Keyed s → Keyed s'
  others : ∀ id u, s.playUnits.get id = some u → u.eventId ∉ draws → SameAt id s s'
  ids : s'.playUnits.rows.map PlayUnit.id = s.playUnits.rows.map PlayUnit.id
  assignments : s'.assignments = s.assignments

theorem Sweeps.refl (draws : List EventId) (s : TournamentState) : Sweeps draws s s [] where
  run := ⟨[], .nil s⟩
  frame := fun id _ => SameAt.refl id s
  known := by simp
  keyed := fun h => h
  others := fun id _ _ _ => SameAt.refl id s
  ids := rfl
  assignments := rfl

theorem run_append {σ : Type} {step : σ → α → σ → Prop} {s s' s'' : σ} {as bs : List α}
    (h : Run step s as s') (h' : Run step s' bs s'') : Run step s (as ++ bs) s'' := by
  induction h with
  | nil s => exact h'
  | cons hs _ ih => exact .cons hs (ih h')

theorem Sweeps.trans {t t' : List PlayUnitId} (h : Sweeps draws s s' t)
    (h' : Sweeps draws s' s'' t') : Sweeps draws s s'' (t ++ t') where
  run := by
    obtain ⟨as, ha⟩ := h.run
    obtain ⟨bs, hb⟩ := h'.run
    exact ⟨as ++ bs, run_append ha hb⟩
  frame := by
    intro id hid
    rw [List.mem_append, not_or] at hid
    exact (h.frame id hid.1).trans (h'.frame id hid.2)
  known := by
    intro id hid
    rcases List.mem_append.mp hid with hid | hid
    · exact h.known id hid
    · have has := h'.known id hid
      rw [Table.Has, h.ids] at has
      exact has
  keyed := fun hk => h'.keyed (h.keyed hk)
  others := by
    intro id u hu he
    have same := h.others id u hu he
    exact same.trans (h'.others id u (same.1 ▸ hu) he)
  ids := h'.ids.trans h.ids
  assignments := h'.assignments.trans h.assignments

theorem dueWalkover_eq_some {id : PlayUnitId} {unit : PlayUnit} {side : WinnerSide} :
    dueWalkover s draws id = some (unit, side) ↔
      s.playUnits.get id = some unit ∧ s.result id = none ∧
        (∀ d ∈ unit.dependencies, s.Resulted d) ∧ unit.eventId ∈ draws ∧
        walkoverSide unit = some side := by
  unfold dueWalkover
  cases hu : s.playUnits.get id with
  | none => simp
  | some u =>
    dsimp only
    constructor
    · intro h
      split at h
      · cases h
      next hr =>
      split at h
      · cases h
      next hd =>
      split at h
      · cases h
      next he =>
      obtain ⟨w, hw, e⟩ := Option.map_eq_some_iff.mp h
      cases e
      refine ⟨rfl, by simpa [TournamentState.Resulted] using hr, ?_, not_not.mp he, hw⟩
      intro d hd'
      exact not_not.mp (fun hn => hd ⟨d, hd', hn⟩)
    · rintro ⟨e, hr, hd, he, hw⟩
      obtain rfl : u = unit := Option.some.inj e
      have resulted : ¬ s.Resulted id := by simp [TournamentState.Resulted, hr]
      have ready : ¬ ∃ d ∈ u.dependencies, ¬ s.Resulted d := fun ⟨d, hd', hn⟩ => hn (hd d hd')
      rw [if_neg resulted, if_neg ready, if_neg (not_not.mpr he), hw]
      rfl

theorem sweepUnit_sweeps (w : Sweep) (id : PlayUnitId) (h : Sweeps draws s w.state w.touched) :
    Sweeps draws s (sweepUnit draws w id).state (sweepUnit draws w id).touched := by
  unfold sweepUnit
  cases due : dueWalkover w.state draws id with
  | none => exact h
  | some p =>
    obtain ⟨unit, side⟩ := p
    obtain ⟨hu, hn, hd, he, hw⟩ := dueWalkover_eq_some.mp due
    have key : unit.id = id := Table.key_of_get hu
    subst key
    refine h.trans ⟨⟨[(unit.id, walkover side)], .cons ?_ (.nil _)⟩, ?_, ?_,
      fun hk => hk.recordAndPropagate _ _, ?_, ?_, rfl⟩
    · exact .store hu hn hd (Or.inl ⟨side, hw, rfl⟩)
    · intro id' hid
      rw [List.mem_cons, not_or] at hid
      exact recordAndPropagate_sameAt _ _ _ hid.1 hid.2
    · intro id' hid
      rcases List.mem_cons.mp hid with rfl | hid
      · exact Table.has_iff.mpr ⟨unit, Table.mem_of_get hu, rfl⟩
      · exact recordAndPropagate_known hid
    · intro id' u hu' he'
      exact recordAndPropagate_others _ hu hu' (fun e => he' (e ▸ he))
    · exact recordAndPropagate_ids _ _ _

theorem foldl_sweepUnit_sweeps (ids : List PlayUnitId) (w : Sweep)
    (h : Sweeps draws s w.state w.touched) :
    Sweeps draws s (ids.foldl (sweepUnit draws) w).state
      (ids.foldl (sweepUnit draws) w).touched := by
  induction ids generalizing w with
  | nil => exact h
  | cons id ids ih => exact ih _ (sweepUnit_sweeps w id h)

theorem sweepPass_sweeps (draws : List EventId) (s : TournamentState) :
    Sweeps draws s (sweepPass draws s).state (sweepPass draws s).touched :=
  foldl_sweepUnit_sweeps _ _ (Sweeps.refl draws s)

def Swept (draws : List EventId) (s : TournamentState) : Prop :=
  ∀ id, dueWalkover s draws id = none

theorem sweepUnit_changed (draws : List EventId) (w : Sweep) (id : PlayUnitId) :
    (sweepUnit draws w id).changed = false →
      sweepUnit draws w id = w ∧ dueWalkover w.state draws id = none := by
  unfold sweepUnit
  cases h : dueWalkover w.state draws id with
  | none => simp
  | some p => simp

theorem foldl_sweepUnit_unchanged (ids : List PlayUnitId) (w : Sweep)
    (h : (ids.foldl (sweepUnit draws) w).changed = false) :
    ids.foldl (sweepUnit draws) w = w ∧ ∀ id ∈ ids, dueWalkover w.state draws id = none := by
  induction ids generalizing w with
  | nil => simp
  | cons id ids ih =>
    obtain ⟨rest, others⟩ := ih _ h
    rw [List.foldl_cons, rest] at h
    obtain ⟨same, due⟩ := sweepUnit_changed draws w id h
    rw [same] at others
    rw [List.foldl_cons, rest, same]
    refine ⟨rfl, ?_⟩
    intro id' hid
    rcases List.mem_cons.mp hid with rfl | hid
    · exact due
    · exact others id' hid

theorem sweepPass_unchanged (h : (sweepPass draws s).changed = false) :
    (sweepPass draws s).state = s ∧ Swept draws s := by
  obtain ⟨same, others⟩ := foldl_sweepUnit_unchanged _ _ h
  refine ⟨congrArg Sweep.state same, ?_⟩
  intro id
  by_cases hid : id ∈ s.playUnits.rows.map PlayUnit.id
  · exact others id hid
  · have : s.playUnits.get id = none := Table.get_eq_none_iff.mpr hid
    simp [dueWalkover, this]

/-- **A sweep is a run of walkovers at whose end none is due.** -/
theorem sweepWalkovers_sweeps {passes : Nat} {touched : List PlayUnitId}
    (h : sweepWalkovers draws passes s = some (s', touched)) :
    Sweeps draws s s' touched ∧ Swept draws s' := by
  induction passes generalizing s s' touched with
  | zero => simp [sweepWalkovers] at h
  | succ passes ih =>
    rw [sweepWalkovers] at h
    have pass := sweepPass_sweeps draws s
    by_cases changed : (sweepPass draws s).changed = true
    · rw [if_pos changed] at h
      obtain ⟨⟨u, t⟩, hrest, e⟩ := Option.map_eq_some_iff.mp h
      cases e
      obtain ⟨hrest, swept⟩ := ih hrest
      exact ⟨pass.trans hrest, swept⟩
    · rw [if_neg changed] at h
      cases h
      obtain ⟨same, swept⟩ := sweepPass_unchanged (by simpa using changed)
      exact ⟨pass, by rw [same]; exact swept⟩

/-! ## The sweep ends -/

def pending (s : TournamentState) : Nat :=
  (s.playUnits.rows.map PlayUnit.id).countP (fun id => ¬ s.Resulted id)

theorem countP_lt_countP {l : List α} {p q : α → Bool} (h : ∀ x ∈ l, p x → q x) {a : α} (ha : a ∈ l)
    (hq : q a) (hp : ¬ p a) : l.countP p < l.countP q := by
  induction l with
  | nil => simp at ha
  | cons b l ih =>
    have tail : ∀ x ∈ l, p x → q x := fun x hx => h x (List.mem_cons_of_mem _ hx)
    rcases List.mem_cons.mp ha with rfl | ha
    · have := List.countP_mono_left tail
      simp only [List.countP_cons, hq, hp]
      simp only [↓reduceIte, Bool.false_eq_true]
      omega
    · have lt := ih tail ha
      have head := h b List.mem_cons_self
      simp only [List.countP_cons]
      by_cases hb : p b = true
      · simp only [hb, head hb, ↓reduceIte]
        omega
      · by_cases hb' : q b = true
        · simp only [hb, hb', ↓reduceIte]
          simp only [Bool.false_eq_true, ↓reduceIte]
          omega
        · simp only [hb, hb']
          simp only [Bool.false_eq_true, ↓reduceIte]
          omega

theorem pending_recordAndPropagate {unit : PlayUnit} (r : Result)
    (hu : s.playUnits.get unit.id = some unit) (new : s.result unit.id = none) :
    pending (recordAndPropagate s unit r).1 < pending s := by
  unfold pending
  rw [recordAndPropagate_ids]
  have mem : unit.id ∈ s.playUnits.rows.map PlayUnit.id := List.mem_map_of_mem (Table.mem_of_get hu)
  refine countP_lt_countP ?_ mem ?_ ?_
  · intro id _ h
    by_cases e : id = unit.id
    · simp [TournamentState.Resulted, e] at h
    · simpa [TournamentState.Resulted, Function.update_of_ne e] using h
  · simp [TournamentState.Resulted, new]
  · simp [TournamentState.Resulted]

theorem pending_sweepUnit (draws : List EventId) (w : Sweep) (id : PlayUnitId) :
    sweepUnit draws w id = w ∨
      ((sweepUnit draws w id).changed = true ∧
        pending (sweepUnit draws w id).state < pending w.state) := by
  unfold sweepUnit
  cases due : dueWalkover w.state draws id with
  | none => exact Or.inl rfl
  | some p =>
    obtain ⟨unit, side⟩ := p
    obtain ⟨hu, hn, -, -, -⟩ := dueWalkover_eq_some.mp due
    have key : unit.id = id := Table.key_of_get hu
    subst key
    exact Or.inr ⟨rfl, pending_recordAndPropagate _ hu hn⟩

theorem pending_foldl_sweepUnit (ids : List PlayUnitId) (w : Sweep) :
    ids.foldl (sweepUnit draws) w = w ∨
      pending (ids.foldl (sweepUnit draws) w).state < pending w.state := by
  induction ids generalizing w with
  | nil => exact Or.inl rfl
  | cons id ids ih =>
    rw [List.foldl_cons]
    rcases pending_sweepUnit draws w id with same | ⟨-, less⟩
    · rw [same]
      exact ih w
    · rcases ih (sweepUnit draws w id) with same' | less'
      · rw [same']
        exact Or.inr less
      · exact Or.inr (less'.trans less)

/-- **The sweep ends**: as many passes as there are units without a result, and one more, do. -/
theorem sweepWalkovers_ends (draws : List EventId) {passes : Nat} (h : pending s < passes) :
    ∃ out, sweepWalkovers draws passes s = some out := by
  induction passes generalizing s with
  | zero => omega
  | succ passes ih =>
    rw [sweepWalkovers]
    by_cases changed : (sweepPass draws s).changed = true
    · have less : pending (sweepPass draws s).state < pending s := by
        rcases pending_foldl_sweepUnit (s.playUnits.rows.map PlayUnit.id)
          { state := s } with same | less
        · rw [sweepPass, same] at changed
          cases changed
        · exact less
      obtain ⟨⟨u, t⟩, hu⟩ := ih (s := (sweepPass draws s).state) (by omega)
      rw [if_pos changed, hu]
      exact ⟨_, rfl⟩
    · rw [if_neg changed]
      exact ⟨_, rfl⟩

theorem pending_le (s : TournamentState) : pending s ≤ s.playUnits.rows.length := by
  refine List.countP_le_length.trans ?_
  simp

/-! ## What recording a result does -/

theorem mem_dedupe {resolved swept : List PlayUnitId} {id : PlayUnitId} :
    id ∈ dedupe resolved swept ↔ id ∈ resolved ∨ id ∈ swept := by
  unfold dedupe
  induction swept generalizing resolved with
  | nil => simp
  | cons a swept ih =>
    rw [List.foldl_cons, ih]
    by_cases ha : a ∈ resolved
    · simp only [ha, ↓reduceIte, List.mem_cons]
      constructor
      · rintro (h | h)
        · exact Or.inl h
        · exact Or.inr (Or.inr h)
      · rintro (h | rfl | h)
        · exact Or.inl h
        · exact Or.inl ha
        · exact Or.inr h
    · simp only [ha, ↓reduceIte, List.mem_append, List.mem_cons, List.not_mem_nil, or_false]
      exact or_assoc

/-- A result may be recorded: the unit is there, its draw too, it has no result and the
winner's side is not empty. -/
structure Recordable (s : TournamentState) (draws : List EventId) (unit : PlayUnit) (r : Result) :
    Prop where
  stored : s.playUnits.get unit.id = some unit
  draw : unit.eventId ∈ draws
  new : s.result unit.id = none
  winner : ¬ Unrecoverable unit r

/-- What `recordResult` leaves: the result stored and propagated, then swept. -/
structure Recorded (s : TournamentState) (draws : List EventId) (unit : PlayUnit) (r : Result)
    (s' : TournamentState) (affected : List PlayUnitId) : Prop where
  swept : Swept draws s'
  sweeps : ∃ touched, Sweeps draws (recordAndPropagate s unit r).1 s' touched ∧
    affected = dedupe (recordAndPropagate s unit r).2 touched

theorem recordResult_eq_ok {id : PlayUnitId} (h : recordResult s draws id r = .ok (s', affected)) :
    ∃ unit, unit.id = id ∧ Recordable s draws unit r ∧ Recorded s draws unit r s' affected := by
  unfold recordResult at h
  cases hu : s.playUnits.get id with
  | none => simp [hu] at h
  | some unit =>
    have key : unit.id = id := Table.key_of_get hu
    rw [hu] at h
    dsimp only at h
    split at h
    · cases h
    next draw =>
    split at h
    · cases h
    next new =>
    split at h
    · cases h
    next sideA =>
    split at h
    · cases h
    next sideB =>
    split at h
    · cases h
    next s'' swept hs =>
    cases h
    obtain ⟨sweeps, ended⟩ := sweepWalkovers_sweeps hs
    refine ⟨unit, key, ⟨key ▸ hu, not_not.mp draw, ?_, not_or.mpr ⟨sideA, sideB⟩⟩, ended, ?_⟩
    · simpa [TournamentState.Resulted, key] using new
    · exact ⟨swept, sweeps, rfl⟩

/-- **Recording ends**: what may be recorded is. -/
theorem recordResult_ok {unit : PlayUnit} (h : Recordable s draws unit r) : ∃ s' affected,
      recordResult s draws unit.id r = .ok (s', affected) ∧ Recorded s draws unit r s' affected := by
  have rows : (recordAndPropagate s unit r).1.playUnits.rows.length = s.playUnits.rows.length := by
    simpa using congrArg List.length (recordAndPropagate_ids s unit r)
  have enough : pending (recordAndPropagate s unit r).1 < s.playUnits.rows.length + 1 := by
    have := pending_le (recordAndPropagate s unit r).1
    omega
  obtain ⟨⟨s', touched⟩, hs⟩ := sweepWalkovers_ends draws enough
  obtain ⟨sideA, sideB⟩ := not_or.mp h.winner
  refine ⟨s', dedupe (recordAndPropagate s unit r).2 touched, ?_, ?_⟩
  · have new : ¬ s.Resulted unit.id := by simp [TournamentState.Resulted, h.new]
    simp only [recordResult, h.stored]
    rw [if_neg (not_not.mpr h.draw), if_neg new, if_neg sideA, if_neg sideB]
    simp only [hs]
  · obtain ⟨sweeps, swept⟩ := sweepWalkovers_sweeps hs
    exact ⟨swept, touched, sweeps, rfl⟩

/-- **The returned list is complete**: no unit changes but the recorded one and those in it. -/
theorem Recorded.sameAt {unit : PlayUnit} (h : Recorded s draws unit r s' affected)
    {id : PlayUnitId} (hid : id ≠ unit.id) (ha : id ∉ affected) : SameAt id s s' := by
  obtain ⟨touched, sweeps, rfl⟩ := h.sweeps
  rw [mem_dedupe, not_or] at ha
  exact (recordAndPropagate_sameAt s unit r hid ha.1).trans (sweeps.frame id ha.2)

end Brackets
