import ShuttleWorks.Operations.PlannedClashes

/-! The Plan surface. The console runs its own check for double-booked courts over the blocks it
paints: the stored placements with the live states laid over them. The check is the server's, so the
two agree on the same placements; the write boundary judges the stored plan alone. -/

namespace Console
open Lib Operations

structure PlannedPlacement where
  key : String
  court : Option Int
  slot : Option Int
  span : Option Int
  deriving DecidableEq, Repr

structure PlannedClash where
  courtId : Int
  slotId : Int
  keys : List String
  deriving DecidableEq, Repr

namespace PlannedPlacement

/-- `p.slot ?? 0`. -/
def start (p : PlannedPlacement) : Int := p.slot.getD 0

def stop (p : PlannedPlacement) : Int := p.start + max 1 (p.span.getD 1)

def toServer (p : PlannedPlacement) : Operations.PlannedPlacement := ⟨p.key, p.court, p.slot, p.span⟩

end PlannedPlacement

def PlannedClash.toServer (c : PlannedClash) : Operations.PlannedClash := ⟨c.courtId, c.slotId, c.keys⟩

/-! ## The check -/

def byCourt (placements : List PlannedPlacement) : List (Int × List PlannedPlacement) :=
  placements.foldl (fun groups p =>
    match p.court, p.slot with
    | some court, some _ => Assoc.push court p groups
    | _, _ => groups) []

def flush (court : Int) (cluster : List PlannedPlacement) : List PlannedClash :=
  match cluster with
  | first :: _ :: _ =>
    [{ courtId := court, slotId := first.start, keys := cluster.map PlannedPlacement.key }]
  | _ => []

/-- The loop over the placements of a court; no end of a cluster stands for `-Infinity`. -/
def sweepCourt (court : Int) :
    List PlannedPlacement → List PlannedPlacement → Option Int → List PlannedClash
  | [], cluster, _ => flush court cluster
  | p :: rest, cluster, clusterEnd =>
    if clusterEnd.any (p.start < ·) then
      sweepCourt court rest (cluster ++ [p]) (clusterEnd.map (max · p.stop))
    else flush court cluster ++ sweepCourt court rest [p] (some p.stop)

def findPlannedClashes (placements : List PlannedPlacement) : List PlannedClash :=
  ((byCourt placements).insertionSort fun a b => a.1 ≤ b.1).flatMap fun group =>
    sweepCourt group.1 (group.2.insertionSort fun p q => p.start ≤ q.start) [] none

/-! ## The server's twin -/

open PlannedPlacement

@[simp] theorem key_toServer (p : PlannedPlacement) : p.toServer.key = p.key := rfl

@[simp] theorem start_toServer (p : PlannedPlacement) : p.toServer.start = p.start := rfl

theorem stop_toServer (p : PlannedPlacement) : p.toServer.stop = p.stop := by
  have slots : max 1 p.toServer.slots = max 1 (p.span.getD 1) := by
    unfold Operations.PlannedPlacement.slots toServer
    split
    · next e => simp_all
    · next e => simp_all
    · next n _ e => simp_all
  rw [Operations.PlannedPlacement.stop, slots]
  rfl

theorem byCourt_toServer (placements : List PlannedPlacement) :
    Operations.byCourt (placements.map toServer) =
      (byCourt placements).map fun g => (g.1, g.2.map toServer) := by
  induction placements using List.reverseRecOn with
  | nil => rfl
  | append_singleton placements p ih =>
    unfold Operations.byCourt byCourt at ih ⊢
    rw [List.map_append, List.foldl_append, List.foldl_append, ih]
    simp only [List.map_cons, List.map_nil, List.foldl_cons, List.foldl_nil]
    rw [show p.toServer.courtId = p.court from rfl, show p.toServer.slotId = p.slot from rfl]
    cases p.court with
    | none => rfl
    | some court =>
      cases p.slot with
      | none => rfl
      | some slot => exact Assoc.push_map _ _ _ _

theorem flush_toServer (court : Int) (cluster : List PlannedPlacement) :
    Operations.flush court (cluster.map toServer) = (flush court cluster).map PlannedClash.toServer := by
  match cluster with
  | [] => rfl
  | [_] => rfl
  | first :: second :: rest =>
    simp [Operations.flush, flush, PlannedClash.toServer, Function.comp_def]

theorem sweepCourt_toServer (court : Int) (l cluster : List PlannedPlacement) (clusterEnd : Option Int) :
    Operations.sweepCourt court (l.map toServer) (cluster.map toServer) clusterEnd =
      (sweepCourt court l cluster clusterEnd).map PlannedClash.toServer := by
  induction l generalizing cluster clusterEnd with
  | nil => cases clusterEnd <;> exact flush_toServer court cluster
  | cons p rest ih =>
    have grown : cluster.map toServer ++ [p.toServer] = (cluster ++ [p]).map toServer := by simp
    have fresh : [p.toServer] = [p].map toServer := rfl
    cases clusterEnd with
    | none =>
      rw [List.map_cons, Operations.sweepCourt, sweepCourt, stop_toServer, fresh, ih, flush_toServer]
      simp
    | some e =>
      rw [List.map_cons, Operations.sweepCourt, sweepCourt, start_toServer, stop_toServer, grown,
        fresh, ih, ih, flush_toServer]
      by_cases early : p.start < e
      · simp [early]
      · simp [early]

/-- **One check, written twice.** -/
theorem findPlannedClashes_toServer (placements : List PlannedPlacement) :
    Operations.findPlannedClashes (placements.map toServer) =
      (findPlannedClashes placements).map PlannedClash.toServer := by
  unfold Operations.findPlannedClashes findPlannedClashes
  rw [byCourt_toServer,
    ← List.map_insertionSort (r := fun a b : Int × List PlannedPlacement => a.1 ≤ b.1),
    List.flatMap_map, List.map_flatMap]
  · refine List.flatMap_congr fun g _ => ?_
    dsimp only
    rw [← List.map_insertionSort (r := fun p q : PlannedPlacement => p.start ≤ q.start)]
    · exact sweepCourt_toServer g.1 _ [] none
    · exact fun _ _ _ _ => Iff.rfl
  · exact fun _ _ _ _ => Iff.rfl

/-! ## What the surface paints -/

/-- The live state of a match, as far as it moves the match. -/
structure LiveState where
  postponed : Bool := false
  actualCourtId : Option Int := none
  actualSlotId : Option Int := none
  deriving DecidableEq, Repr

/-- `new Map(...)`: the last entry of a key counts. -/
def lookup {α : Type} (entries : List (String × α)) (id : String) : Option α :=
  Assoc.get id (Assoc.merge [] entries)

/-- The court and the slot of a match's block. -/
def blockPlace (st : Option LiveState) (a : Option ScheduleAssignment) : Option Int × Option Int :=
  if st.any LiveState.postponed then (none, none)
  else ((st.bind LiveState.actualCourtId).or (a.bind ScheduleAssignment.courtId),
    (st.bind LiveState.actualSlotId).or (a.bind ScheduleAssignment.slotId))

def meetToOpsBlocks (matchIds : List String) (schedule : List ScheduleAssignment)
    (matchStates : List (String × LiveState)) : List PlannedPlacement :=
  matchIds.map fun id =>
    let a := lookup (schedule.map fun a => (a.matchId, a)) id
    let place := blockPlace (Assoc.get id matchStates) a
    { key := "meet:" ++ id, court := place.1, slot := place.2,
      span := some ((a.bind ScheduleAssignment.durationSlots).getD 1) }

def bracketToOpsBlocks (playUnits : List String) (assignments : List BracketAssignment) :
    List PlannedPlacement :=
  playUnits.map fun id =>
    let a := lookup (assignments.map fun a => (a.playUnitId, a)) id
    { key := "bracket:" ++ id, court := a.bind BracketAssignment.courtId,
      slot := a.bind BracketAssignment.slotId,
      span := some ((a.bind BracketAssignment.durationSlots).getD 1) }

/-- What the surface has loaded beside the stored plan. -/
structure Surface where
  matchIds : List String
  playUnits : List String
  matchStates : List (String × LiveState)
  deriving DecidableEq, Repr

def Surface.blocks (ui : Surface) (data : StoredPlan) : List PlannedPlacement :=
  meetToOpsBlocks ui.matchIds data.schedule ui.matchStates ++
    bracketToOpsBlocks ui.playUnits data.bracketSession

def Surface.plannedClashes (ui : Surface) (data : StoredPlan) : List PlannedClash :=
  findPlannedClashes (ui.blocks data)

/-- The surface lists what the plan places, once, and no live state puts a match anywhere else. -/
structure Surface.Shows (ui : Surface) (data : StoredPlan) : Prop where
  matchIds : ui.matchIds.Nodup
  playUnits : ui.playUnits.Nodup
  schedule : (data.schedule.map ScheduleAssignment.matchId).Nodup
  session : (data.bracketSession.map BracketAssignment.playUnitId).Nodup
  listed : ∀ a ∈ data.schedule, a.matchId ∈ ui.matchIds
  listedUnits : ∀ a ∈ data.bracketSession, a.playUnitId ∈ ui.playUnits
  lengths : ∀ a ∈ data.schedule, ∀ d ∈ a.durationSlots, 1 ≤ d
  lengthsUnits : ∀ a ∈ data.bracketSession, ∀ d ∈ a.durationSlots, 1 ≤ d
  unmoved : ∀ id ∈ ui.matchIds, ∀ st, Assoc.get id ui.matchStates = some st →
    let a := lookup (data.schedule.map fun a => (a.matchId, a)) id
    blockPlace (some st) a = (a.bind ScheduleAssignment.courtId, a.bind ScheduleAssignment.slotId)

variable {α : Type} {ui : Surface}

theorem lookup_eq {entries : List (String × α)} (nodup : (Assoc.keys entries).Nodup) (id : String) :
    lookup entries id = Assoc.get id entries := by
  unfold lookup
  cases h : Assoc.get id entries with
  | none => rw [Assoc.get_merge_of_not_mem (Assoc.get_eq_none_iff.mp h)]; rfl
  | some a => exact Assoc.get_merge_of_mem nodup (Assoc.mem_of_get h) []

theorem placed_blocks {ids : List String} {entries : List α} {id : α → String}
    (block : String → Operations.PlannedPlacement) (placement : α → Operations.PlannedPlacement)
    (nodup : ids.Nodup) (distinct : (entries.map id).Nodup) (listed : ∀ a ∈ entries, id a ∈ ids)
    (found : ∀ k ∈ ids, ∀ a, Assoc.get k (entries.map fun a => (id a, a)) = some a → block k = placement a)
    (off : ∀ k ∈ ids, Assoc.get k (entries.map fun a => (id a, a)) = none → ¬ (block k).Placed) :
    ((ids.map block).filter Operations.PlannedPlacement.Placed).Perm
      ((entries.map placement).filter Operations.PlannedPlacement.Placed) := by
  have keys : Assoc.keys (entries.map fun a => (id a, a)) = entries.map id := by
    simp [Assoc.keys, Function.comp_def]
  have looked := Assoc.filterMap_get_perm (d := entries.map fun a => (id a, a)) (keys ▸ distinct) nodup
    fun k hk => by
      obtain ⟨a, ha, rfl⟩ := List.mem_map.mp (keys ▸ hk)
      exact listed a ha
  have values : (entries.map fun a => (id a, a)).map Prod.snd = entries := by simp [Function.comp_def]
  have kept : ∀ ks ⊆ ids, (ks.map block).filter Operations.PlannedPlacement.Placed =
      ((ks.filterMap (Assoc.get · (entries.map fun a => (id a, a)))).map placement).filter
        Operations.PlannedPlacement.Placed := by
    intro ks sub
    induction ks with
    | nil => rfl
    | cons k ks ih =>
      have rest := ih fun _ h => sub (List.mem_cons_of_mem _ h)
      have hk := sub List.mem_cons_self
      cases h : Assoc.get k (entries.map fun a => (id a, a)) with
      | none =>
        rw [List.map_cons, List.filter_cons_of_neg (by simpa using off k hk h), rest]
        simp only [List.filterMap_cons, h]
      | some a =>
        simp only [List.filterMap_cons, h, List.map_cons]
        rw [List.filter_cons, List.filter_cons, rest, found k hk a h]
  rw [kept ids fun _ h => h]
  rw [values] at looked
  exact (looked.map placement).filter _

theorem orOne_eq {d : Option Int} (h : ∀ n ∈ d, 1 ≤ n) : orOne d = d.getD 1 := by
  unfold orOne
  split
  · rfl
  · exact absurd (h 0 rfl) (by decide)
  · rfl

theorem Surface.Shows.place {data : StoredPlan} (h : ui.Shows data) {id : String}
    (hid : id ∈ ui.matchIds) {a : Option ScheduleAssignment}
    (ha : lookup (data.schedule.map fun a => (a.matchId, a)) id = a) :
    blockPlace (Assoc.get id ui.matchStates) a =
      (a.bind ScheduleAssignment.courtId, a.bind ScheduleAssignment.slotId) := by
  cases hst : Assoc.get id ui.matchStates with
  | none => rfl
  | some st => exact ha ▸ h.unmoved id hid st hst

theorem entry_of_get {entries : List α} {id : α → String} {k : String} {a : α}
    (h : Assoc.get k (entries.map fun a => (id a, a)) = some a) : a ∈ entries ∧ id a = k := by
  obtain ⟨a', ha', e⟩ := List.mem_map.mp (Assoc.mem_of_get h)
  cases e
  exact ⟨ha', rfl⟩

/-- **The same placements.** Where the surface shows the plan, its placed blocks are the stored
placements, in another order. -/
theorem Surface.Shows.perm {data : StoredPlan} (h : ui.Shows data) :
    (((ui.blocks data).map toServer).filter Operations.PlannedPlacement.Placed).Perm
      ((plannedPlacements data).filter Operations.PlannedPlacement.Placed) := by
  unfold Surface.blocks meetToOpsBlocks bracketToOpsBlocks plannedPlacements
  rw [List.map_append, List.filter_append, List.filter_append, List.map_map, List.map_map]
  have meetKeys : (Assoc.keys (data.schedule.map fun a => (a.matchId, a))).Nodup := by
    simpa [Assoc.keys, Function.comp_def] using h.schedule
  have bracketKeys : (Assoc.keys (data.bracketSession.map fun a => (a.playUnitId, a))).Nodup := by
    simpa [Assoc.keys, Function.comp_def] using h.session
  refine List.Perm.append ?_ ?_
  · refine placed_blocks _ _ h.matchIds h.schedule h.listed (fun id hid a ha => ?_)
      fun id hid none_ => ?_
    · have found := (lookup_eq meetKeys id).trans ha
      obtain ⟨mem, rfl⟩ := entry_of_get ha
      simp only [Function.comp_apply, toServer, found, h.place hid found, Option.bind_some,
        orOne_eq (h.lengths a mem)]
    · have missing := (lookup_eq meetKeys id).trans none_
      simp [toServer, missing, h.place hid missing, Operations.PlannedPlacement.Placed]
  · refine placed_blocks _ _ h.playUnits h.session h.listedUnits (fun id hid a ha => ?_)
      fun id hid none_ => ?_
    · have found := (lookup_eq bracketKeys id).trans ha
      obtain ⟨mem, rfl⟩ := entry_of_get ha
      simp only [Function.comp_apply, toServer, found, Option.bind_some, orOne_eq (h.lengthsUnits a mem)]
    · have missing := (lookup_eq bracketKeys id).trans none_
      simp [toServer, missing, Operations.PlannedPlacement.Placed]

/-- **Planned clashes.** The server's check reports the connected components with two placements or
more, whatever the order of the placements; the console's reports the same on the same placements;
and where the surface shows the stored plan it shows a clash if and only if the write boundary
refuses the plan. -/
theorem planned_clashes :
    (∀ placements, ∃ components,
      Components Operations.PlannedPlacement.Overlaps
        (placements.filter Operations.PlannedPlacement.Placed) components ∧
      Operations.findPlannedClashes placements =
        (components.filter fun c => 2 ≤ c.length).map clash) ∧
    (∀ placements placements' : List Operations.PlannedPlacement, placements.Perm placements' →
      List.Forall₂ SameClash (Operations.findPlannedClashes placements)
        (Operations.findPlannedClashes placements')) ∧
    (∀ placements : List PlannedPlacement, Operations.findPlannedClashes (placements.map toServer) =
      (findPlannedClashes placements).map PlannedClash.toServer) ∧
    ∀ (ui : Surface) (data : StoredPlan), ui.Shows data →
      (ui.plannedClashes data ≠ [] ↔ ∃ courts, setPlanFinalized data true = .error courts) := by
  refine ⟨fun placements => ⟨courtClusters placements, courtClusters_components placements,
    findPlannedClashes_eq placements⟩, fun _ _ perm => findPlannedClashes_perm (perm.filter _),
    findPlannedClashes_toServer, fun ui data shows => ?_⟩
  have same := findPlannedClashes_perm shows.perm
  rw [findPlannedClashes_toServer] at same
  have empty : ui.plannedClashes data = [] ↔
      Operations.findPlannedClashes (plannedPlacements data) = [] := by
    rw [← List.length_eq_zero_iff, ← List.length_eq_zero_iff, ← same.length_eq, List.length_map]
    rfl
  unfold setPlanFinalized
  rw [Ne, empty]
  by_cases clear : Operations.findPlannedClashes (plannedPlacements data) = [] <;> simp [clear]

def postponedPlan : StoredPlan :=
  { schedule := [⟨"a", some 0, some 1, none⟩, ⟨"b", some 0, some 1, none⟩] }

theorem double_booked_shown :
    Surface.plannedClashes ⟨["a", "b"], [], []⟩ postponedPlan ≠ [] ↔
      ∃ courts, setPlanFinalized postponedPlan true = .error courts :=
  planned_clashes.2.2.2 _ _ ⟨by decide, by decide, by decide, by decide, by decide, by decide,
    by decide, by decide, fun _ _ _ none_ => nomatch none_⟩

/-- The stored plan is refused, while the surface shows no clash: the postponed match is off its
court there. -/
theorem postponed_plan_refused :
    Surface.plannedClashes ⟨["a", "b"], [], [("a", { postponed := true })]⟩ postponedPlan = [] ∧
      setPlanFinalized postponedPlan true = .error [1] := by
  constructor
  · decide
  · decide

end Console
