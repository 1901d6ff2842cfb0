import Mathlib.Data.List.Induction
import ShuttleWorks.Lib.Clusters

/-! Planned double bookings. A plan puts matches on courts for spans of slots; the check before a
plan is marked ready sweeps every court and reports each group of matches that overlap. The groups
are the connected components of the overlap graph, whatever order the placements come in. -/

namespace Operations
open Lib

structure PlannedPlacement where
  key : String
  courtId : Option Int
  slotId : Option Int
  span : Option Int := none
  deriving DecidableEq, Repr

structure PlannedClash where
  courtId : Int
  slotId : Int
  matchKeys : List String
  deriving DecidableEq, Repr

namespace PlannedPlacement

/-- `int(slot_id or 0)`. -/
def start (p : PlannedPlacement) : Int := p.slotId.getD 0

/-- `span or 1`. -/
def slots (p : PlannedPlacement) : Int :=
  match p.span with
  | none | some 0 => 1
  | some n => n

def stop (p : PlannedPlacement) : Int := p.start + max 1 p.slots

def window (p : PlannedPlacement) : Span := ⟨p.start, p.stop⟩

@[simp] theorem window_start (p : PlannedPlacement) : p.window.start = p.start := rfl

@[simp] theorem window_stop (p : PlannedPlacement) : p.window.stop = p.stop := rfl

def Placed (p : PlannedPlacement) : Prop := p.courtId.isSome ∧ p.slotId.isSome

instance (p : PlannedPlacement) : Decidable p.Placed := inferInstanceAs (Decidable (_ ∧ _))

def Overlaps (p q : PlannedPlacement) : Prop := p.courtId = q.courtId ∧ Meets window p q

end PlannedPlacement

open PlannedPlacement

/-! ## The check -/

def byCourt (placements : List PlannedPlacement) : List (Int × List PlannedPlacement) :=
  placements.foldl (fun groups p =>
    match p.courtId, p.slotId with
    | some court, some _ => Assoc.push court p groups
    | _, _ => groups) []

def flush (court : Int) (cluster : List PlannedPlacement) : List PlannedClash :=
  match cluster with
  | first :: _ :: _ =>
    [{ courtId := court, slotId := first.start, matchKeys := cluster.map PlannedPlacement.key }]
  | _ => []

/-- The loop over the placements of a court. -/
def sweepCourt (court : Int) :
    List PlannedPlacement → List PlannedPlacement → Option Int → List PlannedClash
  | [], cluster, _ => flush court cluster
  | p :: rest, cluster, some clusterEnd =>
    if p.start < clusterEnd then sweepCourt court rest (cluster ++ [p]) (some (max clusterEnd p.stop))
    else flush court cluster ++ sweepCourt court rest [p] (some p.stop)
  | p :: rest, cluster, none => flush court cluster ++ sweepCourt court rest [p] (some p.stop)

def findPlannedClashes (placements : List PlannedPlacement) : List PlannedClash :=
  ((byCourt placements).insertionSort fun a b => a.1 ≤ b.1).flatMap fun group =>
    sweepCourt group.1 (group.2.insertionSort fun p q => p.start ≤ q.start) [] none

/-! ## The clusters behind the clashes -/

/-- Every cluster of every court, the ones of a single match among them. -/
def courtClusters (placements : List PlannedPlacement) : List (List PlannedPlacement) :=
  ((byCourt placements).insertionSort fun a b => a.1 ≤ b.1).flatMap fun group =>
    clusters window (group.2.insertionSort fun p q => p.start ≤ q.start)

/-- The clash a cluster makes. -/
def clash (cluster : List PlannedPlacement) : PlannedClash where
  courtId := (cluster.head?.bind PlannedPlacement.courtId).getD 0
  slotId := (cluster.head?.map PlannedPlacement.start).getD 0
  matchKeys := cluster.map PlannedPlacement.key

theorem window_solid (p : PlannedPlacement) : p.window.start < p.window.stop := by
  have := le_max_left 1 p.slots
  rw [window_start, window_stop, PlannedPlacement.stop]
  omega

variable {p q : PlannedPlacement} {placements : List PlannedPlacement} {court : Int}
  {c : List PlannedPlacement}

theorem Overlaps.symm (h : p.Overlaps q) : q.Overlaps p :=
  ⟨h.1.symm, Meets.symm h.2⟩

theorem sweepCourt_eq (court : Int) (l cluster : List PlannedPlacement) (stop : Int) :
    sweepCourt court l cluster (some stop) =
      (clustersFrom window l cluster stop).flatMap (flush court) := by
  induction l generalizing cluster stop with
  | nil => simp [sweepCourt, clustersFrom]
  | cons p rest ih =>
    rw [sweepCourt, clustersFrom, window_start, window_stop]
    by_cases early : p.start < stop
    · rw [if_pos early, ih, if_pos early]
    · rw [if_neg early, ih, if_neg early]
      rfl

theorem sweepCourt_nil (court : Int) (l : List PlannedPlacement) :
    sweepCourt court l [] none = (clusters window l).flatMap (flush court) := by
  cases l with
  | nil => rfl
  | cons p rest => exact sweepCourt_eq court rest [p] p.stop

/-- What the groups by court hold. -/
structure Grouped (placements : List PlannedPlacement) (groups : List (Int × List PlannedPlacement)) :
    Prop where
  courts : (Assoc.keys groups).Nodup
  own : ∀ g ∈ groups, ∀ p ∈ g.2, p.courtId = some g.1
  perm : (groups.flatMap Prod.snd).Perm (placements.filter Placed)

theorem Grouped.step {groups : List (Int × List PlannedPlacement)} (h : Grouped placements groups)
    {slot : Int} (hc : p.courtId = some court) (hs : p.slotId = some slot) :
    Grouped (placements ++ [p]) (Assoc.push court p groups) := by
  refine ⟨Assoc.nodup_keys_set h.courts, fun g hg q hq => ?_, ?_⟩
  · rcases Assoc.mem_push hg with hg | ⟨key, members⟩
    · exact h.own g hg q hq
    · rw [key]
      rcases members q hq with rfl | ⟨hold, hq⟩
      · exact hc
      · exact h.own _ hold q hq
  · have placed : p.Placed := ⟨hc ▸ rfl, hs ▸ rfl⟩
    rw [List.filter_append, List.filter_cons, if_pos (decide_eq_true placed), List.filter_nil]
    exact (Assoc.push_flatten _ _ _).trans ((h.perm.cons p).trans (List.perm_append_singleton _ _).symm)

theorem byCourt_grouped (placements : List PlannedPlacement) :
    Grouped placements (byCourt placements) := by
  induction placements using List.reverseRecOn with
  | nil => exact ⟨.nil, by simp [byCourt], .refl _⟩
  | append_singleton placements p ih =>
    unfold byCourt at ih ⊢
    rw [List.foldl_append]
    cases hc : p.courtId with
    | none =>
      have off : ¬ p.Placed := by simp [Placed, hc]
      refine ⟨?_, ?_, ?_⟩ <;> simp only [List.foldl_cons, List.foldl_nil, hc]
      · exact ih.courts
      · exact ih.own
      · simpa [List.filter_append, off] using ih.perm
    | some court =>
      cases hs : p.slotId with
      | none =>
        have off : ¬ p.Placed := by simp [Placed, hs]
        refine ⟨?_, ?_, ?_⟩ <;> simp only [List.foldl_cons, List.foldl_nil, hc, hs]
        · exact ih.courts
        · exact ih.own
        · simpa [List.filter_append, off] using ih.perm
      | some slot =>
        simp only [List.foldl_cons, List.foldl_nil, hc, hs]
        exact ih.step hc hs

theorem byCourt_sorted (placements : List PlannedPlacement) :
    ((byCourt placements).insertionSort fun a b => a.1 ≤ b.1).Pairwise fun g g' => g.1 < g'.1 := by
  have : Std.Total fun a b : Int × List PlannedPlacement => a.1 ≤ b.1 := ⟨fun a b => le_total a.1 b.1⟩
  have : IsTrans (Int × List PlannedPlacement) fun a b => a.1 ≤ b.1 := ⟨fun _ _ _ => le_trans⟩
  have perm := List.perm_insertionSort (fun a b : Int × List PlannedPlacement => a.1 ≤ b.1)
    (byCourt placements)
  have distinct : ((byCourt placements).insertionSort fun a b => a.1 ≤ b.1).Pairwise
      fun g g' => g.1 ≠ g'.1 :=
    List.pairwise_map.mp ((perm.map Prod.fst).nodup_iff.mpr (byCourt_grouped placements).courts)
  exact (List.pairwise_insertionSort _ _).imp₂ (fun _ _ le ne => lt_of_le_of_ne le ne) distinct

/-- A cluster: placements on one court, from the earliest on, each joined to each. -/
structure Cluster (c : List PlannedPlacement) : Prop where
  inhabited : c ≠ []
  court : ∃ court, ∀ p ∈ c, p.courtId = some court
  sorted : c.Pairwise fun p q => p.start ≤ q.start
  joined : ∀ p ∈ c, ∀ q ∈ c, Joined Overlaps c p q

def Before (p q : PlannedPlacement) : Prop :=
  ∃ c ∈ p.courtId, ∃ c' ∈ q.courtId, c < c' ∨ (c = c' ∧ p.stop ≤ q.start)

def ordered (items : List PlannedPlacement) : List PlannedPlacement :=
  items.insertionSort fun p q => p.start ≤ q.start

theorem ordered_sorted (items : List PlannedPlacement) :
    (ordered items).Pairwise fun p q => p.start ≤ q.start := by
  have : Std.Total fun p q : PlannedPlacement => p.start ≤ q.start := ⟨fun p q => le_total p.start q.start⟩
  have : IsTrans PlannedPlacement fun p q => p.start ≤ q.start := ⟨fun _ _ _ => le_trans⟩
  exact List.pairwise_insertionSort _ _

theorem clusters_ordered (items : List PlannedPlacement) :
    (clusters window (ordered items)).flatten = ordered items ∧
      (∀ c ∈ clusters window (ordered items), c ≠ [] ∧
        ∀ p ∈ c, ∀ q ∈ c, Joined (Meets window) c p q) ∧
      (clusters window (ordered items)).Pairwise fun c c' => ∀ p ∈ c, ∀ q ∈ c', p.stop ≤ q.start :=
  clusters_spec (ordered_sorted items) fun p _ => window_solid p

theorem court_of_cluster {g : Int × List PlannedPlacement}
    (hg : g ∈ (byCourt placements).insertionSort fun a b => a.1 ≤ b.1)
    (hc : c ∈ clusters window (ordered g.2)) : ∀ p ∈ c, p.courtId = some g.1 := by
  intro p hp
  have mem : p ∈ ordered g.2 := (clusters_ordered g.2).1 ▸ List.mem_flatten.mpr ⟨c, hc, hp⟩
  exact (byCourt_grouped placements).own g ((List.mem_insertionSort _).mp hg) p
    ((List.mem_insertionSort _).mp mem)

theorem courtClusters_spec (placements : List PlannedPlacement) :
    (courtClusters placements).flatten.Perm (placements.filter Placed) ∧
      (∀ c ∈ courtClusters placements, Cluster c) ∧
      (courtClusters placements).Pairwise fun c c' => ∀ p ∈ c, ∀ q ∈ c', Before p q := by
  refine ⟨?_, fun c hc => ?_, ?_⟩
  · rw [courtClusters, ← List.flatMap_id, List.flatMap_assoc]
    have perm := List.perm_insertionSort (fun a b : Int × List PlannedPlacement => a.1 ≤ b.1)
      (byCourt placements)
    refine (List.Perm.flatMap perm fun g _ => ?_).trans (byCourt_grouped placements).perm
    have flat := (clusters_ordered g.2).1
    unfold ordered at flat
    rw [List.flatMap_id, flat]
    exact List.perm_insertionSort _ _
  · obtain ⟨g, hg, hc⟩ := List.mem_flatMap.mp hc
    obtain ⟨inhabited, joined⟩ := (clusters_ordered g.2).2.1 c hc
    refine ⟨inhabited, ⟨g.1, court_of_cluster hg hc⟩, ?_, fun p hp q hq => ?_⟩
    · have sub : c.Sublist (ordered g.2) := (clusters_ordered g.2).1 ▸ List.sublist_flatten_of_mem hc
      exact (ordered_sorted g.2).sublist sub
    · refine (joined p hp q hq).mono (fun _ => id) fun a ha b hb meets => ⟨?_, meets⟩
      exact (court_of_cluster hg hc a ha).trans (court_of_cluster hg hc b hb).symm
  · refine List.pairwise_flatMap.mpr ⟨fun g hg => ?_, ?_⟩
    · refine (clusters_ordered g.2).2.2.imp_of_mem fun hc hc' apart p hp q hq => ?_
      exact ⟨_, court_of_cluster hg hc p hp, _, court_of_cluster hg hc' q hq, .inr ⟨rfl, apart p hp q hq⟩⟩
    · refine (byCourt_sorted placements).imp_of_mem fun hg hg' lt c hc c' hc' p hp q hq => ?_
      exact ⟨_, court_of_cluster hg hc p hp, _, court_of_cluster hg' hc' q hq, .inl lt⟩

theorem courtClusters_components (placements : List PlannedPlacement) :
    Components Overlaps (placements.filter Placed) (courtClusters placements) := by
  obtain ⟨perm, parts, apart⟩ := courtClusters_spec placements
  refine .of_edges perm (fun c hc => (parts c hc).inhabited) (fun c hc => (parts c hc).joined)
    (fun _ _ => Overlaps.symm) (fun p _ => ⟨rfl, Meets.refl (window_solid p)⟩)
    (apart.imp fun before p hp q hq overlaps => ?_)
  obtain ⟨c, hc, c', hc', lt | ⟨-, le⟩⟩ := before p hp q hq
  · obtain rfl : c = c' := Option.some.inj (hc.symm.trans (overlaps.1.trans hc'))
    exact lt_irrefl _ lt
  · exact overlaps.2 (.inl le)

theorem flush_eq (h : ∀ p ∈ c, p.courtId = some court) :
    flush court c = if 2 ≤ c.length then [clash c] else [] := by
  match c with
  | [] => rfl
  | [_] => rfl
  | first :: second :: rest =>
    have hc := h first List.mem_cons_self
    rw [if_pos (by simp)]
    simp [flush, clash, hc]

theorem findPlannedClashes_eq (placements : List PlannedPlacement) :
    findPlannedClashes placements =
      ((courtClusters placements).filter fun c => 2 ≤ c.length).map clash := by
  rw [findPlannedClashes, courtClusters, List.filter_flatMap, List.map_flatMap]
  refine List.flatMap_congr fun g hg => ?_
  have court := fun c hc => flush_eq (court_of_cluster hg (c := c) hc)
  unfold ordered at court
  rw [sweepCourt_nil, List.flatMap_congr court]
  generalize clusters window _ = cs
  induction cs with
  | nil => rfl
  | cons c cs ih =>
    rw [List.flatMap_cons, ih, List.filter_cons]
    by_cases two : 2 ≤ c.length
    · simp [two]
    · simp [two]

def SameClash (c c' : PlannedClash) : Prop :=
  c.courtId = c'.courtId ∧ c.slotId = c'.slotId ∧ c.matchKeys.Perm c'.matchKeys

theorem clash_perm {c' : List PlannedPlacement} (h : Cluster c) (h' : Cluster c')
    (perm : c.Perm c') :
    SameClash (clash c) (clash c') := by
  obtain ⟨court, hc⟩ := h.court
  cases c with
  | nil => exact absurd rfl h.inhabited
  | cons p c =>
    cases c' with
    | nil => exact absurd rfl h'.inhabited
    | cons p' c' =>
      have other : p'.courtId = some court := hc p' (perm.mem_iff.mpr List.mem_cons_self)
      -- both start with an earliest placement
      have first : ∀ q ∈ p :: c, p.start ≤ q.start := fun q hq =>
        (List.mem_cons.mp hq).elim (fun e => e ▸ le_refl _) ((List.pairwise_cons.mp h.sorted).1 q)
      have first' : ∀ q ∈ p' :: c', p'.start ≤ q.start := fun q hq =>
        (List.mem_cons.mp hq).elim (fun e => e ▸ le_refl _) ((List.pairwise_cons.mp h'.sorted).1 q)
      refine ⟨?_, ?_, perm.map _⟩
      · simp [clash, hc p List.mem_cons_self, other]
      · exact le_antisymm (first p' (perm.mem_iff.mpr List.mem_cons_self))
          (first' p (perm.mem_iff.mp List.mem_cons_self))

theorem before_asymm (h : Before p q) : ¬ Before q p := by
  obtain ⟨c, hc, c', hc', h⟩ := h
  rintro ⟨d', hd', d, hd, h'⟩
  obtain rfl : c = d := Option.some.inj (hc.symm.trans hd)
  obtain rfl : c' = d' := Option.some.inj (hc'.symm.trans hd')
  have := window_solid p
  have := window_solid q
  simp only [window_start, window_stop] at *
  omega

theorem findPlannedClashes_perm {placements' : List PlannedPlacement}
    (perm : (placements.filter Placed).Perm (placements'.filter Placed)) :
    List.Forall₂ SameClash (findPlannedClashes placements) (findPlannedClashes placements') := by
  obtain ⟨-, parts, sorted⟩ := courtClusters_spec placements
  obtain ⟨-, parts', sorted'⟩ := courtClusters_spec placements'
  have same := (courtClusters_components placements).unique_order (courtClusters_components placements')
    perm (fun _ _ => Overlaps.symm) (fun _ _ => before_asymm) sorted sorted'
  rw [findPlannedClashes_eq, findPlannedClashes_eq]
  clear sorted sorted'
  generalize courtClusters placements = cs at *
  generalize courtClusters placements' = cs' at *
  induction same with
  | nil => exact .nil
  | @cons c c' cs cs' hc _ ih =>
    obtain ⟨cluster, parts⟩ := List.forall_mem_cons.mp parts
    obtain ⟨cluster', parts'⟩ := List.forall_mem_cons.mp parts'
    rw [List.filter_cons, List.filter_cons, hc.length_eq]
    split
    · exact .cons (clash_perm cluster cluster' hc) (ih parts parts')
    · exact ih parts parts'

/-! ## The write boundary -/

/-- A placement of the committed schedule. -/
structure ScheduleAssignment where
  matchId : String
  slotId : Option Int
  courtId : Option Int
  durationSlots : Option Int := none
  deriving DecidableEq, Repr

/-- A placement of the bracket session. -/
structure BracketAssignment where
  playUnitId : String
  slotId : Option Int
  courtId : Option Int
  durationSlots : Option Int := none
  deriving DecidableEq, Repr

/-- The plan in a tournament's data. -/
structure StoredPlan where
  schedule : List ScheduleAssignment := []
  bracketSession : List BracketAssignment := []
  planFinalized : Bool := false
  deriving DecidableEq, Repr

/-- `value or 1`. -/
def orOne (value : Option Int) : Int :=
  match value with
  | none | some 0 => 1
  | some n => n

def plannedPlacements (data : StoredPlan) : List PlannedPlacement :=
  (data.schedule.map fun a =>
    { key := "meet:" ++ a.matchId, courtId := a.courtId, slotId := a.slotId,
      span := some (orOne a.durationSlots) }) ++
  data.bracketSession.map fun a =>
    { key := "bracket:" ++ a.playUnitId, courtId := a.courtId, slotId := a.slotId,
      span := some (orOne a.durationSlots) }

def clashCourts (clashes : List PlannedClash) : List Int :=
  (clashes.map PlannedClash.courtId).dedup.insertionSort (· ≤ ·)

/-- `set_plan_finalized`; the refusal names the courts. -/
def setPlanFinalized (data : StoredPlan) (finalized : Bool) : Except (List Int) StoredPlan :=
  let clashes := findPlannedClashes (plannedPlacements data)
  if finalized ∧ clashes ≠ [] then .error (clashCourts clashes)
  else .ok { data with planFinalized := finalized }

end Operations
