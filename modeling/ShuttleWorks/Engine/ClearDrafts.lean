import ShuttleWorks.Engine.LeftEdge
import ShuttleWorks.Engine.Solving
import ShuttleWorks.Lib.Tally

/-! A draft without conflicts is a schedule. The validator compares claims of cells and neighbours
in a player's day; what it does not report is what the solver posts, but for the pool's count and
for what was placed before. -/

namespace Engine
open Lib

/-! ## Cells -/

section Claims

variable {κ : Type} [DecidableEq κ] {report : String → κ → String → Conflict}

theorem claims_of_no_conflict {claims : List (String × κ)} {w : List (κ × String)}
    {cs : List Conflict} (h : (claims.foldl (claim report) (w, cs)).2 = []) :
    cs = [] ∧ (claims.map Prod.snd).Nodup ∧ ∀ c ∈ claims, Assoc.get c.2 w = none := by
  induction claims generalizing w cs with
  | nil => exact ⟨h, List.nodup_nil, fun c hc => absurd hc List.not_mem_nil⟩
  | cons c claims ih =>
    rw [List.foldl_cons] at h
    cases held : Assoc.get c.2 w with
    | some holder =>
      -- a cell that is held is reported, and a report stays
      have step : claim report (w, cs) c = (w, cs ++ [report c.1 c.2 holder]) := by
        simp only [claim, held]
      rw [step] at h
      exact absurd (ih h).1 (by simp)
    | none =>
      have step : claim report (w, cs) c = (Assoc.set c.2 c.1 w, cs) := by
        simp only [claim, held]
      rw [step] at h
      obtain ⟨silent, distinct, free⟩ := ih h
      have other : ∀ c' ∈ claims, c.2 ≠ c'.2 := by
        intro c' hc' e
        have taken := free c' hc'
        rw [← e, Assoc.get_set_self] at taken
        cases taken
      refine ⟨silent, ?_, ?_⟩
      · rw [List.map_cons, List.nodup_cons]
        refine ⟨fun mem => ?_, distinct⟩
        obtain ⟨c', hc', e⟩ := List.mem_map.mp mem
        exact other c' hc' e.symm
      · intro c' hc'
        rcases List.mem_cons.mp hc' with rfl | hc'
        · exact held
        · rw [← Assoc.get_set_of_ne (other c' hc')]
          exact free c' hc'

theorem nodup_of_claimed {claims : List (String × κ)} (h : claimed report claims = []) :
    (claims.map Prod.snd).Nodup :=
  (claims_of_no_conflict h).2.1

theorem claimed_eq_nil_iff {claims : List (String × κ)} :
    claimed report claims = [] ↔ (claims.map Prod.snd).Nodup :=
  ⟨nodup_of_claimed, Draft.claimed_nil⟩

theorem mem_claimed {claims : List (String × κ)} {c : Conflict} (h : c ∈ claimed report claims) :
    ∃ id k holder, c = report id k holder := by
  suffices ∀ (w : List (κ × String)) (cs : List Conflict),
      c ∈ (claims.foldl (claim report) (w, cs)).2 →
        c ∈ cs ∨ ∃ id k holder, c = report id k holder from
    (this [] [] h).resolve_left List.not_mem_nil
  clear h
  induction claims with
  | nil => exact fun w cs h => .inl h
  | cons x claims ih =>
    intro w cs h
    rw [List.foldl_cons] at h
    unfold claim at h
    split at h
    · rcases ih _ _ h with old | found
      · rcases List.mem_append.mp old with old | new
        · exact .inl old
        · exact .inr ⟨_, _, _, List.mem_singleton.mp new⟩
      · exact .inr found
    · exact ih _ _ h

end Claims

variable {t : Int} {prev : PreviousAssignment} {a : Assignment}

namespace Draft

variable {d : Draft} {p : Assignment × Match} {type : ConflictType} {pid : String}

theorem mem_slots : t ∈ slots p ↔ (span p).Holds t := by
  simp only [slots, List.mem_map, List.mem_range, Span.Holds, span]
  constructor
  · rintro ⟨i, hi, rfl⟩
    omega
  · rintro ⟨from_, before⟩
    exact ⟨(t - p.1.slotId).toNat, by omega, by omega⟩

/-! ## What no conflict means -/

def Clear (d : Draft) : Prop := ∀ c ∈ d.findConflicts, c.type = .unscheduled

theorem Clear.silent (h : d.Clear) (ne : type ≠ .unscheduled) {part : List Conflict}
    (sub : part ⊆ d.findConflicts) (kind : ∀ c ∈ part, c.type = type) :
    part = [] := by
  refine List.eq_nil_iff_forall_not_mem.mpr fun c hc => ne ?_
  rw [← kind c hc]
  exact h c (sub hc)

theorem Clear.unreported (h : d.Clear) (ne : type ≠ .unscheduled) :
    ¬ ∃ c ∈ d.findConflicts, c.type = type := by
  rintro ⟨c, hc, rfl⟩
  exact ne (h c hc)

theorem courtConflicts_eq_nil_iff : d.courtConflicts = [] ↔ d.known.Pairwise fun p q =>
    p.1.courtId = q.1.courtId → ∀ t, (span p).Holds t → ¬ (span q).Holds t := by
  rw [courtConflicts, claimed_eq_nil_iff, List.map_flatMap, List.nodup_flatMap]
  have own : ∀ p ∈ d.known, (((slots p).map fun t => (p.1.matchId, (t, p.1.courtId))).map
      Prod.snd).Nodup := by
    intro p _
    rw [List.map_map]
    exact (slots_nodup p).map fun t t' e => (Prod.mk.inj e).1
  refine (and_iff_right own).trans (List.Pairwise.iff fun {p q} => ?_)
  constructor
  · intro apart court t hp hq
    refine apart (a := (t, p.1.courtId)) ?_ ?_
    · simpa using mem_slots.mpr hp
    · rw [court]
      simpa using mem_slots.mpr hq
  · intro apart cell inP inQ
    simp only [List.map_map, List.mem_map, Function.comp_apply] at inP inQ
    obtain ⟨t, ht, rfl⟩ := inP
    obtain ⟨t', ht', e⟩ := inQ
    obtain ⟨rfl, court⟩ := Prod.mk.inj e
    exact apart court.symm t' (mem_slots.mp ht) (mem_slots.mp ht')

theorem Clear.courts_apart (h : d.Clear) : d.known.Pairwise fun p q =>
    p.1.courtId = q.1.courtId → ∀ t, (span p).Holds t → ¬ (span q).Holds t := by
  refine courtConflicts_eq_nil_iff.mp ?_
  refine h.silent (by simp : ConflictType.courtConflict ≠ _) ?_ fun c hc => ?_
  · intro c hc
    simp [findConflicts, hc]
  · obtain ⟨id, k, holder, rfl⟩ := mem_claimed hc
    rfl

theorem playerOverlaps_eq_nil_iff : d.playerOverlaps = [] ↔ (d.config.allowPlayerOverlap = false →
    d.known.Pairwise fun p q => ∀ pid ∈ p.2.playerIds, pid ∈ q.2.playerIds →
      ∀ t, (span p).Holds t → ¬ (span q).Holds t) := by
  cases overlap : d.config.allowPlayerOverlap with
  | true => simp [playerOverlaps, overlap]
  | false =>
    have cells : ∀ p : Assignment × Match, (p.2.playerIds.flatMap fun pid =>
        (slots p).map fun t => (p.1.matchId, (pid, t))).map Prod.snd =
          p.2.playerIds.product (slots p) := by
      intro p
      simp [List.product, List.map_flatMap, Function.comp_def]
    rw [playerOverlaps, overlap, if_neg (by simp), claimed_eq_nil_iff, List.map_flatMap,
      List.nodup_flatMap]
    simp only [cells, forall_const]
    have own : ∀ p ∈ d.known, (p.2.playerIds.product (slots p)).Nodup :=
      fun p _ => (playerIds_nodup p.2).product (slots_nodup p)
    refine (and_iff_right own).trans (List.Pairwise.iff fun {p q} => ?_)
    constructor
    · intro apart pid inP inQ t hp hq
      exact apart (List.pair_mem_product.mpr ⟨inP, mem_slots.mpr hp⟩)
        (List.pair_mem_product.mpr ⟨inQ, mem_slots.mpr hq⟩)
    · rintro apart ⟨pid, t⟩ inP inQ
      obtain ⟨inP, hp⟩ := List.pair_mem_product.mp inP
      obtain ⟨inQ, hq⟩ := List.pair_mem_product.mp inQ
      exact apart pid inP inQ t (mem_slots.mp hp) (mem_slots.mp hq)

theorem Clear.players_apart (h : d.Clear) (strict : d.config.allowPlayerOverlap = false) :
    d.known.Pairwise fun p q => ∀ pid ∈ p.2.playerIds, pid ∈ q.2.playerIds →
      ∀ t, (span p).Holds t → ¬ (span q).Holds t := by
  refine playerOverlaps_eq_nil_iff.mp ?_ strict
  refine h.silent (by simp : ConflictType.playerOverlap ≠ _) ?_ fun c hc => ?_
  · intro c hc
    simp [findConflicts, hc]
  · rw [playerOverlaps, strict, if_neg (by simp)] at hc
    obtain ⟨id, k, holder, rfl⟩ := mem_claimed hc
    rfl

theorem Clear.available (h : d.Clear) (hp : p ∈ d.known) (inP : pid ∈ p.2.playerIds)
    {player : Player} (found : d.players.get pid = some player) (some_ : player.availability ≠ []) :
    coversRange player.availability (span p) := by
  by_contra not
  have none_ : d.unavailable = [] := by
    refine h.silent (by simp : ConflictType.availability ≠ _) ?_ fun c hc => ?_
    · intro c hc
      simp [findConflicts, hc]
    · obtain ⟨p, -, hc⟩ := List.mem_flatMap.mp hc
      obtain ⟨pid, -, hc⟩ := List.mem_filterMap.mp hc
      split at hc
      · cases hc
      · split at hc <;> cases hc
        rfl
  have own := List.filterMap_eq_nil_iff.mp (List.flatMap_eq_nil_iff.mp none_ p hp) pid inP
  rw [found] at own
  dsimp only at own
  rw [if_neg (not_or.mpr ⟨some_, not⟩)] at own
  cases own

/-! ## Rest -/

def segment (p : Assignment × Match) : Segment :=
  (p.1.slotId, p.1.slotId + (p.2.durationSlots : Int), p.1.matchId)

theorem byPlayer_eq (d : Draft) : d.byPlayer =
    grouped (d.known.flatMap fun p => p.2.playerIds.map fun pid => (pid, segment p)) := by
  have pushes : (d.known.flatMap fun p => p.2.playerIds.map fun pid => (pid, segment p)) =
      (d.known.flatMap fun p => p.2.playerIds.map fun pid => (pid, p)).map
        fun q => (q.1, segment q.2) := by
    simp only [List.map_flatMap, List.map_map, Function.comp_def]
  rw [byPlayer, grouped, pushes, List.foldl_map]
  rfl

/-- The second segment starts when the first has ended and the player has rested. -/
def Rested (rest : Int) (a b : Segment) : Prop := a.2.1 + rest ≤ b.1 ∧ b.1 ≤ b.2.1

def restOf (d : Draft) (pid : String) : Int :=
  ((d.players.get pid).map Player.restSlots).getD d.config.defaultRestSlots

/-- Whose rest is looked at; somebody who is not listed rests unless rest is soft. -/
def MustRest (d : Draft) (pid : String) : Prop :=
  match d.players.get pid with
  | some player => player.restIsHard = true
  | none => d.config.softRestEnabled = false

theorem restOf_nonneg (listed : ∀ player ∈ d.players.rows, 0 ≤ player.restSlots)
    (others : 0 ≤ d.config.defaultRestSlots) (pid : String) : 0 ≤ d.restOf pid := by
  unfold restOf
  cases found : d.players.get pid with
  | none => exact others
  | some player => exact listed player (Table.mem_of_get found)

theorem segments_sorted (segments : List Segment) :
    (segments.insertionSort segmentLe).Pairwise segmentLe := by
  have total : Std.Total segmentLe := by
    refine ⟨fun a b => ?_⟩
    unfold segmentLe
    have := le_total a.2.2 b.2.2
    grind
  have trans_ : IsTrans _ segmentLe := by
    refine ⟨fun a b c first second => ?_⟩
    unfold segmentLe at first second ⊢
    have := @le_trans _ _ a.2.2 b.2.2 c.2.2
    grind
  exact List.pairwise_insertionSort _ _

/-- **Neighbours that rest are enough**, and needed, when no segment ends before it starts. -/
theorem restConflicts_eq_nil_iff {segments : List Segment} (least : 0 ≤ d.restOf pid)
    (forward : ∀ a ∈ segments, a.1 ≤ a.2.1) :
    d.restConflicts pid segments = [] ↔ (d.MustRest pid → segments.Pairwise fun a b =>
      Rested (d.restOf pid) a b ∨ Rested (d.restOf pid) b a) := by
  have skipped : (¬ ((d.players.get pid).map Player.restIsHard).getD true ∨
      d.config.softRestEnabled ∧ ¬ ((d.players.get pid).map Player.restIsHard).getD false) ↔
        ¬ d.MustRest pid := by
    unfold MustRest
    cases d.players.get pid with
    | none => simp
    | some player => simp
  have perm := List.perm_insertionSort segmentLe segments
  have either : ∀ {a b}, (Rested (d.restOf pid) a b ∨ Rested (d.restOf pid) b a) →
      Rested (d.restOf pid) b a ∨ Rested (d.restOf pid) a b := Or.symm
  unfold restConflicts
  by_cases rests : d.MustRest pid
  · rw [if_neg (skipped.not.mpr (not_not.mpr rests))]
    simp only [List.map_eq_nil_iff, List.filter_eq_nil_iff, decide_eq_true_eq, not_lt, rests,
      forall_const]
    rw [← perm.pairwise_iff either]
    constructor
    · intro none_
      have chain : (segments.insertionSort segmentLe).IsChain (Rested (d.restOf pid)) := by
        refine forall_neighbours.mp fun x hx => ⟨none_ x hx, ?_⟩
        refine forward x.2 (perm.mem_iff.mp ?_)
        exact List.mem_of_mem_tail (List.of_mem_zip hx).2
      have transitive : Trans (Rested (d.restOf pid)) (Rested (d.restOf pid))
          (Rested (d.restOf pid)) := by
        refine ⟨fun {a b c} first second => ⟨?_, second.2⟩⟩
        have := first.1
        have := first.2
        have := second.1
        omega
      exact (List.isChain_iff_pairwise.mp chain).imp Or.inl
    · intro apart
      -- sorted, the later of two neighbours is the one that rested
      refine (forall_neighbours (R := fun a b => a.2.1 + d.restOf pid ≤ b.1)).mpr
        (((segments_sorted segments).and apart).imp_of_mem ?_).isChain
      rintro a b ha hb ⟨before, ⟨rested, -⟩ | ⟨rested, ends⟩⟩
      · exact rested
      · have own := forward b (perm.mem_iff.mp hb)
        rcases before with before | ⟨same, before | ⟨same', -⟩⟩ <;> omega
  · rw [if_pos (skipped.mpr rests)]
    simp [rests]

def segmentsOf (d : Draft) (pid : String) : List Segment :=
  d.known.flatMap fun p => if pid ∈ p.2.playerIds then [segment p] else []

theorem tooLittleRest_eq_nil_iff :
    d.tooLittleRest = [] ↔ ∀ pid, d.restConflicts pid (d.segmentsOf pid) = [] := by
  rw [tooLittleRest, byPlayer_eq, List.flatMap_eq_nil_iff]
  refine (forall_grouped (P := fun pid segments => d.restConflicts pid segments = [])
    (fun pid => by simp [restConflicts])).trans (forall_congr' fun pid => ?_)
  -- a place names a player once
  have once : ∀ p : Assignment × Match, ((p.2.playerIds.map fun pid => (pid, segment p)).filter
      fun x => x.1 = pid).map Prod.snd = if pid ∈ p.2.playerIds then [segment p] else [] := by
    intro p
    rw [List.filter_map, List.map_map]
    show (p.2.playerIds.filter (· = pid)).map (fun _ => segment p) = _
    rw [List.filter_eq, (playerIds_nodup p.2).count]
    split <;> rfl
  rw [valuesOf, List.filter_flatMap, List.map_flatMap, segmentsOf]
  simp only [once]

theorem pairwise_segmentsOf {R : Segment → Segment → Prop} :
    (d.segmentsOf pid).Pairwise R ↔ d.known.Pairwise fun p q => pid ∈ p.2.playerIds →
      pid ∈ q.2.playerIds → R (segment p) (segment q) := by
  rw [segmentsOf, List.pairwise_flatMap, and_iff_right]
  · refine List.Pairwise.iff fun {p q} => ?_
    by_cases inP : pid ∈ p.2.playerIds <;> by_cases inQ : pid ∈ q.2.playerIds <;> simp [inP, inQ]
  · intro p _
    split <;> simp

theorem segmentsOf_forward : ∀ a ∈ d.segmentsOf pid, a.1 ≤ a.2.1 := by
  intro a ha
  obtain ⟨p, -, hp⟩ := List.mem_flatMap.mp ha
  split at hp
  · rw [List.mem_singleton.mp hp, segment]
    dsimp only
    omega
  · cases hp

theorem Clear.rested (h : d.Clear) : d.known.Pairwise fun p q => ∀ pid ∈ p.2.playerIds,
    pid ∈ q.2.playerIds → ∀ player, d.players.get pid = some player → player.restIsHard = true →
      0 ≤ player.restSlots → Rested player.restSlots (segment p) (segment q) ∨
        Rested player.restSlots (segment q) (segment p) := by
  have none_ : d.tooLittleRest = [] := by
    refine h.silent (by simp : ConflictType.rest ≠ _) ?_ fun c hc => ?_
    · intro c hc
      simp [findConflicts, hc]
    · obtain ⟨q, -, hc⟩ := List.mem_flatMap.mp hc
      unfold restConflicts at hc
      dsimp only at hc
      split at hc
      · cases hc
      · obtain ⟨x, -, rfl⟩ := List.mem_map.mp hc
        rfl
  simp only [List.pairwise_iff_forall_sublist]
  intro p q two pid inP inQ player found hard least
  have rest : d.restOf pid = player.restSlots := by rw [restOf, found]; rfl
  have must : d.MustRest pid := by
    unfold MustRest
    rw [found]
    exact hard
  have apart := (restConflicts_eq_nil_iff (rest ▸ least) segmentsOf_forward).mp
    (tooLittleRest_eq_nil_iff.mp none_ pid) must
  rw [rest] at apart
  exact List.pairwise_iff_forall_sublist.mp (pairwise_segmentsOf.mp apart) two inP inQ

theorem forall_known {R : Assignment × Match → Assignment × Match → Prop}
    (symm_ : ∀ {p q}, R p q → R q p) (h : d.known.Pairwise R) {q : Assignment × Match}
    (hp : p ∈ d.known) (hq : q ∈ d.known) (ne : p ≠ q) : R p q := by
  have : Std.Symm R := ⟨fun _ _ => symm_⟩
  exact h.forall hp hq ne

/-! ## What the validator asks -/

/-- What a draft has to keep, read off its places one by one and two by two. -/
structure Lawful (d : Draft) : Prop where
  placed : ∀ m ∈ d.games.rows, ∃ a ∈ d.assignments, a.matchId = m.id
  inside : ∀ a ∈ d.assignments, ∃ m, d.games.get a.matchId = some m ∧ 0 ≤ a.slotId ∧
    a.slotId + m.durationSlots ≤ d.config.totalSlots ∧ 1 ≤ a.courtId ∧
      a.courtId ≤ d.config.courtCount
  courts : d.known.Pairwise fun p q =>
    p.1.courtId = q.1.courtId → ∀ t, (span p).Holds t → ¬ (span q).Holds t
  players : d.config.allowPlayerOverlap = false → d.known.Pairwise fun p q =>
    ∀ pid ∈ p.2.playerIds, pid ∈ q.2.playerIds → ∀ t, (span p).Holds t → ¬ (span q).Holds t
  available : ∀ p ∈ d.known, ∀ pid ∈ p.2.playerIds, ∀ player ∈ d.players.get pid,
    player.availability ≠ [] → coversRange player.availability (span p)
  breaks : ∀ p ∈ d.known, ∀ b ∈ d.config.breakSlots, ¬ inWindow (span p) b.1 b.2
  closures : ∀ p ∈ d.known, ∀ w ∈ d.closureWindows, p.1.courtId = w.1 →
    ¬ inWindow (span p) w.2.1 w.2.2
  rested : ∀ pid, d.MustRest pid → d.known.Pairwise fun p q => pid ∈ p.2.playerIds →
    pid ∈ q.2.playerIds → Rested (d.restOf pid) (segment p) (segment q) ∨
      Rested (d.restOf pid) (segment q) (segment p)
  locked : ∀ prev ∈ d.previousAssignments.rows, ∀ a ∈ d.placeOf prev.matchId,
    prev.locked = true → a.slotId = prev.slotId ∧ a.courtId = prev.courtId
  pinned : ∀ prev ∈ d.previousAssignments.rows, ∀ a ∈ d.placeOf prev.matchId,
    prev.locked = false → (∀ t ∈ prev.pinnedSlotId, a.slotId = t) ∧
      ∀ c ∈ prev.pinnedCourtId, a.courtId = c
  frozen : ∀ prev ∈ d.previousAssignments.rows, ∀ a ∈ d.placeOf prev.matchId,
    prev.locked = false → prev.slotId < d.config.currentSlot + d.config.freezeHorizonSlots →
      a.slotId = prev.slotId ∧ a.courtId = prev.courtId

theorem outside_eq_nil_iff : d.outside = [] ↔ ∀ a ∈ d.assignments, ∃ m,
    d.games.get a.matchId = some m ∧ 0 ≤ a.slotId ∧
      a.slotId + m.durationSlots ≤ d.config.totalSlots ∧ 1 ≤ a.courtId ∧
        a.courtId ≤ d.config.courtCount := by
  rw [outside, List.flatMap_eq_nil_iff]
  refine forall_congr' fun a => forall_congr' fun _ => ?_
  cases d.games.get a.matchId with
  | none => simp
  | some m =>
    simp only [outOfDay, invalidCourt, List.append_eq_nil_iff, ite_eq_right_iff, reduceCtorEq,
      imp_false, Option.some.injEq, exists_eq_left']
    omega

theorem unavailable_eq_nil_iff : d.unavailable = [] ↔ ∀ p ∈ d.known, ∀ pid ∈ p.2.playerIds,
    ∀ player ∈ d.players.get pid, player.availability ≠ [] →
      coversRange player.availability (span p) := by
  simp only [unavailable, List.flatMap_eq_nil_iff, List.filterMap_eq_nil_iff]
  refine forall_congr' fun p => forall_congr' fun _ => forall_congr' fun pid =>
    forall_congr' fun _ => ?_
  cases d.players.get pid with
  | none => simp
  | some player =>
    simp only [ite_eq_left_iff, reduceCtorEq, imp_false, not_not, Option.mem_def,
      Option.some.injEq, forall_eq']
    exact or_iff_not_imp_left

theorem movedConflicts_eq_nil_iff : d.movedConflicts prev = [] ↔
    ∀ a ∈ d.placeOf prev.matchId,
      (prev.locked = true → a.slotId = prev.slotId ∧ a.courtId = prev.courtId) ∧
      (prev.locked = false → (∀ t ∈ prev.pinnedSlotId, a.slotId = t) ∧
        ∀ c ∈ prev.pinnedCourtId, a.courtId = c) ∧
      (prev.locked = false → prev.slotId < d.config.currentSlot + d.config.freezeHorizonSlots →
        a.slotId = prev.slotId ∧ a.courtId = prev.courtId) := by
  unfold movedConflicts
  cases d.placeOf prev.matchId with
  | none => simp
  | some a =>
    cases locked : prev.locked with
    | true => simp [not_or]
    | false =>
      cases slot : prev.pinnedSlotId <;> cases court : prev.pinnedCourtId <;>
        simp [pinConflicts, slot, court, not_or]
      grind

theorem mem_placeOf (distinct : (d.assignments.map Assignment.matchId).Nodup) {id : String} :
    a ∈ d.placeOf id ↔ a ∈ d.assignments ∧ a.matchId = id := by
  have filtered : ∀ {b}, b ∈ d.assignments.filter (fun a => a.matchId = id) ↔
      b ∈ d.assignments ∧ b.matchId = id := by simp
  rw [placeOf, Option.mem_def, ← filtered]
  constructor
  · exact List.mem_of_getLast?
  · intro ha
    obtain ⟨b, last⟩ := Option.isSome_iff_exists.mp
      (List.getLast?_isSome.mpr (List.ne_nil_of_mem ha))
    have hb := filtered.mp (List.mem_of_getLast? last)
    have ha := filtered.mp ha
    rw [last, List.inj_on_of_nodup_map distinct hb.1 ha.1 (hb.2.trans ha.2.symm)]

theorem silent_iff_lawful (least : ∀ pid, 0 ≤ d.restOf pid) :
    d.findConflicts = [] ↔ d.Lawful := by
  have missing : d.missingMatches = [] ↔ ∀ m ∈ d.games.rows, ∃ a ∈ d.assignments,
      a.matchId = m.id := by
    simp [missingMatches]
  have breaks : d.overBreaks = [] ↔ ∀ p ∈ d.known, ∀ b ∈ d.config.breakSlots,
      ¬ inWindow (span p) b.1 b.2 := by
    simp [overBreaks]
  have closures : d.overClosures = [] ↔ ∀ p ∈ d.known, ∀ w ∈ d.closureWindows,
      p.1.courtId = w.1 → ¬ inWindow (span p) w.2.1 w.2.2 := by
    simp [overClosures]
  have rests : d.tooLittleRest = [] ↔ ∀ pid, d.MustRest pid → d.known.Pairwise fun p q =>
      pid ∈ p.2.playerIds → pid ∈ q.2.playerIds →
        Rested (d.restOf pid) (segment p) (segment q) ∨
          Rested (d.restOf pid) (segment q) (segment p) := by
    rw [tooLittleRest_eq_nil_iff]
    refine forall_congr' fun pid => ?_
    rw [restConflicts_eq_nil_iff (least pid) segmentsOf_forward, pairwise_segmentsOf]
  have moved : d.moved = [] ↔ ∀ prev ∈ d.previousAssignments.rows, d.movedConflicts prev = [] :=
    List.flatMap_eq_nil_iff
  simp only [findConflicts, List.append_eq_nil_iff, missing, outside_eq_nil_iff,
    courtConflicts_eq_nil_iff, playerOverlaps_eq_nil_iff, unavailable_eq_nil_iff, breaks, closures,
    rests, moved, movedConflicts_eq_nil_iff]
  constructor
  · rintro ⟨⟨⟨⟨⟨⟨⟨⟨placed, inside⟩, courts⟩, players⟩, available⟩, breaks⟩, closures⟩, rested⟩, kept⟩
    exact ⟨placed, inside, courts, players, available, breaks, closures, rested,
      fun prev hp a ha => (kept prev hp a ha).1, fun prev hp a ha => (kept prev hp a ha).2.1,
      fun prev hp a ha => (kept prev hp a ha).2.2⟩
  · intro h
    exact ⟨⟨⟨⟨⟨⟨⟨⟨h.placed, h.inside⟩, h.courts⟩, h.players⟩, h.available⟩, h.breaks⟩, h.closures⟩,
      h.rested⟩, fun prev hp a ha => ⟨h.locked prev hp a ha, h.pinned prev hp a ha,
        h.frozen prev hp a ha⟩⟩

/-- **What the validator asks.** When no player's rest is negative, it reports nothing for a list of
places exactly when every match has a place, every place is of a match and fits the day and the
courts, no two share a court at a time or a player where that is not allowed, windows, breaks and
closures are kept, any two matches of a player who must rest are the rest apart, and locks, pins
and the freeze horizon hold. -/
theorem findConflicts_eq_nil_iff (least : ∀ pid, 0 ≤ d.restOf pid) :
    d.findConflicts = [] ↔ d.Lawful :=
  silent_iff_lawful least

/-! ### An evening of two matches -/

def evening : ScheduleRequest where
  config := { totalSlots := 4, courtCount := 2, courtPolicy := .queue }
  players := [{ id := "ann", name := "Ann", availability := [(0, 4)] },
    { id := "bea", name := "Bea" }, { id := "cleo", name := "Cleo", restSlots := 2 }]
  games := [{ id := "early", eventCode := "WS", sideA := ["ann"], sideB := ["bea"] },
    { id := "late", eventCode := "WS", sideA := ["ann"], sideB := ["cleo"] }]

def eveningDraft (slot : Int) : Draft :=
  evening.scheduler.draft [⟨"early", 0, 1, 1⟩, ⟨"late", slot, 1, 1⟩]

theorem eveningDraft_rests (slot : Int) (pid : String) : 0 ≤ (eveningDraft slot).restOf pid := by
  have listed : ∀ player ∈ evening.scheduler.players.rows, 0 ≤ player.restSlots := by decide
  exact restOf_nonneg listed (Int.le_of_lt Int.one_pos) pid

theorem findConflicts_eq_nil_iff_evening :
    (eveningDraft 2).Lawful ∧ ¬ (eveningDraft 1).Lawful := by
  constructor
  · exact (findConflicts_eq_nil_iff (eveningDraft_rests 2)).mp (by decide +kernel)
  · exact mt (findConflicts_eq_nil_iff (eveningDraft_rests 1)).mpr (by decide +kernel)

end Draft

/-! ## Values that stand as a draft does -/

namespace Scheduler

variable {s : Scheduler} {v : Values} {d : Draft} {m : Match} {as : List Assignment}

/-- Every match is where the draft has it, and the draft reads the same players. -/
structure StandsAs (s : Scheduler) (v : Values) (d : Draft) : Prop where
  config : d.config = s.config
  placed : ∀ m ∈ s.games.rows, ∃ a, (a, m) ∈ d.known ∧ a.slotId = v.start m.id ∧
    a.courtId = v.court m.id
  player : ∀ m ∈ s.games.rows, ∀ pid ∈ m.playerIds, d.players.get pid = s.players.get pid

theorem mem_allowedStarts_of {starts : List Int} (h : s.allowedStarts m = some starts)
    (day : 0 ≤ t ∧ t + m.durationSlots ≤ s.config.totalSlots)
    (covered : ∀ pid ∈ m.playerIds, ∀ player ∈ s.players.get pid, player.availability ≠ [] →
      coversRange player.availability ⟨t, t + m.durationSlots⟩)
    (breaks : ∀ b ∈ s.config.breakSlots, ¬ inWindow ⟨t, t + m.durationSlots⟩ b.1 b.2) :
    t ∈ starts := by
  unfold allowedStarts at h
  dsimp only at h
  rw [if_neg (by omega)] at h
  split at h
  · cases h
  · cases h
    refine List.mem_filter.mpr ⟨mem_slotRange.mpr (by omega), decide_eq_true ⟨?_, breaks⟩⟩
    intro w hw
    obtain ⟨player, hp, e⟩ := List.mem_filterMap.mp hw
    obtain ⟨pid, inM, found⟩ := List.mem_filterMap.mp hp
    split at e
    · cases e
    · next some_ =>
      cases e
      exact covered pid inM player found some_

theorem spaced_of_follows {a b : Span} (day : 0 ≤ a.stop ∧ b.start ≤ s.config.totalSlots)
    (least : ∀ n ∈ s.config.minGameSpacingSlots, 0 ≤ n)
    (most : ∀ n ∈ s.config.maxGameSpacingSlots, 0 ≤ n) (h : Follows a b 0) : s.Spaced a b := by
  refine ⟨h, fun n hn => ⟨n, least n hn, le_refl n, ?_⟩, fun n hn => ?_⟩
  · unfold Follows at h
    omega
  · have := most n hn
    unfold Follows at h
    exact ⟨s.config.totalSlots, by omega, le_refl _, by omega⟩

theorem span_eq (start : a.slotId = v.start m.id) :
    Draft.span (a, m) = v.span m := by
  rw [Draft.span, Values.span, start]

theorem StandsAs.day (stands : s.StandsAs v d) (clear : d.Clear) (hm : m ∈ s.games.rows) :
    0 ≤ v.start m.id ∧ (v.span m).stop ≤ s.config.totalSlots := by
  obtain ⟨a, known, start, -⟩ := stands.placed m hm
  obtain ⟨listed, found⟩ := Draft.mem_known.mp known
  have inside := mt (Draft.outOfDay_reported listed found) (clear.unreported (by simp))
  rw [stands.config, start] at inside
  unfold Values.span
  dsimp only at inside ⊢
  omega

theorem StandsAs.courts (stands : s.StandsAs v d) (clear : d.Clear) (hm : m ∈ s.games.rows) :
    v.court m.id ∈ s.courts := by
  obtain ⟨a, known, -, court⟩ := stands.placed m hm
  obtain ⟨listed, found⟩ := Draft.mem_known.mp known
  have inside := mt (Draft.invalidCourt_reported listed found) (clear.unreported (by simp))
  rw [stands.config, court] at inside
  exact mem_courts.mpr (by omega)

theorem StandsAs.closures (stands : s.StandsAs v d) (clear : d.Clear) : s.CourtClosures v := by
  intro m hm w hw court
  obtain ⟨a, known, start, onCourt⟩ := stands.placed m hm
  obtain ⟨listed, found⟩ := Draft.mem_known.mp known
  have window : w ∈ d.closureWindows := by
    obtain ⟨mem, inside⟩ := List.mem_filter.mp hw
    have room := of_decide_eq_true inside
    unfold Draft.closureWindows
    rw [stands.config]
    rcases List.mem_append.mp mem with mem | mem
    · exact List.mem_append_left _ mem
    · obtain ⟨c, hc, rfl⟩ := List.mem_map.mp mem
      refine List.mem_append_right _ (List.mem_map.mpr ⟨c, ?_, rfl⟩)
      obtain ⟨listed, onCourts⟩ := List.mem_filter.mp hc
      have := of_decide_eq_true onCourts
      exact List.mem_filter.mpr ⟨listed, decide_eq_true ⟨this.1, this.2, room.2.2⟩⟩
  have off := mt (Draft.closed_reported listed found window (onCourt.trans court))
    (clear.unreported (by simp))
  rw [span_eq start] at off
  unfold inWindow Values.span at off
  unfold Values.span
  dsimp only at off ⊢
  omega

theorem StandsAs.availability (stands : s.StandsAs v d) (clear : d.Clear) : s.Availability v := by
  intro m hm starts allowed
  obtain ⟨a, known, start, -⟩ := stands.placed m hm
  obtain ⟨listed, found⟩ := Draft.mem_known.mp known
  refine mem_allowedStarts_of allowed (stands.day clear hm) (fun pid inM player found some_ => ?_)
    fun b hb => ?_
  · have covered := clear.available known inM ((stands.player m hm pid inM).trans found) some_
    rwa [span_eq start] at covered
  · have off := mt (Draft.break_reported listed found (stands.config ▸ hb))
      (clear.unreported (by simp))
    rwa [span_eq start] at off

/-- Two matches are two places. -/
theorem places_ne {a b : Assignment} {m n : Match} (ne : m.id ≠ n.id) : (a, m) ≠ (b, n) :=
  fun e => ne (congrArg (fun p : Assignment × Match => p.2.id) e)

theorem apart_of_never {m n : Match} (longM : 0 < m.durationSlots) (longN : 0 < n.durationSlots)
    (never : ∀ t, (v.span m).Holds t → ¬ (v.span n).Holds t) : (v.span m).Apart (v.span n) := by
  by_contra not
  obtain ⟨t, inM, inN⟩ := Span.exists_both (a := v.span m) (b := v.span n)
    (by unfold Values.span; dsimp only; omega) (by unfold Values.span; dsimp only; omega) not
  exact never t inM inN

theorem StandsAs.courts_apart (stands : s.StandsAs v d) (clear : d.Clear) {m n : Match}
    (hm : m ∈ s.games.rows) (hn : n ∈ s.games.rows) (ne : m.id ≠ n.id)
    (court : v.court m.id = v.court n.id) (inM : (v.span m).Holds t) : ¬ (v.span n).Holds t := by
  intro inN
  obtain ⟨a, known, start, onCourt⟩ := stands.placed m hm
  obtain ⟨b, known', start', onCourt'⟩ := stands.placed n hn
  have both := Draft.forall_known (fun {p q} h court t inQ inP => h court.symm t inP inQ)
    clear.courts_apart known known' (places_ne ne)
  refine both (onCourt.trans (court.trans onCourt'.symm)) t ?_ ?_
  · rwa [span_eq start]
  · rwa [span_eq start']

theorem StandsAs.players_apart (stands : s.StandsAs v d) (clear : d.Clear)
    (strict : s.config.allowPlayerOverlap = false) :
    s.OnShared fun m n _ => ∀ t, (v.span m).Holds t → ¬ (v.span n).Holds t := by
  intro m hm n hn ne pid inM inN t holdsM holdsN
  obtain ⟨a, known, start, -⟩ := stands.placed m hm
  obtain ⟨b, known', start', -⟩ := stands.placed n hn
  have both := Draft.forall_known (fun {p q} h pid inQ inP t holdsQ holdsP =>
    h pid inP inQ t holdsP holdsQ) (clear.players_apart (stands.config ▸ strict)) known known'
    (places_ne ne)
  refine both pid inM inN t ?_ ?_
  · rwa [span_eq start]
  · rwa [span_eq start']

theorem StandsAs.rested (stands : s.StandsAs v d) (clear : d.Clear) :
    s.OnShared fun m n pid => ∀ player, s.players.get pid = some player →
      player.restIsHard = true → 0 ≤ player.restSlots →
        Follows (v.span m) (v.span n) player.restSlots ∨
          Follows (v.span n) (v.span m) player.restSlots := by
  intro m hm n hn ne pid inM inN player found hard least
  obtain ⟨a, known, start, -⟩ := stands.placed m hm
  obtain ⟨b, known', start', -⟩ := stands.placed n hn
  have both := Draft.forall_known (fun {p q} h pid inQ inP player found hard least =>
    (h pid inP inQ player found hard least).symm) clear.rested known known' (places_ne ne)
  have found' := (stands.player m hm pid inM).trans found
  unfold Draft.Rested Draft.segment at both
  unfold Follows Values.span
  rw [← start, ← start']
  exact (both pid inM inN player found' hard least).imp And.left And.left

theorem StandsAs.spaced (stands : s.StandsAs v d) (clear : d.Clear) {m n : Match}
    (hm : m ∈ s.games.rows) (hn : n ∈ s.games.rows)
    (least : ∀ k ∈ s.config.minGameSpacingSlots, 0 ≤ k)
    (most : ∀ k ∈ s.config.maxGameSpacingSlots, 0 ≤ k)
    (followed : Follows (v.span m) (v.span n) 0) : s.Spaced (v.span m) (v.span n) := by
  have dayM := stands.day clear hm
  have dayN := stands.day clear hn
  refine spaced_of_follows ?_ least most followed
  unfold Follows at followed
  unfold Values.span at dayM dayN followed ⊢
  dsimp only at dayM dayN followed ⊢
  omega

/-- **A clear draft is a schedule.** Values that stand as a draft without conflicts satisfy all that
is posted, if the pool has a court for every pooled match, and if what was placed before is where
it has to be. -/
theorem satisfies_of_clear (stands : s.StandsAs v d) (clear : d.Clear)
    (long : ∀ m ∈ s.games.rows, 0 < m.durationSlots)
    (rests : ∀ m ∈ s.games.rows, ∀ pid ∈ m.playerIds, s.Rests pid)
    (least : ∀ n ∈ s.config.minGameSpacingSlots, 0 ≤ n)
    (most : ∀ n ∈ s.config.maxGameSpacingSlots, 0 ≤ n)
    (room : ∀ t, (s.games.rows.filter fun m =>
      m.id ∈ s.planPool.pooled ∧ (v.span m).Holds t).length ≤ s.planPool.poolCourts.length)
    (held : s.LocksAndPins v) (frozen : s.FreezeHorizon v) (near : s.Disruption v)
    (plain : s.lockedAssignments = []) : s.Satisfies v := by
  have followed : s.OnShared fun m n _ => Follows (v.span m) (v.span n) 0 ∨
      Follows (v.span n) (v.span m) 0 := by
    intro m hm n hn ne pid inM inN
    obtain ⟨player, found, hard, least⟩ := rests m hm pid inM
    have := stands.rested clear m hm n hn ne pid inM inN player found hard least
    unfold Follows at this ⊢
    omega
  constructor
  case startsInDay =>
    intro m hm
    have := stands.day clear hm
    unfold Values.span at this ⊢
    dsimp only at this ⊢
    omega
  case courtsInRange => exact fun m hm _ => stands.courts clear hm
  case courtClosures => exact stands.closures clear
  case courtCapacity =>
    refine ⟨fun m hm n hn ne _ _ court => ?_, room⟩
    exact apart_of_never (long m hm) (long n hn) fun _ => stands.courts_apart clear hm hn ne court
  case playerNoOverlap =>
    intro strict m hm n hn ne pid inM inN
    exact apart_of_never (long m hm) (long n hn)
      (stands.players_apart clear strict m hm n hn ne pid inM inN)
  case availability => exact stands.availability clear
  case locksAndPins => exact held
  case freezeHorizon => exact frozen
  case disruption => exact near
  case restBetweenMatches =>
    intro m hm n hn ne pid inM inN
    obtain ⟨player, found, hard, least⟩ := rests m hm pid inM
    simp only [found, Option.map_some, Option.getD_some, hard, true_or, if_true]
    exact stands.rested clear m hm n hn ne pid inM inN player found hard least
  case gameProximity =>
    intro _ _ m hm n hn ne pid inM inN
    exact (followed m hm n hn ne pid inM inN).imp (stands.spaced clear hm hn least most)
      (stands.spaced clear hn hm least most)
  case lockedConstraints =>
    intro lock hl
    rw [plain] at hl
    cases hl

/-! ## Places of values -/

theorem queueOrder_sorted (s : Scheduler) (v : Values) : (s.queueOrder v).Pairwise sortKeyLe := by
  have total : Std.Total sortKeyLe := by
    refine ⟨fun a b => ?_⟩
    unfold sortKeyLe
    have := le_total a.2.2 b.2.2
    grind
  have trans_ : IsTrans _ sortKeyLe := by
    refine ⟨fun a b c first second => ?_⟩
    unfold sortKeyLe at first second ⊢
    rcases first with first | ⟨same, before⟩
    · exact .inl (by omega)
    · rcases second with second | ⟨same', before'⟩
      · exact .inl (by omega)
      · exact .inr ⟨same.trans same', before.trans before'⟩
  exact List.pairwise_insertionSort _ _

theorem Satisfies.extracts (h : s.Satisfies v) (long : ∀ m ∈ s.games.rows, 0 < m.durationSlots) :
    ∃ as, s.extractSolution v = some as := by
  have perm := List.perm_insertionSort sortKeyLe
    ((s.games.rows.filter fun m => m.id ∈ s.planPool.pooled).map fun m =>
      (v.start m.id, m.durationSlots, m.id))
  have entry : ∀ o ∈ s.queueOrder v, 0 ≤ o.1 ∧ 0 < o.2.1 := by
    intro o ho
    obtain ⟨m, hm, rfl⟩ := List.mem_map.mp (perm.mem_iff.mp ho)
    have listed := (List.mem_filter.mp hm).1
    exact ⟨(h.startsInDay m listed).1, long m listed⟩
  have roomy : ∀ t, underWay (s.queueOrder v) t ≤ s.planPool.poolCourts.length := by
    intro t
    refine le_of_eq_of_le ?_ (h.courtCapacity.2 t)
    rw [underWay, queueOrder, (perm.filter _).length_eq, List.filter_map, List.length_map,
      List.filter_filter]
    refine congrArg List.length (List.filter_congr fun m _ => ?_)
    rw [Bool.and_comm]
    exact (Bool.decide_and _ _).symm
  obtain ⟨coloured, handed⟩ := Option.isSome_iff_exists.mp (coloured_of_roomy
    (s.queueOrder_sorted v) (fun o ho => (entry o ho).1) (fun o ho => (entry o ho).2) roomy)
  exact ⟨_, by rw [extractSolution, handed]; rfl⟩

theorem Satisfies.yields (h : s.Satisfies v) (long : ∀ m ∈ s.games.rows, 0 < m.durationSlots) :
    ∃ as, s.Yields as := by
  obtain ⟨as, extracted⟩ := h.extracts long
  exact ⟨as, v, h, extracted⟩

theorem not_pooled_of_kept {id : String} (kept : id ∈ s.kept) : id ∉ s.planPool.pooled :=
  fun pooled => (((planPool_queue pooled).2.2.2 id).mp pooled).2 kept

theorem kept_of_held (listed : prev ∈ s.previousAssignments.rows) (has : s.games.Has prev.matchId)
    (held : s.Held prev) : prev.matchId ∈ s.kept :=
  List.mem_append_right _ (List.mem_map.mpr
    ⟨prev, List.mem_filter.mpr ⟨listed, decide_eq_true ⟨has, held⟩⟩, rfl⟩)

theorem Yields.moved (h : s.Yields as) (listed : prev ∈ s.previousAssignments.rows)
    (free : prev.locked = false) (ha : a ∈ as) (e : prev.matchId = a.matchId) :
    ((∀ t ∈ prev.pinnedSlotId, a.slotId = t) ∧ ∀ c ∈ prev.pinnedCourtId, a.courtId = c) ∧
      (0 < s.config.freezeHorizonSlots → prev.slotId < s.cutoff →
        a.slotId = prev.slotId ∧ a.courtId = prev.courtId) := by
  obtain ⟨v, sat, extracted⟩ := h
  obtain ⟨coloured, hc, rfl⟩ := Option.map_eq_some_iff.mp extracted
  obtain ⟨m, hm, rfl⟩ := List.mem_map.mp ha
  have get : s.games.get prev.matchId = some m := Table.get_eq_some_iff.mpr ⟨hm, e.symm⟩
  have has : s.games.Has prev.matchId := Table.has_iff.mpr ⟨m, hm, e.symm⟩
  have own : s.Held prev → (placeOf v coloured m).courtId = v.court m.id :=
    fun held => courtId_of_not_pooled hc (not_pooled_of_kept (e.subst (kept_of_held listed has held)))
  have posted := sat.locksAndPins prev listed m get
  rw [free, if_neg (by simp), e] at posted
  refine ⟨⟨posted.1, fun c hc' => ?_⟩, fun freezes early => ?_⟩
  · rw [own (.inl (by rw [Option.mem_def.mp hc']; rfl))]
    exact posted.2 c hc'
  · obtain ⟨slot, court⟩ := sat.freezeHorizon (by unfold cutoff; omega) prev listed has free early
    rw [e] at slot court
    exact ⟨slot, (own (.inr (.inr ⟨freezes, early⟩))).trans court⟩

theorem known_draft (coloured : List (String × Int)) :
    (s.draft (s.games.rows.map (placeOf v coloured))).known =
      s.games.rows.map fun m => (placeOf v coloured m, m) := by
  rw [Draft.known, draft, List.filterMap_map]
  refine (List.filterMap_congr (g := some ∘ fun m => (placeOf v coloured m, m))
    fun m hm => ?_).trans (congrFun List.filterMap_eq_map _)
  have get : s.games.get (placeOf v coloured m).matchId = some m :=
    Table.get_eq_some_iff.mpr ⟨hm, rfl⟩
  rw [Function.comp_apply, get]
  rfl

/-- Where nothing is frozen, hints before the current slot stayed as they were. -/
def PastHintsKept (s : Scheduler) (as : List Assignment) : Prop :=
  s.config.freezeHorizonSlots ≤ 0 → ∀ prev ∈ s.previousAssignments.rows, prev.locked = false →
    prev.slotId < s.cutoff → ∀ a ∈ as, a.matchId = prev.matchId →
      a.slotId = prev.slotId ∧ a.courtId = prev.courtId

theorem lawful_draft_iff (h : s.Satisfies v) (dragged : s.Dragged)
    (plain : s.lockedAssignments = []) (windows : ∀ w ∈ s.config.closedCourtWindows, w.2.1 < w.2.2)
    (extracted : s.extractSolution v = some as) :
    (s.draft as).Lawful ↔ s.PastHintsKept as := by
  have yields : s.Yields as := ⟨v, h, extracted⟩
  have allows := yields.allows dragged plain
  obtain ⟨coloured, hc, rfl⟩ := Option.map_eq_some_iff.mp extracted
  have places : ∀ {id : String} {a : Assignment},
      a ∈ (s.draft (s.games.rows.map (placeOf v coloured))).placeOf id ↔
        a ∈ s.games.rows.map (placeOf v coloured) ∧ a.matchId = id :=
    Draft.mem_placeOf (by rw [draft, allows.ids]; exact s.games.unique)
  have different : s.games.rows.Pairwise fun m n => m.id ≠ n.id :=
    List.pairwise_map.mp s.games.unique
  constructor
  · intro lawful none_ prev listed free early a ha e
    exact lawful.frozen prev listed a (places.mpr ⟨ha, e⟩) free early
  · intro kept
    constructor
    case placed => exact fun m hm => ⟨_, List.mem_map_of_mem hm, rfl⟩
    case inside =>
      intro a ha
      obtain ⟨m, hm, rfl⟩ := List.mem_map.mp ha
      have day := h.startsInDay m hm
      have court := mem_courts.mp (allows.courts _ ha)
      exact ⟨m, Table.get_eq_some_iff.mpr ⟨hm, rfl⟩, day.1, day.2.2, court.1, court.2⟩
    case courts =>
      rw [known_draft, List.pairwise_map]
      refine different.imp_of_mem fun {m n} hm hn ne court t inM inN => ?_
      have apart := extracted_apart hc h dragged plain hm hn ne court
      unfold Span.Apart at apart
      unfold Draft.span Span.Holds at inM inN
      unfold Values.span at apart
      simp only [placeOf] at inM inN apart
      omega
    case players =>
      intro strict
      rw [known_draft, List.pairwise_map]
      refine different.imp_of_mem fun {m n} hm hn ne pid inM inN t holdsM holdsN => ?_
      have apart := h.playerNoOverlap strict m hm n hn ne pid inM inN
      unfold Span.Apart at apart
      unfold Draft.span Span.Holds at holdsM holdsN
      unfold Values.span at apart
      simp only [placeOf] at holdsM holdsN apart
      omega
    case available =>
      intro p hp
      rw [known_draft] at hp
      obtain ⟨m, hm, rfl⟩ := List.mem_map.mp hp
      exact allows.available _ (List.mem_map_of_mem hm) m (Table.get_eq_some_iff.mpr ⟨hm, rfl⟩)
    case breaks =>
      intro p hp
      rw [known_draft] at hp
      obtain ⟨m, hm, rfl⟩ := List.mem_map.mp hp
      exact allows.breaks _ (List.mem_map_of_mem hm)
    case closures =>
      intro p hp w hw court
      rw [known_draft] at hp
      obtain ⟨m, hm, rfl⟩ := List.mem_map.mp hp
      have mem := List.mem_map_of_mem (f := placeOf v coloured) hm
      have onCourt := mem_courts.mp (allows.courts _ mem)
      refine allows.closures _ mem w ?_ court
      -- a window the court lies in is one of the scheduler's
      rcases List.mem_append.mp hw with listed | allDay
      · refine List.mem_filter.mpr ⟨List.mem_append_left _ listed, decide_eq_true ?_⟩
        exact ⟨court ▸ onCourt.1, court ▸ onCourt.2, windows w listed⟩
      · obtain ⟨c, hc', rfl⟩ := List.mem_map.mp allDay
        obtain ⟨listed, inside⟩ := List.mem_filter.mp hc'
        have inside := of_decide_eq_true inside
        refine List.mem_filter.mpr ⟨List.mem_append_right _ (List.mem_map.mpr ⟨c, ?_, rfl⟩),
          decide_eq_true inside⟩
        exact List.mem_filter.mpr ⟨listed, decide_eq_true ⟨inside.1, inside.2.1⟩⟩
    case rested =>
      intro pid must
      rw [known_draft, List.pairwise_map]
      refine different.imp_of_mem fun {m n} hm hn ne inM inN => ?_
      have posted := h.restBetweenMatches m hm n hn ne pid inM inN
      have hard : ((s.players.get pid).map Player.restIsHard).getD true ∨
          s.config.softRestEnabled = false := by
        unfold Draft.MustRest draft at must
        dsimp only at must
        cases found : s.players.get pid with
        | none => exact .inl rfl
        | some player =>
          rw [found] at must
          exact .inl must
      dsimp only at posted
      rw [if_pos hard] at posted
      have goesOn : ∀ m : Match, (v.span m).start ≤ (v.span m).stop :=
        fun m => Int.le_add_of_nonneg_right (Int.natCast_nonneg _)
      exact posted.imp (fun first => ⟨first, goesOn n⟩) fun first => ⟨first, goesOn m⟩
    case locked =>
      intro prev listed a ha locked
      obtain ⟨mem, e⟩ := places.mp ha
      exact allows.locked a mem prev listed locked e.symm
    case pinned =>
      intro prev listed a ha free
      obtain ⟨mem, e⟩ := places.mp ha
      exact (yields.moved listed free mem e.symm).1
    case frozen =>
      intro prev listed a ha free early
      obtain ⟨mem, e⟩ := places.mp ha
      by_cases freezes : 0 < s.config.freezeHorizonSlots
      · exact (yields.moved listed free mem e.symm).2 freezes early
      · exact kept (not_lt.mp freezes) prev listed free early a mem e

/-- **The safety net.** Whatever values satisfy the posted constraints, for matches that take some
time and dragged matches that name their court: the courts of the pool can be handed out, the places
read off are allowed, and the validator that checks them reports nothing, unless nothing is frozen
and a hint from before the current slot was moved; that it reports always. -/
theorem solutions_verified (h : s.Satisfies v) (dragged : s.Dragged)
    (plain : s.lockedAssignments = []) (long : ∀ m ∈ s.games.rows, 0 < m.durationSlots)
    (windows : ∀ w ∈ s.config.closedCourtWindows, w.2.1 < w.2.2)
    (least : ∀ pid, 0 ≤ (s.draft []).restOf pid) :
    ∃ as, s.extractSolution v = some as ∧ s.Allows as ∧
      ((s.draft as).findConflicts = [] ↔ s.PastHintsKept as) := by
  obtain ⟨as, extracted⟩ := h.extracts long
  refine ⟨as, extracted, Yields.allows ⟨v, h, extracted⟩ dragged plain, ?_⟩
  exact (Draft.silent_iff_lawful (d := s.draft as) least).trans
    (lawful_draft_iff h dragged plain windows extracted)

/-- The starts of the evening; the courts are the pool's to hand out. -/
def eveningValues : Values where
  start id := if id = "late" then 2 else 0
  court _ := 1

theorem eveningValues_satisfies : Draft.evening.scheduler.Satisfies eveningValues := by
  have stands : Draft.evening.scheduler.StandsAs eveningValues (Draft.eveningDraft 2) := by
    refine ⟨rfl, fun m hm => ?_, fun _ _ _ _ => rfl⟩
    refine ⟨⟨m.id, eveningValues.start m.id, 1, 1⟩, ?_, rfl, rfl⟩
    revert m
    decide +kernel
  have clear : (Draft.eveningDraft 2).Clear := by
    have none_ : (Draft.eveningDraft 2).findConflicts = [] := by decide +kernel
    intro c hc
    rw [none_] at hc
    cases hc
  refine satisfies_of_clear stands clear (by decide) ?_ ?_ ?_ ?_ ?_ ?_ ?_ rfl
  · have listed : ∀ m ∈ Draft.evening.scheduler.games.rows, ∀ pid ∈ m.playerIds,
        ∃ player ∈ Draft.evening.scheduler.players.rows, player.id = pid ∧
          player.restIsHard = true ∧ 0 ≤ player.restSlots := by decide +kernel
    intro m hm pid inM
    obtain ⟨player, row, e, hard, least⟩ := listed m hm pid inM
    exact ⟨player, Table.get_eq_some_iff.mpr ⟨row, e⟩, hard, least⟩
  · intro n hn
    cases hn
  · intro n hn
    cases hn
  · intro t
    exact List.length_filter_le _ _
  · intro prev hp
    cases hp
  · intro _ prev hp
    cases hp
  · intro prev hp
    cases hp

theorem eveningDragged : Draft.evening.scheduler.Dragged := by
  intro prev hp
  cases hp

theorem solutions_verified_evening : ∃ as,
    Draft.evening.scheduler.extractSolution eveningValues = some as ∧
      Draft.evening.scheduler.Allows as ∧
        ((Draft.evening.scheduler.draft as).findConflicts = [] ↔
          Draft.evening.scheduler.PastHintsKept as) :=
  solutions_verified eveningValues_satisfies eveningDragged rfl (by decide) (by decide)
    (Draft.eveningDraft_rests 2)

theorem Yields.pinned (h : s.Yields as) (listed : prev ∈ s.previousAssignments.rows)
    (free : prev.locked = false) {slot court : Int} (slot_ : prev.pinnedSlotId = some slot)
    (court_ : prev.pinnedCourtId = some court) (ha : a ∈ as) (e : prev.matchId = a.matchId) :
    a.slotId = slot ∧ a.courtId = court := by
  obtain ⟨⟨slots, courts⟩, -⟩ := h.moved listed free ha e
  exact ⟨slots slot slot_, courts court court_⟩

end Scheduler

end Engine
