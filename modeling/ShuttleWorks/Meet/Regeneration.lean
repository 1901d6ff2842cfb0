import ShuttleWorks.Meet.Slots

/-! The lineup as a whole: when it comes back, the slots its matches fill, the posted matches it
keeps, and what a second generation from its own matches gives. -/

namespace Meet
open Lib

/-- Every held rank of a configured division. -/
def heldKeys (rankCounts : List (String × Int)) (players : List PlayerDTO) : List RankKey :=
  (rankCounts.flatMap fun entry => (players.flatMap PlayerDTO.ranks).filterMap fun raw =>
    ((rankNumber entry.1 entry.2 raw).toOption.join).map (entry.1, ·)).dedup

theorem mem_heldKeys {rankCounts : List (String × Int)} {players : List PlayerDTO}
    {key : RankKey} : key ∈ heldKeys rankCounts players ↔
      ∃ entry ∈ rankCounts, entry.1 = key.1 ∧ ∃ player ∈ players, Holds entry key.2 player := by
  have number : ∀ entry : String × Int, ∀ raw n,
      (rankNumber entry.1 entry.2 raw).toOption.join = some n ↔ Names entry raw n := by
    intro entry raw n
    rw [← rankNumber_eq_some_iff, Option.join_eq_some_iff, toOption_eq_some]
  simp only [heldKeys, List.mem_dedup, List.mem_flatMap, List.mem_filterMap,
    Option.map_eq_some_iff, number, holds_iff]
  constructor
  · rintro ⟨entry, listed, raw, ⟨player, mem, holds⟩, n, names, rfl⟩
    exact ⟨entry, listed, rfl, player, mem, raw, holds, names⟩
  · rintro ⟨entry, listed, same, player, mem, raw, holds, names⟩
    exact ⟨entry, listed, raw, ⟨player, mem, holds⟩, key.2, names, Prod.ext same rfl⟩

def slotKeys (state : TournamentStateDTO) (keys : List RankKey) : List String :=
  (filledSlots state keys).map fun entry => slotKey (groupByPlayer state.players) entry.2

def unslotted (state : TournamentStateDTO) (keys : List RankKey) : List MatchDTO :=
  state.matchList.filter fun m => slotKey (groupByPlayer state.players) m ∉ slotKeys state keys

/-- Neither list of the lineup passes its cap. -/
def WithinLimits (config : TournamentConfig) (state : TournamentStateDTO) : Prop :=
  let keys := heldKeys config.rankCounts state.players
  (incompleteLines state keys).length ≤ MAX_MATCHES ∧
    (filledSlots state keys).length + (unslotted state keys).length ≤ MAX_MATCHES

instance (config : TournamentConfig) (state : TournamentStateDTO) :
    Decidable (WithinLimits config state) := inferInstanceAs (Decidable (_ ∧ _))

def generatedFor (fresh : Nat → String) (state : TournamentStateDTO) (keys : List RankKey) :
    List MatchDTO :=
  numberFrom (stampId fresh) 0 ((filledSlots state keys).map Prod.snd)

theorem slotKey_generatedFor (fresh : Nat → String) (state : TournamentStateDTO)
    (keys : List RankKey) : (generatedFor fresh state keys).map
      (slotKey (groupByPlayer state.players)) = slotKeys state keys := by
  have unstamped : ∀ k m, slotKey (groupByPlayer state.players) (stampId fresh k m) =
      slotKey (groupByPlayer state.players) m := fun _ _ => rfl
  rw [generatedFor, map_numberFrom unstamped, List.map_map]
  rfl

section
variable {config : TournamentConfig} {state : TournamentStateDTO} {keys : List RankKey}
  {index : RankIndex}

theorem perm_heldKeys
    (found : occupiedRanks config.rankCounts state.players = .ok (keys, index)) :
    keys.Perm (heldKeys config.rankCounts state.players) := by
  obtain ⟨nodup, mem, -⟩ := occupiedRanks_spec config.distinct found
  apply (List.perm_ext_iff_of_nodup nodup (List.nodup_dedup _)).mpr
  intro key
  rw [mem]
  exact mem_heldKeys.symm

theorem withinLimits_iff
    (found : occupiedRanks config.rankCounts state.players = .ok (keys, index)) :
    WithinLimits config state ↔ (incompleteLines state keys).length ≤ MAX_MATCHES ∧
      (filledSlots state keys).length + (unslotted state keys).length ≤ MAX_MATCHES := by
  have perm := perm_heldKeys found
  have filled : (filledSlots state keys).Perm
      (filledSlots state (heldKeys config.rankCounts state.players)) := perm.flatMap_right _
  have lines : (incompleteLines state keys).Perm
      (incompleteLines state (heldKeys config.rankCounts state.players)) := perm.flatMap_right _
  have same : ∀ text, text ∈ slotKeys state keys ↔
      text ∈ slotKeys state (heldKeys config.rankCounts state.players) :=
    fun text => (filled.map _).mem_iff
  have kept : unslotted state keys =
      unslotted state (heldKeys config.rankCounts state.players) := by
    simp only [unslotted, same]
  rw [kept, lines.length_eq, filled.length_eq]
  rfl

theorem buildLineup_of_found (configured : state.config = some config)
    (found : occupiedRanks config.rankCounts state.players = .ok (keys, index))
    (fresh : Nat → String) :
    (WithinLimits config state → buildLineup fresh state =
      .ok ⟨generatedFor fresh state keys ++ unslotted state keys, incompleteLines state keys⟩) ∧
    (¬ WithinLimits config state → ∃ e, IsCapacity e ∧ buildLineup fresh state = .error e) := by
  obtain ⟨-, -, sides⟩ := occupiedRanks_spec config.distinct found
  have kept : keptCustom (groupByPlayer state.players) (generatedFor fresh state keys)
      state.matchList = unslotted state keys := by
    simp only [keptCustom, slotKey_generatedFor, unslotted]
  have count : (generatedFor fresh state keys).length = (filledSlots state keys).length := by
    simp [generatedFor]
  obtain ⟨fits, full⟩ := fillRanks_puts fresh sides ⟨[], []⟩ ⟨Nat.zero_le _, Nat.zero_le _⟩
  have put : (Filled.put (stampId fresh) (⟨[], []⟩ : Output) ((filledSlots state keys).map Prod.snd)
      (incompleteLines state keys)) =
        ⟨generatedFor fresh state keys, incompleteLines state keys⟩ := rfl
  rw [put] at fits full
  simp only [Filled.Within, count] at fits full
  rw [withinLimits_iff found]
  simp only [buildLineup, configured, found, ok_bind]
  by_cases lists : (filledSlots state keys).length ≤ MAX_MATCHES ∧
      (incompleteLines state keys).length ≤ MAX_MATCHES
  · simp only [fits lists, ok_bind, kept, count]
    constructor
    · intro limits
      rw [if_neg (by omega)]
    · intro exceeded
      exact ⟨_, ⟨_, rfl⟩, if_pos (by omega)⟩
  · obtain ⟨e, capacity, failed⟩ := full lists
    constructor
    · intro limits
      exact absurd ⟨by omega, limits.1⟩ lists
    · intro _
      exact ⟨e, capacity, by simp only [failed]; rfl⟩

end

/-! ## The slots that get a match -/

def Ranked (config : TournamentConfig) (rank : String) : Prop :=
  ∃ entry ∈ config.rankCounts, ∃ n, Names entry rank n

/-- No two divisions have the rank among their numbers. -/
def OneDivision (config : TournamentConfig) (rank : String) : Prop :=
  ∀ entry ∈ config.rankCounts, ∀ entry' ∈ config.rankCounts, ∀ n n',
    Names entry rank n → Names entry' rank n' → entry = entry'

/-- The match is, but for its id, the one of this slot, and both groups can field it. -/
def Fills (state : TournamentStateDTO) (slot : Slot) (m : MatchDTO) : Prop :=
  ∃ groupA groupB, state.groups[slot.first]? = some groupA ∧
    state.groups[slot.second]? = some groupB ∧ slot.first < slot.second ∧
    CanField state slot.rank groupA ∧ CanField state slot.rank groupB ∧
    m = { slotMatch state slot.rank groupA groupB with id := m.id }

/-- The matches of a lineup: each generated one fills a slot of a configured rank, a slot whose
rank one division has is filled once when both groups can field it and no kept match has its key
and else not at all, and the posted matches are kept that have the key of no generated one. -/
structure Lineup (config : TournamentConfig) (state : TournamentStateDTO) (slots : List Slot)
    (generated kept : List MatchDTO) : Prop where
  filled : List.Forall₂ (Fills state) slots generated
  ranked : ∀ slot ∈ slots, Ranked config slot.rank
  once : ∀ slot groupA groupB, state.groups[slot.first]? = some groupA →
    state.groups[slot.second]? = some groupB → slot.first < slot.second →
    OneDivision config slot.rank → slots.count slot ≤ 1 ∧
      (slots.count slot = 1 ↔ Ranked config slot.rank ∧ CanField state slot.rank groupA ∧
        CanField state slot.rank groupB ∧ ∀ m ∈ kept, slotKey (groupByPlayer state.players) m ≠
          slotKey (groupByPlayer state.players) (slotMatch state slot.rank groupA groupB))
  kept_eq : kept = state.matchList.filter fun m =>
    slotKey (groupByPlayer state.players) m ∉
      generated.map (slotKey (groupByPlayer state.players))

theorem forall₂_fills {state : TournamentStateDTO} (fresh : Nat → String)
    {entries : List (Slot × MatchDTO)} (k : Nat)
    (h : ∀ entry ∈ entries, ∀ k, Fills state entry.1 (stampId fresh k entry.2)) :
    List.Forall₂ (Fills state) (entries.map Prod.fst)
      (numberFrom (stampId fresh) k (entries.map Prod.snd)) := by
  induction entries generalizing k with
  | nil => exact .nil
  | cons entry entries ih =>
    simp only [numberFrom, List.map_cons, List.zipIdx_cons]
    apply List.Forall₂.cons (h entry List.mem_cons_self k)
    exact ih (k + 1) fun entry' mem => h entry' (List.mem_cons_of_mem _ mem)

section
variable {config : TournamentConfig} {state : TournamentStateDTO} {keys : List RankKey}
  {index : RankIndex}

theorem names_of_found
    (found : occupiedRanks config.rankCounts state.players = .ok (keys, index)) {key : RankKey}
    (mem : key ∈ keys) : ∃ entry ∈ config.rankCounts, entry.1 = key.1 ∧
      Names entry (rankText key) key.2 := by
  obtain ⟨-, held, -⟩ := occupiedRanks_spec config.distinct found
  obtain ⟨entry, listed, same, player, -, names, -⟩ := (held key).mp mem
  obtain ⟨division, n⟩ := key
  obtain rfl : entry.1 = division := same
  exact ⟨entry, listed, rfl, names⟩

theorem key_unique (found : occupiedRanks config.rankCounts state.players = .ok (keys, index))
    {rank : String} (one : OneDivision config rank) {key key' : RankKey} (mem : key ∈ keys)
    (mem' : key' ∈ keys) (same : rankText key = rank) (same' : rankText key' = rank) :
    key = key' := by
  obtain ⟨entry, listed, division, names⟩ := names_of_found found mem
  obtain ⟨entry', listed', division', names'⟩ := names_of_found found mem'
  rw [same] at names
  rw [same'] at names'
  obtain rfl := one entry listed entry' listed' _ _ names names'
  exact Prod.ext (division.symm.trans division') (names.unique names')

theorem found_of_canField
    (found : occupiedRanks config.rankCounts state.players = .ok (keys, index)) {rank : String}
    (ranked : Ranked config rank) {group : RosterGroupDTO} (field : CanField state rank group) :
    ∃ key ∈ keys, rankText key = rank := by
  obtain ⟨-, held, -⟩ := occupiedRanks_spec config.distinct found
  obtain ⟨entry, listed, n, names⟩ := ranked
  have some_holder : holders state rank group ≠ [] := by
    intro none
    rw [CanField, none, needed] at field
    split at field <;> simp at field
  obtain ⟨player, mem⟩ := List.exists_mem_of_ne_nil _ some_holder
  simp only [holders, List.mem_filter, decide_eq_true_eq] at mem
  refine ⟨(entry.1, n), (held _).mpr ⟨entry, listed, rfl, player, mem.1, ?_⟩, names.1.symm⟩
  exact holds_iff.mpr ⟨rank, mem.2.1, names⟩

theorem lineup_of_found (found : occupiedRanks config.rankCounts state.players = .ok (keys, index))
    (fresh : Nat → String) : Lineup config state ((filledSlots state keys).map Prod.fst)
      (generatedFor fresh state keys) (unslotted state keys) where
  filled := by
    apply forall₂_fills
    intro entry mem k
    obtain ⟨key, -, -, groupA, groupB, first, second, lt, fieldA, fieldB, m⟩ :=
      mem_filledSlots.mp mem
    exact ⟨groupA, groupB, first, second, lt, fieldA, fieldB, by rw [m]; rfl⟩
  ranked := by
    intro slot hslot
    obtain ⟨entry, mem, rfl⟩ := List.mem_map.mp hslot
    obtain ⟨key, hkey, same, -⟩ := mem_filledSlots.mp mem
    obtain ⟨division, listed, -, names⟩ := names_of_found found hkey
    rw [same] at names
    exact ⟨division, listed, _, names⟩
  once := by
    intro slot groupA groupB first second lt one
    obtain ⟨nodup, -, -⟩ := occupiedRanks_spec config.distinct found
    have nodup_rank : (((filledSlots state keys).map Prod.fst).filter
        (·.rank = slot.rank)).Nodup := nodup_slots_of_rank nodup
      fun key mem key' mem' => key_unique found one mem mem'
    have counted := List.count_filter (p := fun s : Slot => s.rank = slot.rank)
      (l := (filledSlots state keys).map Prod.fst) (a := slot) (by simp)
    rw [← counted]
    have upper := List.nodup_iff_count_le_one.mp nodup_rank slot
    refine ⟨upper, ?_⟩
    have one_iff : ∀ {l : List Slot}, l.count slot ≤ 1 → (l.count slot = 1 ↔ slot ∈ l) := by
      intro l le
      rw [← List.count_pos_iff]
      omega
    rw [one_iff upper, List.mem_filter, List.mem_map]
    constructor
    · rintro ⟨⟨entry, mem, rfl⟩, -⟩
      obtain ⟨key, hkey, same, groupA', groupB', first', second', -, fieldA, fieldB, m⟩ :=
        mem_filledSlots.mp mem
      obtain rfl := Option.some.inj (first.symm.trans first')
      obtain rfl := Option.some.inj (second.symm.trans second')
      obtain ⟨division, listed, -, names⟩ := names_of_found found hkey
      rw [same] at names
      refine ⟨⟨division, listed, _, names⟩, fieldA, fieldB, fun m' kept clash => ?_⟩
      refine of_decide_eq_true (List.mem_filter.mp kept).2 (List.mem_map.mpr ⟨entry, mem, ?_⟩)
      rw [clash, m]
    · rintro ⟨ranked, fieldA, fieldB, -⟩
      obtain ⟨key, hkey, same⟩ := found_of_canField found ranked fieldA
      refine ⟨⟨(slot, slotMatch state slot.rank groupA groupB), mem_filledSlots.mpr ?_, rfl⟩, by simp⟩
      exact ⟨key, hkey, same, groupA, groupB, first, second, lt, fieldA, fieldB, rfl⟩
  kept_eq := by
    rw [slotKey_generatedFor]
    rfl

theorem rebuild_of_found (configured : state.config = some config)
    (found : occupiedRanks config.rankCounts state.players = .ok (keys, index))
    (limits : WithinLimits config state) (fresh fresh' : Nat → String) :
    buildLineup fresh' { state with
        matchList := generatedFor fresh state keys ++ unslotted state keys } =
      .ok ⟨generatedFor fresh' state keys ++ unslotted state keys, incompleteLines state keys⟩ := by
  have kept : unslotted { state with
      matchList := generatedFor fresh state keys ++ unslotted state keys } keys =
        unslotted state keys := by
    have replaced : ∀ m ∈ generatedFor fresh state keys,
        ¬ (slotKey (groupByPlayer state.players) m ∉ slotKeys state keys) := by
      intro m mem
      rw [← slotKey_generatedFor fresh]
      exact not_not.mpr (List.mem_map_of_mem mem)
    have old : (generatedFor fresh state keys).filter (fun m =>
        slotKey (groupByPlayer state.players) m ∉ slotKeys state keys) = [] := by
      apply List.filter_eq_nil_iff.mpr
      intro m mem
      simpa using replaced m mem
    have again : (unslotted state keys).filter (fun m =>
        slotKey (groupByPlayer state.players) m ∉ slotKeys state keys) = unslotted state keys := by
      rw [unslotted, List.filter_filter]
      simp
    calc unslotted { state with
          matchList := generatedFor fresh state keys ++ unslotted state keys } keys
      _ = (generatedFor fresh state keys ++ unslotted state keys).filter (fun m =>
          slotKey (groupByPlayer state.players) m ∉ slotKeys state keys) := rfl
      _ = unslotted state keys := by rw [List.filter_append, old, again, List.nil_append]
  have rebuilt := (@buildLineup_of_found config { state with
    matchList := generatedFor fresh state keys ++ unslotted state keys } keys index configured found
    fresh').1
  rw [@withinLimits_iff config { state with
    matchList := generatedFor fresh state keys ++ unslotted state keys } keys index found,
    kept] at rebuilt
  exact rebuilt ((withinLimits_iff found).mp limits)

end

def withoutId (m : MatchDTO) : MatchDTO := { m with id := "" }

theorem withoutId_generatedFor (fresh : Nat → String) (state : TournamentStateDTO)
    (keys : List RankKey) : (generatedFor fresh state keys).map withoutId =
      (filledSlots state keys).map fun entry => withoutId entry.2 := by
  have unstamped : ∀ k m, withoutId (stampId fresh k m) = withoutId m := fun _ _ => rfl
  rw [generatedFor, map_numberFrom unstamped, List.map_map]
  rfl

/-- Without a configuration nothing is generated. With one, and with legible rosters, the lineup
comes back unless a list would pass its cap. What comes back is a lineup of the state, and building
it again from its own matches gives the same lineup but for the ids of the generated matches. -/
theorem lineup_fills_slots (fresh : Nat → String) (state : TournamentStateDTO) :
    (state.config = none → buildLineup fresh state = .ok {}) ∧
    ∀ config, state.config = some config →
      (Legible config.rankCounts state.players →
        (WithinLimits config state → ∃ out, buildLineup fresh state = .ok out) ∧
        (¬ WithinLimits config state →
          ∃ output, buildLineup fresh state = .error (.capacity output))) ∧
      ∀ out, buildLineup fresh state = .ok out → ∃ slots generated kept,
        out.matchList = generated ++ kept ∧ Lineup config state slots generated kept ∧
        ∀ fresh', ∃ generated',
          buildLineup fresh' { state with matchList := out.matchList } =
            .ok ⟨generated' ++ kept, out.incompletePairs⟩ ∧
          generated'.map withoutId = generated.map withoutId := by
  refine ⟨fun none => by rw [buildLineup, none], fun config configured => ⟨?_, ?_⟩⟩
  · intro legible
    obtain ⟨⟨keys, index⟩, found⟩ := exists_ok_occupiedRanks legible
    obtain ⟨fits, full⟩ := buildLineup_of_found configured found fresh
    refine ⟨fun limits => ⟨_, fits limits⟩, fun exceeded => ?_⟩
    obtain ⟨e, ⟨output, rfl⟩, failed⟩ := full exceeded
    exact ⟨output, failed⟩
  · intro out built
    cases found : occupiedRanks config.rankCounts state.players with
    | error e =>
      simp only [buildLineup, configured, found] at built
      cases built
    | ok result =>
      obtain ⟨keys, index⟩ := result
      obtain ⟨fits, full⟩ := buildLineup_of_found configured found fresh
      have limits : WithinLimits config state := by
        by_contra exceeded
        obtain ⟨e, -, failed⟩ := full exceeded
        rw [failed] at built
        cases built
      obtain rfl := Except.ok.inj ((fits limits).symm.trans built)
      refine ⟨_, _, _, rfl, lineup_of_found found fresh, fun fresh' => ?_⟩
      refine ⟨_, rebuild_of_found configured found limits fresh fresh', ?_⟩
      rw [withoutId_generatedFor, withoutId_generatedFor]

/-- Two schools with one player each at first men's singles. -/
def dual (rankCounts : List (String × Int)) (distinct : (rankCounts.map Prod.fst).Nodup)
    (rank : String) (posted : List MatchDTO) : TournamentStateDTO where
  config := some ⟨rankCounts, distinct⟩
  groups := [⟨"kingsway", "Kingsway"⟩, ⟨"riverside", "Riverside"⟩]
  players := [⟨"ann", "kingsway", [rank]⟩, ⟨"ben", "riverside", [rank]⟩]
  matchList := posted

/-- A kept match, and the match of the slot generated anew. -/
theorem lineup_fills_slots_dual :
    ∃ out, buildLineup toString
        (dual [("MS", 3)] (by decide) "MS1" [{ id := "warm-up" }]) = .ok out ∧
      ∃ slots generated kept, out.matchList = generated ++ kept ∧
        Lineup ⟨[("MS", 3)], by decide⟩
          (dual [("MS", 3)] (by decide) "MS1" [{ id := "warm-up" }]) slots generated kept := by
  have built : buildLineup toString (dual [("MS", 3)] (by decide) "MS1" [{ id := "warm-up" }]) =
      .ok ⟨[⟨"0", none, ["ann"], ["ben"], none, "dual", some "MS1", 1, none, none⟩,
        { id := "warm-up" }], []⟩ := by decide +kernel
  obtain ⟨slots, generated, kept, same, lineup, -⟩ :=
    ((lineup_fills_slots toString _).2 _ rfl).2 _ built
  exact ⟨_, built, slots, generated, kept, same, lineup⟩

/-- Where two divisions have one rank text its slot is filled twice; a superscript after a
division ends the build; and a full list of posted matches leaves no place for a generated one. -/
theorem lineup_not_total :
    (∃ m, buildLineup (fun _ => "new") (dual [("MS", 11), ("MS1", 1)] (by decide) "MS11" []) =
      .ok ⟨[m, m], []⟩ ∧ m.eventRank = some "MS11" ∧ m.sideA = ["ann"] ∧ m.sideB = ["ben"]) ∧
    buildLineup toString (dual [("MS", 3)] (by decide) "MS²" []) =
      .error (.invalidLiteral "²") ∧
    buildLineup toString
      (dual [("MS", 3)] (by decide) "MS1" (List.replicate 5000 { id := "warm-up" })) =
        .error (.capacity "match") := by
  refine ⟨⟨⟨"new", none, ["ann"], ["ben"], none, "dual", some "MS11", 1, none, none⟩, ?_⟩, ?_, ?_⟩
  · decide +kernel
  · decide +kernel
  · decide +kernel

end Meet
