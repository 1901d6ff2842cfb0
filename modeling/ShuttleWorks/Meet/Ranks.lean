import ShuttleWorks.Meet.Lineup

/-! What the scan of the rosters finds: the ranks that are held, each once, and for each rank and
group its holders in roster order. -/

namespace Meet
open Lib

/-- The division names this rank as its number `n`. -/
def Names (entry : String × Int) (rank : String) (n : Nat) : Prop :=
  rank = rankText (entry.1, n) ∧ 1 ≤ n ∧ (n : Int) ≤ entry.2

/-- A rank text goes on after the division with digits that `int` refuses. -/
def Illegible (division rawRank : String) : Prop :=
  ∃ suffix, rawRank.toList = division.toList ++ suffix ∧ isdigit suffix ∧
    ∃ c ∈ suffix, ¬ isDecimal c

theorem toList_rankText (key : RankKey) :
    (rankText key).toList = key.1.toList ++ Nat.toDigits 10 key.2 := by
  rw [rankText, String.toList_append, toList_toString]

variable {raw : String} {n : Nat} {scan scan' : Scan} {acc acc' : List Nat × RankIndex}
  {rankCounts : List (String × Int)}

theorem rankNumber_eq_some_iff {entry : String × Int} :
    rankNumber entry.1 entry.2 raw = .ok (some n) ↔ Names entry raw n := by
  unfold rankNumber Names
  constructor
  · intro h
    split at h
    · cases h
    · next starts =>
      simp only [Decidable.not_not, List.isPrefixOf_iff_prefix] at starts
      obtain ⟨suffix, raw_eq⟩ := starts
      simp only [← raw_eq, List.drop_left] at h
      split at h
      · cases h
      · split at h
        · cases h
        · next number read =>
          split at h
          · cases h
          · next written =>
            split at h
            · next range =>
              cases h
              refine ⟨?_, range⟩
              rw [← String.toList_inj, toList_rankText, ← raw_eq, ← toList_toString]
              rw [Decidable.not_not.mp written]
            · cases h
  · rintro ⟨rfl, range⟩
    have starts : entry.1.toList.isPrefixOf (rankText (entry.1, n)).toList := by
      rw [toList_rankText, List.isPrefixOf_iff_prefix]
      exact List.prefix_append _ _
    have suffix : (rankText (entry.1, n)).toList.drop entry.1.toList.length
        = Nat.toDigits 10 n := by
      rw [toList_rankText, List.drop_left]
    simp [starts, suffix, isdigit_toDigits, int_toDigits, range]

theorem rankNumber_eq_error_iff {entry : String × Int} :
    (∃ e, rankNumber entry.1 entry.2 raw = .error e) ↔ Illegible entry.1 raw := by
  unfold rankNumber Illegible
  constructor
  · rintro ⟨e, h⟩
    split at h
    · cases h
    · next starts =>
      simp only [Decidable.not_not, List.isPrefixOf_iff_prefix] at starts
      obtain ⟨suffix, raw_eq⟩ := starts
      simp only [← raw_eq, List.drop_left] at h
      split at h
      · cases h
      · next digits =>
        split at h
        · next unread =>
          refine ⟨suffix, raw_eq.symm, Decidable.not_not.mp digits, ?_⟩
          have := int_isSome_iff.not.mp (by rw [unread]; simp)
          push Not at this
          exact this
        · split at h
          · cases h
          · split at h <;> cases h
  · rintro ⟨suffix, raw_eq, digits, c, hc, other⟩
    have starts : entry.1.toList.isPrefixOf raw.toList := by
      rw [raw_eq, List.isPrefixOf_iff_prefix]
      exact List.prefix_append _ _
    have unread : int suffix = none := by
      apply Option.not_isSome_iff_eq_none.mp
      intro some
      exact other (int_isSome_iff.mp some c hc)
    rw [if_neg (not_not.mpr starts), raw_eq, List.drop_left]
    simp [digits, unread]

theorem Names.unique {entry : String × Int} {rank : String} {m : Nat} (h : Names entry rank n)
    (h' : Names entry rank m) : n = m := by
  have same := congrArg String.toList (h.1.symm.trans h'.1)
  rw [toList_rankText, toList_rankText] at same
  apply toString_injective
  rw [← String.toList_inj, toList_toString, toList_toString]
  exact List.append_cancel_left same

/-! ## The holders -/

/-- A player holds the rank a division numbers `n`. -/
def Holds (entry : String × Int) (n : Nat) (player : PlayerDTO) : Prop :=
  Names entry (rankText (entry.1, n)) n ∧ rankText (entry.1, n) ∈ player.ranks

instance (entry : String × Int) (rank : String) (n : Nat) : Decidable (Names entry rank n) :=
  inferInstanceAs (Decidable (_ ∧ _))

instance (entry : String × Int) (n : Nat) (player : PlayerDTO) :
    Decidable (Holds entry n player) := inferInstanceAs (Decidable (_ ∧ _))

theorem holds_iff {entry : String × Int} {player : PlayerDTO} :
    Holds entry n player ↔ ∃ raw ∈ player.ranks, Names entry raw n := by
  constructor
  · rintro ⟨names, mem⟩
    exact ⟨_, mem, names⟩
  · rintro ⟨raw, mem, names⟩
    obtain ⟨rfl, range⟩ := names
    exact ⟨⟨rfl, range⟩, mem⟩

def holdersAt (index : RankIndex) (key : RankKey) (group : String) : List PlayerDTO :=
  (Assoc.get group ((Assoc.get key index).getD [])).getD []

theorem holdersAt_addHolder (index : RankIndex) (key key' : RankKey) (player : PlayerDTO)
    (group : String) : holdersAt (addHolder index key player) key' group =
      holdersAt index key' group ++ if key' = key ∧ player.groupId = group then [player] else [] := by
  unfold holdersAt addHolder
  by_cases same : key' = key
  · subst same
    by_cases own : player.groupId = group
    · subst own
      simp
    · simp [Assoc.get_set_of_ne own, own]
  · simp [Assoc.get_set_of_ne (Ne.symm same), same]

/-! ## The scan -/

/-- What a rank seen for the first time adds. -/
def Scan.mark (division : String) (player : PlayerDTO) (scan : Scan) (n : Nat) : Scan where
  seenKeys := (division, n) :: scan.seenKeys
  occupiedNumbers := scan.occupiedNumbers.insert n
  byRankGroup := addHolder scan.byRankGroup (division, n) player

theorem scanRank_cases {entry : String × Int} {player : PlayerDTO}
    (h : scanRank entry.1 entry.2 player scan raw = .ok scan') :
    (∃ n, Names entry raw n ∧ (entry.1, n) ∉ scan.seenKeys ∧
      scan' = scan.mark entry.1 player n) ∨
    (scan' = scan ∧ ∀ n, Names entry raw n → (entry.1, n) ∈ scan.seenKeys) := by
  rw [scanRank, bind_eq_ok] at h
  obtain ⟨number, read, h⟩ := h
  cases number with
  | none =>
    cases h
    refine .inr ⟨rfl, fun n names => ?_⟩
    rw [rankNumber_eq_some_iff.mpr names] at read
    cases read
  | some number =>
    have names := rankNumber_eq_some_iff.mp read
    simp only at h
    split at h
    · next seen =>
      cases h
      refine .inr ⟨rfl, fun n names' => ?_⟩
      rwa [← names.unique names']
    · next unseen =>
      cases h
      exact .inl ⟨number, names, unseen, rfl⟩

theorem scanRanks_spec {entry : String × Int} {player : PlayerDTO} {ranks : List String}
    (h : ranks.foldlM (scanRank entry.1 entry.2 player) scan = .ok scan') :
    (scan.occupiedNumbers.Nodup → scan'.occupiedNumbers.Nodup) ∧
    (∀ n, n ∈ scan'.occupiedNumbers ↔ n ∈ scan.occupiedNumbers ∨
      ((entry.1, n) ∉ scan.seenKeys ∧ ∃ raw ∈ ranks, Names entry raw n)) ∧
    (∀ key group, holdersAt scan'.byRankGroup key group = holdersAt scan.byRankGroup key group ++
      if (key.1 = entry.1 ∧ key ∉ scan.seenKeys ∧ ∃ raw ∈ ranks, Names entry raw key.2) ∧
        player.groupId = group then [player] else []) := by
  induction ranks generalizing scan with
  | nil =>
    cases h
    simp
  | cons raw ranks ih =>
    rw [List.foldlM_cons, bind_eq_ok] at h
    obtain ⟨next, first, rest⟩ := h
    obtain ⟨nodup, numbers, holders⟩ := ih rest
    rcases scanRank_cases first with ⟨n, names, unseen, rfl⟩ | ⟨rfl, seen⟩
    · refine ⟨fun start => nodup start.insert, fun m => ?_, fun key group => ?_⟩
      · rw [numbers]
        simp only [Scan.mark, List.mem_insert_iff, List.mem_cons, Prod.mk.injEq, true_and,
          not_or]
        by_cases same : m = n
        · subst same
          simp [unseen, names]
        · have other : ¬ Names entry raw m := fun names' => same (names'.unique names)
          simp [same, other]
      · rw [holders]
        simp only [Scan.mark, holdersAt_addHolder, List.mem_cons, List.append_assoc, not_or]
        obtain ⟨division, m⟩ := key
        by_cases same : division = entry.1
        · subst same
          by_cases number : m = n
          · subst number
            simp [unseen, names]
          · have other : ¬ Names entry raw m := fun names' => number (names'.unique names)
            simp [number, other]
        · simp [same]
    · refine ⟨nodup, fun m => ?_, fun key group => ?_⟩
      · rw [numbers, List.exists_mem_cons_iff]
        by_cases names : Names entry raw m
        · simp [seen m names]
        · simp [names]
      · rw [holders]
        simp only [List.exists_mem_cons_iff]
        obtain ⟨division, m⟩ := key
        by_cases same : division = entry.1
        · subst same
          by_cases names : Names entry raw m
          · simp [seen m names]
          · simp [names]
        · simp [same]

theorem scanPlayer_spec {entry : String × Int} {player : PlayerDTO}
    (h : scanPlayer entry.1 entry.2 acc player = .ok acc') :
    (acc.1.Nodup → acc'.1.Nodup) ∧
    (∀ n, n ∈ acc'.1 ↔ n ∈ acc.1 ∨ Holds entry n player) ∧
    (∀ key group, holdersAt acc'.2 key group = holdersAt acc.2 key group ++
      if (key.1 = entry.1 ∧ Holds entry key.2 player) ∧ player.groupId = group
        then [player] else []) := by
  rw [scanPlayer, bind_eq_ok] at h
  obtain ⟨scan, run, h⟩ := h
  cases h
  obtain ⟨nodup, numbers, holders⟩ := scanRanks_spec run
  refine ⟨nodup, fun n => ?_, fun key group => ?_⟩
  · simpa [holds_iff] using numbers n
  · simpa [holds_iff] using holders key group

theorem scanPlayers_spec {entry : String × Int} {players : List PlayerDTO}
    (h : players.foldlM (scanPlayer entry.1 entry.2) acc = .ok acc') :
    (acc.1.Nodup → acc'.1.Nodup) ∧
    (∀ n, n ∈ acc'.1 ↔ n ∈ acc.1 ∨ ∃ player ∈ players, Holds entry n player) ∧
    (∀ key group, holdersAt acc'.2 key group = holdersAt acc.2 key group ++
      players.filter fun player =>
        (key.1 = entry.1 ∧ Holds entry key.2 player) ∧ player.groupId = group) := by
  induction players generalizing acc with
  | nil =>
    cases h
    simp
  | cons player players ih =>
    rw [List.foldlM_cons, bind_eq_ok] at h
    obtain ⟨next, first, rest⟩ := h
    obtain ⟨nodup, numbers, holders⟩ := scanPlayer_spec first
    obtain ⟨nodup', numbers', holders'⟩ := ih rest
    refine ⟨nodup' ∘ nodup, fun n => ?_, fun key group => ?_⟩
    · rw [numbers', numbers, List.exists_mem_cons_iff, or_assoc]
    · rw [holders', holders, List.filter_cons, List.append_assoc]
      split <;> simp_all

theorem scanDivision_spec {players : List PlayerDTO} {acc acc' : List RankKey × RankIndex}
    {entry : String × Int} (h : scanDivision players acc entry = .ok acc') :
    (∃ numbers : List Nat, acc'.1 = acc.1 ++ numbers.map (entry.1, ·) ∧ numbers.Nodup ∧
      ∀ n, n ∈ numbers ↔ ∃ player ∈ players, Holds entry n player) ∧
    (∀ key group, holdersAt acc'.2 key group = holdersAt acc.2 key group ++
      players.filter fun player =>
        (key.1 = entry.1 ∧ Holds entry key.2 player) ∧ player.groupId = group) := by
  rw [scanDivision] at h
  split at h
  · next empty =>
    cases h
    have none : ∀ n player, ¬ Holds entry n player := by
      intro n player holds
      have range := holds.1.2
      omega
    refine ⟨⟨[], by simp, List.nodup_nil, fun n => by simp [none]⟩, fun key group => ?_⟩
    simp [none]
  · rw [bind_eq_ok] at h
    obtain ⟨⟨numbers, index⟩, run, h⟩ := h
    cases h
    obtain ⟨nodup, held, holders⟩ := scanPlayers_spec run
    have sorted := List.perm_insertionSort (· ≤ ·) numbers
    refine ⟨⟨_, rfl, sorted.nodup_iff.mpr (nodup List.nodup_nil), fun n => ?_⟩, holders⟩
    rw [sorted.mem_iff, held]
    simp

/-- The divisions one after the other: the keys they add are new, and no other division touches
the holders of a rank. -/
theorem scanDivisions_spec {players : List PlayerDTO} {acc acc' : List RankKey × RankIndex}
    (distinct : (rankCounts.map Prod.fst).Nodup)
    (h : rankCounts.foldlM (scanDivision players) acc = .ok acc') :
    (acc.1.Nodup → (∀ key ∈ acc.1, key.1 ∉ rankCounts.map Prod.fst) → acc'.1.Nodup) ∧
    (∀ key, key ∈ acc'.1 ↔ key ∈ acc.1 ∨ ∃ entry ∈ rankCounts, entry.1 = key.1 ∧
      ∃ player ∈ players, Holds entry key.2 player) ∧
    (∀ key group, key.1 ∉ rankCounts.map Prod.fst →
      holdersAt acc'.2 key group = holdersAt acc.2 key group) ∧
    (∀ entry ∈ rankCounts, ∀ n group, holdersAt acc'.2 (entry.1, n) group =
      holdersAt acc.2 (entry.1, n) group ++
        players.filter fun player => Holds entry n player ∧ player.groupId = group) := by
  induction rankCounts generalizing acc with
  | nil =>
    cases h
    simp
  | cons entry rankCounts ih =>
    rw [List.foldlM_cons, bind_eq_ok] at h
    obtain ⟨next, first, rest⟩ := h
    rw [List.map_cons, List.nodup_cons] at distinct
    obtain ⟨⟨numbers, keys, nodup, held⟩, holders⟩ := scanDivision_spec first
    obtain ⟨nodup', keys', frame, holders'⟩ := ih distinct.2 rest
    refine ⟨fun start fresh => ?_, fun key => ?_, fun key group other => ?_, ?_⟩
    · apply nodup'
      · rw [keys]
        apply List.Nodup.append start (nodup.map fun a b e => (Prod.mk.inj e).2)
        intro key old new
        obtain ⟨n, -, rfl⟩ := List.mem_map.mp new
        exact fresh _ old (by simp)
      · intro key mem
        rw [keys, List.mem_append, List.mem_map] at mem
        rcases mem with old | ⟨n, -, rfl⟩
        · exact fun later => fresh key old (List.mem_cons_of_mem _ later)
        · exact distinct.1
    · rw [keys', keys, List.exists_mem_cons_iff, List.mem_append, List.mem_map, or_assoc]
      apply or_congr_right
      apply or_congr_left
      constructor
      · rintro ⟨n, mem, rfl⟩
        exact ⟨rfl, (held n).mp mem⟩
      · rintro ⟨same, holder⟩
        exact ⟨key.2, (held _).mpr holder, Prod.ext same rfl⟩
    · rw [List.map_cons, List.mem_cons, not_or] at other
      rw [frame key group other.2, holders]
      simp [other.1]
    · intro entry' mem n group
      rcases List.mem_cons.mp mem with rfl | mem
      · rw [frame _ _ distinct.1, holders]
        simp
      · have other : entry'.1 ≠ entry.1 := by
          intro same
          exact distinct.1 (same ▸ List.mem_map_of_mem mem)
        rw [holders' entry' mem, holders]
        simp [other]

theorem occupiedRanks_spec {players : List PlayerDTO} {keys : List RankKey} {index : RankIndex}
    (distinct : (rankCounts.map Prod.fst).Nodup)
    (h : occupiedRanks rankCounts players = .ok (keys, index)) :
    keys.Nodup ∧
    (∀ key, key ∈ keys ↔ ∃ entry ∈ rankCounts, entry.1 = key.1 ∧
      ∃ player ∈ players, Holds entry key.2 player) ∧
    (∀ key ∈ keys, ∀ group, holdersAt index key group =
      players.filter fun player => rankText key ∈ player.ranks ∧ player.groupId = group) := by
  obtain ⟨nodup, mem, -, holders⟩ := scanDivisions_spec distinct h
  have mem : ∀ key, key ∈ keys ↔ ∃ entry ∈ rankCounts, entry.1 = key.1 ∧
      ∃ player ∈ players, Holds entry key.2 player := by
    intro key
    simpa using mem key
  refine ⟨nodup List.nodup_nil (by simp), mem, fun key held group => ?_⟩
  obtain ⟨entry, listed, same, player, -, names, -⟩ := (mem key).mp held
  obtain ⟨division, n⟩ := key
  obtain rfl : entry.1 = division := same
  rw [holders entry listed]
  simp [holdersAt, Assoc.get, Holds, names]

/-! ## When the scan fails -/

/-- No rank text of the rosters is illegible in a division that has ranks. -/
def Legible (rankCounts : List (String × Int)) (players : List PlayerDTO) : Prop :=
  ∀ entry ∈ rankCounts, 1 ≤ entry.2 → ∀ player ∈ players, ∀ raw ∈ player.ranks,
    ¬ Illegible entry.1 raw

theorem exists_ok_scanRank {entry : String × Int} {player : PlayerDTO} (h : ¬ Illegible entry.1 raw)
    (scan : Scan) :
    ∃ scan', scanRank entry.1 entry.2 player scan raw = .ok scan' := by
  cases read : rankNumber entry.1 entry.2 raw with
  | error e => exact absurd (rankNumber_eq_error_iff.mp ⟨e, read⟩) h
  | ok number =>
    simp only [scanRank, read, ok_bind]
    cases number with
    | none => exact ⟨_, rfl⟩
    | some n =>
      by_cases seen : (entry.1, n) ∈ scan.seenKeys
      · exact ⟨_, if_pos seen⟩
      · exact ⟨_, if_neg seen⟩

theorem exists_ok_occupiedRanks {players : List PlayerDTO} (h : Legible rankCounts players) :
    ∃ found, occupiedRanks rankCounts players = .ok found := by
  have divisions : ∀ entry ∈ rankCounts, ∀ acc : List RankKey × RankIndex, True →
      ∃ acc', scanDivision players acc entry = .ok acc' ∧ True := by
    intro entry listed acc _
    rw [scanDivision]
    split
    · exact ⟨acc, rfl, trivial⟩
    · next ranks =>
      have each : ∀ player ∈ players, ∀ acc : List Nat × RankIndex, True →
          ∃ acc', scanPlayer entry.1 entry.2 acc player = .ok acc' ∧ True := by
        intro player mem acc _
        have all : ∀ raw ∈ player.ranks, ∀ scan : Scan, True →
            ∃ scan', scanRank entry.1 entry.2 player scan raw = .ok scan' ∧ True := by
          intro raw hraw scan _
          obtain ⟨scan', step⟩ := exists_ok_scanRank
            (h entry listed (by omega) player mem raw hraw) scan
          exact ⟨scan', step, trivial⟩
        obtain ⟨scan, run, -⟩ := foldlM_total all (b := ⟨[], acc.1, acc.2⟩) trivial
        exact ⟨_, by rw [scanPlayer, run]; rfl, trivial⟩
      obtain ⟨found, run, -⟩ := foldlM_total each (b := ([], acc.2)) trivial
      exact ⟨_, by rw [run]; rfl, trivial⟩
  obtain ⟨found, run, -⟩ := foldlM_total divisions (b := ([], [])) trivial
  exact ⟨found, run⟩

end Meet
