import ShuttleWorks.Operations.Agreement

/-! One playing match a court. A match takes its court when it starts, and the check
before that write sees every other match of the tournament; whatever else the desk
does to a match keeps its court or gives it up. -/

namespace Operations
open Lib Sync

def playingCourt (m : Match) : Option (Uuid × Int) :=
  if occupiesCourtNow m.status then m.courtId.map fun court => (m.tournamentId, court) else none

def CourtsClear (s : LiveStore) : Prop := Exclusive playingCourt s.matchRows

variable {m : Match} {court : Int} {ms : List OccupancyMatch}

theorem playingCourt_eq_some {t : Uuid} :
    playingCourt m = some (t, court) ↔
      m.status = .playing ∧ m.courtId = some court ∧ m.tournamentId = t := by
  unfold playingCourt occupiesCourtNow
  by_cases playing : m.status = .playing
  · simp [playing, and_comm]
  · simp [playing]

theorem CourtsClear.congr {s s' : LiveStore} (h : CourtsClear s)
    (rows : s'.matchRows = s.matchRows) : CourtsClear s' := by
  unfold CourtsClear
  rw [rows]
  exact h

/-! ## What the code derives of a court -/

namespace LiveStore

def occupancy (s : LiveStore) (t : Uuid) : List OccupancyMatch :=
  (s.listForTournament t).map fun m => ⟨m.id, m.status, m.courtId⟩

theorem nodup_occupancy (s : LiveStore) (t : Uuid) :
    ((s.occupancy t).map OccupancyMatch.id).Nodup := by
  have rows : s.matchRows.rows.Nodup := List.Nodup.of_map _ s.matchRows.unique
  have nodup : (s.listForTournament t).Nodup :=
    (List.perm_insertionSort _ _).nodup_iff.mpr (rows.filter _)
  rw [occupancy, List.map_map]
  refine nodup.map_on ?_
  intro m hm m' hm' same
  rw [mem_listForTournament] at hm hm'
  exact Table.eq_of_key_eq hm.1 hm'.1 (Prod.ext (hm.2.trans hm'.2.symm) same)

end LiveStore

def claimants (ms : List OccupancyMatch) (court : Int) : List OccupancyMatch :=
  ms.filter fun m => occupiesCourtNow m.status ∧ m.courtId = some court

theorem mem_claimants {m : OccupancyMatch} :
    m ∈ claimants ms court ↔ m ∈ ms ∧ m.status = .playing ∧ m.courtId = some court := by
  simp [claimants, occupiesCourtNow]

theorem deriveCourtStates_eq_disputed :
    deriveCourtStates ms court = .disputed ↔ 2 ≤ (claimants ms court).length := by
  unfold deriveCourtStates
  rw [← claimants]
  cases claimants ms court with
  | nil => simp
  | cons m rest => cases rest <;> simp

theorem CourtsClear.undisputed {s : LiveStore} (h : CourtsClear s) (t : Uuid) (court : Int) :
    deriveCourtStates (s.occupancy t) court ≠ .disputed := by
  rw [Ne, deriveCourtStates_eq_disputed]
  intro two
  have nodup : ((claimants (s.occupancy t) court).map OccupancyMatch.id).Nodup :=
    (s.nodup_occupancy t).sublist (List.filter_sublist.map _)
  have on : ∀ o ∈ claimants (s.occupancy t) court, ∃ m ∈ s.matchRows.rows,
      playingCourt m = some (t, court) ∧ m.id = o.id := by
    intro o ho
    obtain ⟨mem, playing, there⟩ := mem_claimants.mp ho
    obtain ⟨m, hm, rfl⟩ := List.mem_map.mp mem
    rw [mem_listForTournament] at hm
    exact ⟨m, hm.1, playingCourt_eq_some.mpr ⟨playing, there, hm.2⟩, rfl⟩
  match claimants (s.occupancy t) court, two, nodup, on with
  | [], two, _, _ => simp at two
  | [_], two, _, _ => simp at two
  | o :: o' :: _, _, nodup, on =>
    obtain ⟨m, hm, claimed, id⟩ := on o (by simp)
    obtain ⟨m', hm', claimed', id'⟩ := on o' (by simp)
    have same := h m hm m' hm' _ claimed claimed'
    subst same
    simp [← id, ← id'] at nodup

theorem assertCourtAvailable_eq_ok {s : LiveStore} {t : Uuid} {id : String} {u : Unit}
    (h : s.assertCourtAvailable t id .playing = .ok u) {row : Match}
    (found : s.matchRows.get (t, id) = some row) (on : row.courtId = some court) :
    ∀ m ∈ s.matchRows.rows, m.key ≠ (t, id) → playingCourt m ≠ some (t, court) := by
  intro m hm other claimed
  obtain ⟨playing, there, rfl⟩ := playingCourt_eq_some.mp claimed
  unfold LiveStore.assertCourtAvailable at h
  simp only [occupiesCourtNow, decide_true, found, Option.bind_some, on] at h
  split at h
  · next free =>
    refine free ?_
    rw [deriveCourtStates_eq_disputed, claimants, List.filter_append, List.length_append]
    have named : m.id ≠ id := fun same => other (by rw [Match.key, same])
    have mem : (⟨m.id, m.status, m.courtId⟩ : OccupancyMatch) ∈
        claimants (((s.listForTournament m.tournamentId).filter (fun m => m.id ≠ id)).map
          (fun m => (⟨m.id, m.status, m.courtId⟩ : OccupancyMatch))) court := by
      refine mem_claimants.mpr ⟨?_, playing, there⟩
      simp only [List.mem_filter, List.mem_map, mem_listForTournament, decide_eq_true_eq]
      exact ⟨m, ⟨⟨hm, rfl⟩, named⟩, rfl⟩
    have one := List.length_pos_of_mem mem
    have self : (claimants [⟨id, .playing, some court⟩] court).length = 1 := by
      simp [claimants, occupiesCourtNow]
    unfold claimants at one self
    omega
  · cases h

/-! ## The writes of a row -/

/-- A row is written over: it keeps its court or gives it up, and it is playing only if it was
before or if the court was checked. -/
theorem CourtsClear.put {s : LiveStore} {t : Uuid} {id : String} {row : Match}
    (clear : CourtsClear s) (found : s.matchRows.get (t, id) = some row) (key : m.key = row.key)
    (court : m.status = .playing → m.courtId = row.courtId)
    (checked : m.status = .playing → row.status = .playing ∨
      s.assertCourtAvailable t id .playing = .ok ()) :
    CourtsClear { s with matchRows := s.matchRows.put m } := by
  have old : row.key = (t, id) := Table.key_of_get found
  refine Exclusive.put clear ?_
  rintro ⟨t', n⟩ claimed y hy other
  obtain ⟨playing, on, rfl⟩ := playingCourt_eq_some.mp claimed
  have same := court playing
  rcases checked playing with before | available
  · have held : playingCourt row = some (m.tournamentId, n) :=
      playingCourt_eq_some.mpr ⟨before, same.symm.trans on, congrArg Prod.fst key.symm⟩
    intro claimed'
    have equal := clear y hy row (Table.mem_of_get found) _ claimed' held
    exact other (equal ▸ key.symm)
  · have tournament : m.tournamentId = t := congrArg Prod.fst (key.trans old)
    rw [tournament]
    exact assertCourtAvailable_eq_ok available found (same.symm.trans on) y hy
      (fun named => other (named.trans (key.trans old).symm))

section
variable {c : Settings} {x : Ambient} {t : Uuid} {s s' : LiveStore} {user : Option Uuid}
  {matchId : String} {header : IfMatch} {r : CommandRequest}

theorem setStatus_clear {id : String} {status : MatchStatus} {expected : Option Nat}
    (clear : CourtsClear s) (checked : status = .playing →
      s.assertCourtAvailable t id .playing = .ok ())
    (h : s.setStatus t id status expected = .ok (m, s')) : CourtsClear s' := by
  unfold LiveStore.setStatus at h
  split at h
  · split at h
    · cases h
      -- A row that is new has no court.
      exact Exclusive.put_released clear (by simp [playingCourt])
    · cases h
  · next row found =>
    split at h
    · cases h
      exact clear.put found rfl (fun _ => rfl) (fun playing => .inr (checked playing))
    · cases h

theorem updateMatchState_clear {document : MatchStateDTO} {p : MatchState × Match}
    (clear : CourtsClear s)
    (h : updateMatchState c x t s user matchId header document = .ok (p, s')) :
    CourtsClear s' := by
  have available : s.assertCourtAvailable t matchId document.status.canonical = .ok () := by
    unfold updateMatchState at h
    simp only [bind_eq_ok] at h
    obtain ⟨_, -, _, -, _, -, h⟩ := h
    split at h
    · simp only [bind_eq_ok] at h
      obtain ⟨_, -, _, available, -⟩ := h
      exact available
    · simp only [bind_eq_ok] at h
      obtain ⟨_, available, -⟩ := h
      exact available
  obtain ⟨actorId, seenVersion, h⟩ := updateMatchState_eq_ok h
  unfold MatchStateApplication.update at h
  simp only [bind_eq_ok] at h
  obtain ⟨⟨m, s₁⟩, written, _, -, s₂, appended, h⟩ := h
  cases h
  refine CourtsClear.congr ?_ (appendIfEventNode_tables appended).1
  refine CourtsClear.congr (setStatus_clear clear ?_ written) rfl
  intro playing
  rw [← playing]
  exact available

theorem deleteMatchState_clear (clear : CourtsClear s)
    (h : deleteMatchState c x t s user matchId header = .ok (m, s')) : CourtsClear s' := by
  unfold deleteMatchState at h
  simp only [bind_eq_ok] at h
  obtain ⟨_, -, seenVersion, -, actorId, -, h⟩ := h
  unfold MatchStateApplication.delete at h
  simp only [bind_eq_ok] at h
  obtain ⟨⟨m', s₁⟩, written, _, -, s₂, appended, h⟩ := h
  cases h
  refine CourtsClear.congr ?_ (appendIfEventNode_tables appended).1
  apply setStatus_clear (show CourtsClear (s.deleteState t matchId) from clear) _ written
  intro playing
  cases playing

/-! ## Commands -/

theorem assertCourtAvailable_eq_error {id : String} {next : MatchStatus} {e : LiveError}
    (h : s.assertCourtAvailable t id next = .error e) : ∃ e', e = .conflict e' := by
  unfold LiveStore.assertCourtAvailable at h
  split at h
  · dsimp only at h
    split at h
    · cases h
    · cases h
      exact ⟨_, rfl⟩
  · cases h

theorem validateCommand_available (h : validateCommand t r s = .ok m) :
    s.assertCourtAvailable t r.matchId.val r.action.targetStatus = .ok () := by
  unfold validateCommand at h
  simp only [bind_eq_ok] at h
  obtain ⟨_, -, _, court, -⟩ := h
  cases answer : s.assertCourtAvailable t r.matchId.val r.action.targetStatus with
  | ok u => rfl
  | error e =>
    obtain ⟨e', rfl⟩ := assertCourtAvailable_eq_error answer
    rw [answer] at court
    cases court

theorem applyCommandMutation_court {m' : Match} (h : applyCommandMutation r m = .ok m')
    (playing : m'.status = .playing) :
    m'.courtId = m.courtId := by
  have target := (applyCommandMutation_eq_ok h).2.2
  unfold applyCommandMutation at h
  simp only [bind_eq_ok] at h
  obtain ⟨status, -, h⟩ := h
  split at h
  · next assign => simp [target, assign, MatchAction.targetStatus] at playing
  · next postpone => simp [target, postpone, MatchAction.targetStatus] at playing
  · cases h
    rfl

theorem processCommand_clear (clear : CourtsClear s) (submittedBy : Uuid) (r : CommandRequest) :
    CourtsClear (processCommand c x t submittedBy r s).1 := by
  refine processCommand_ends (P := fun y => CourtsClear y.1) (fun _ _ => clear) (fun _ _ => clear)
    (fun e _ => clear.congr (rejected_keeps submittedBy r _ e).1) fun m p s' _ valid applied => ?_
  have found := validateCommand_eq_ok valid
  have available := validateCommand_available valid
  unfold applyCommandTo at applied
  simp only [bind_eq_ok] at applied
  obtain ⟨m', mutated, s₁, stored, s₂, appended, applied⟩ := applied
  cases applied
  obtain ⟨tournament, id, status⟩ := applyCommandMutation_eq_ok mutated
  have key : m'.key = m.key := Prod.ext tournament id
  have put := clear.put found key (applyCommandMutation_court mutated) (fun playing => .inr (by
    rw [← playing, status]
    exact available))
  exact put.congr ((appendIfEventNode_tables appended).1.trans (putCommand_tables stored).1)

theorem applyResolutionToDisplaced_ne (action : ResolutionAction) (m : Match) :
    (applyResolutionToDisplaced action m).status ≠ .playing := by
  cases action with
  | keepAndMove =>
    simp only [applyResolutionToDisplaced]
    split
    · decide
    · next other => exact other
  | keepAndUnassign => simp [applyResolutionToDisplaced]
  | keepAndFinish => simp [applyResolutionToDisplaced]

theorem displace_clear {action : ResolutionAction} {key : Json} (clear : CourtsClear s)
    (h : displace x t action s key = .ok s') : CourtsClear s' := by
  unfold displace at h
  split at h
  · next id =>
    split at h
    · cases h
      exact clear
    · next m found =>
      cases h
      have idle := applyResolutionToDisplaced_ne action m
      have key : (applyResolutionToDisplaced action m).key = m.key := by cases action <;> rfl
      have put := clear.put found key (fun playing => absurd playing idle)
        (fun playing => absurd playing idle)
      exact put.congr rfl
  · cases h
  · cases h
  · cases h
    exact clear

theorem processResolveCourtCommand_clear (clear : CourtsClear s) (submittedBy : Uuid)
    (r : CommandRequest) :
    CourtsClear (processResolveCourtCommand c x t submittedBy r s).1 := by
  refine processResolveCourtCommand_ends (P := fun y => CourtsClear y.1) (fun _ _ => clear)
    (fun _ _ => clear) (fun e _ => clear.congr (rejected_keeps submittedBy r _ e).1)
    fun _ action keys s₁ s₂ _ _ _ displaced stored => ?_
  refine CourtsClear.congr ?_ (putCommand_tables stored).1
  exact foldlM_keeps (I := CourtsClear) (fun _ _ _ clear => displace_clear clear) clear displaced

theorem submitCommand_clear (clear : CourtsClear s) (r : CommandRequest) :
    CourtsClear (submitCommand c x t s user r).1 := by
  unfold submitCommand
  split
  · exact clear
  split
  · split
    · exact processResolveCourtCommand_clear clear _ r
    · exact clear
  · exact processCommand_clear clear _ r

end

/-! ## Runs -/

def LiveRequest.OfDesk : LiveRequest → Prop
  | .update .. | .delete .. | .command _ => True
  | .resetAll _ | .importStates .. | .importBulk .. => False

theorem serveLive_clear {c : Settings} {s : LiveStore} {e : LiveEvent} (desk : e.request.OfDesk)
    (clear : CourtsClear s) : CourtsClear (serveLive c s e) := by
  obtain ⟨t, ambient, user, request⟩ := e
  cases request with
  | update => exact rolledBack_cases clear (fun _ _ h => updateMatchState_clear clear h)
  | delete => exact rolledBack_cases clear (fun _ _ h => deleteMatchState_clear clear h)
  | command r => exact submitCommand_clear clear r
  | resetAll => exact absurd desk not_false
  | importStates => exact absurd desk not_false
  | importBulk => exact absurd desk not_false

/-- **One playing match a court.** In every run of commands, resolutions of a court, match-state
writes and deletions from a state in which no court has two playing matches, none ever has: two
playing matches of a tournament on one court are the same match, and the code derives no dispute. -/
theorem courts_stay_clear {c : Settings} {s : LiveStore}
    (run : Reachable CourtsClear (fun s e s' => e.request.OfDesk ∧ s' = serveLive c s e) s) :
    (∀ m ∈ s.matchRows.rows, ∀ m' ∈ s.matchRows.rows, m.status = .playing → m'.status = .playing →
      m.tournamentId = m'.tournamentId → m.courtId = m'.courtId → m.courtId ≠ none → m = m') ∧
      ∀ t court, deriveCourtStates (s.occupancy t) court ≠ .disputed := by
  have clear : CourtsClear s := by
    refine run.invariant (fun _ h => h) ?_
    rintro s e _ - clear ⟨desk, rfl⟩
    exact serveLive_clear desk clear
  refine ⟨?_, clear.undisputed⟩
  intro m hm m' hm' playing playing' tournament court some
  obtain ⟨n, on⟩ := Option.ne_none_iff_exists'.mp some
  exact clear m hm m' hm' (m.tournamentId, n) (playingCourt_eq_some.mpr ⟨playing, on, rfl⟩)
    (playingCourt_eq_some.mpr ⟨playing', court.symm.trans on, tournament.symm⟩)

namespace CourtsideRehearsal
open Sync.Rehearsal (eventId)

theorem second_bounded : 1 ≤ second.length ∧ second.length ≤ 100 := by decide

def taken : LiveStore :=
  { crowded with
    matchRows := ⟨[{ tournamentId := eventId, id := first, courtId := some 1, status := .playing },
      { tournamentId := eventId, id := second, courtId := some 1, status := .called }],
      by decide⟩ }

theorem taken_clear : CourtsClear taken := by
  have rows : ∀ m ∈ taken.matchRows.rows, ∀ m' ∈ taken.matchRows.rows,
      playingCourt m ≠ none → playingCourt m = playingCourt m' → m = m' := by decide +kernel
  intro m hm m' hm' g claimed claimed'
  exact rows m hm m' hm' (by simp [claimed]) (claimed.trans claimed'.symm)

def startSecond : LiveEvent :=
  event (.update second (.version 1) { matchId := ⟨second, second_bounded⟩, status := .started })

end CourtsideRehearsal

open CourtsideRehearsal Sync.Rehearsal ImportRehearsal in
theorem courts_stay_clear_taken :
    (serveLive settings taken startSecond).statusOf eventId second = .called ∧
      deriveCourtStates ((serveLive settings taken startSecond).occupancy eventId) 1 ≠ .disputed :=
  ⟨by decide +kernel, (courts_stay_clear (c := settings)
    (.step (a := startSecond) (.init taken_clear) ⟨trivial, rfl⟩)).2 eventId 1⟩

end Operations
