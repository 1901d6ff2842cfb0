import ShuttleWorks.Documents.Setup
import ShuttleWorks.Sync.Cloud

/-! Proposals to change a committed schedule, and the suggestions that offer them: both are kept
in the memory of the server, each under a tournament, until they expire. `commit_proposal` writes
a proposal over the document; `apply_suggestion` hands its arguments on to it by position. -/

namespace Meet
open Lib Competition Operations Documents
open Sync (Uuid)

/-! ## The stores -/

structure Proposal where
  /-- The value of a `ProposalKind`. -/
  kind : String
  proposedSchedule : JsonObject
  proposedConfig : Option JsonObject := none
  summary : Option String := none
  fromScheduleVersion : Int
  /-- The instant it expires at, if it can be read. -/
  expiresAt : Option Int

structure Suggestion where
  kind : String
  title : String
  metric : String
  proposalId : String
  fingerprint : String
  fromScheduleVersion : Int
  expiresAt : Option Int

/-- What a call hands over as `tournament_id`: a tournament's id, or a repository by mistake. -/
inductive StoreKey
  | tournament (id : Uuid)
  | repository (handle : Nat)
  deriving DecidableEq

inductive RepoArg
  | repository (handle : Nat)
  /-- The default of the parameter, which only the framework replaces. -/
  | depends

inductive UserArg
  /-- The id of the user, if it is a UUID. -/
  | user (asUuid : Option Uuid)
  | depends

/-- The state of the server: a store that is not there holds nothing. -/
structure App where
  proposals : StoreKey → List (String × Proposal)
  suggestions : StoreKey → List (String × Suggestion)
  documents : Uuid → Option Store
  /-- Proposals are stored under tournaments only. -/
  keyed : ∀ handle, proposals (.repository handle) = []

namespace App

variable (app : App)

/-- Keep some of the proposals under a key. -/
def keepProposals (key : StoreKey) (keep : String × Proposal → Bool) : App where
  proposals k := if k = key then (app.proposals k).filter keep else app.proposals k
  suggestions := app.suggestions
  documents := app.documents
  keyed handle := by simp [app.keyed]

def keepSuggestions (key : StoreKey) (keep : String × Suggestion → Bool) : App :=
  { app with suggestions := fun k =>
      if k = key then (app.suggestions k).filter keep else app.suggestions k }

def withDocument (id : Uuid) (s : Store) : App :=
  { app with documents := fun k => if k = id then some s else app.documents k }

end App

/-- It is not past the instant it expires at; one that cannot be read has expired. -/
def unexpired (now : Int) (expiresAt : Option Int) : Bool :=
  match expiresAt with
  | none => false
  | some expires => !decide (expires < now)

def evictExpired (now : Int) (key : StoreKey) (app : App) : App :=
  app.keepProposals key (fun x => unexpired now x.2.expiresAt)

def evictExpiredSuggestions (now : Int) (key : StoreKey) (app : App) : App :=
  app.keepSuggestions key (fun x => unexpired now x.2.expiresAt)

/-! ## The responses -/

structure HttpError where
  statusCode : Nat
  code : String
  message : String
  deriving DecidableEq

structure CommitResponse where
  /-- The row that the response is read from. -/
  row : Tournament
  historyEntry : JsonObject

/-- What a request takes from its surroundings. -/
structure CommitInputs where
  host : Host
  fresh : Fresh
  ambient : Ambient
  /-- What the database raises. -/
  faults : Site → Option String
  now : Int
  freshId : Uuid

def CommitInputs.database (r : CommitInputs) : Database := fun site =>
  (r.faults site).map DocumentError.database

def proposalExpired : HttpError := ⟨410, "PROPOSAL_EXPIRED", "proposal expired or not found"⟩

def internalServerError : HttpError := ⟨500, "", "Internal Server Error"⟩

def writeFailed : HttpError := ⟨500, "STATE_WRITE_FAILED", "could not persist schedule commit"⟩

def writeFailure : DocumentError → HttpError
  | .http statusCode code message => ⟨statusCode, code, message⟩
  | .live (.http statusCode code message) => ⟨statusCode, code, message⟩
  | _ => writeFailed

/-! ## The persisted state -/

theorem keys_readModel {fields : List Field} {read : String → Json → Option Json}
    {o members : JsonObject} (h : readModel fields read o = some members) :
    Assoc.keys members = fields.map Field.name := by
  unfold readModel at h
  split at h
  case isFalse => cases h
  clear * - h
  induction fields generalizing members with
  | nil =>
    cases h
    rfl
  | cons f fields ih =>
    simp only [List.mapM_cons, Option.bind_eq_bind, Option.bind_eq_some_iff, Option.pure_def,
      Option.some.injEq] at h
    obtain ⟨p, found, rest, done, rfl⟩ := h
    have named : p.1 = f.name := by
      unfold readField at found
      split at found <;>
        (obtain ⟨_, -, rfl⟩ := Option.map_eq_some_iff.mp found; rfl)
    simp only [Assoc.keys, List.map_cons, named] at ih ⊢
    rw [ih done]

/-- `Documents.TournamentStateDTO(**document)`. -/
def readStateDto (r : Reading) (document : JsonObject) : Option Documents.TournamentStateDTO :=
  match found : r.readState document with
  | none => none
  | some members => some ⟨members, keys_readModel found⟩

/-- `state_dto_from_document`: the fields that a state declares. -/
def stateDtoFromDocument (r : Reading) (data : JsonObject) : Option Documents.TournamentStateDTO :=
  readStateDto r (data.filter (fun p => p.1 ∈ stateFields.map Field.name))

/-- `_read_persisted_state`. What a repository that is none raises reads as no state. -/
def readPersistedState (r : CommitInputs) (repo : RepoArg) (key : StoreKey) (app : App) :
    Except HttpError (Option (Uuid × Store × Documents.TournamentStateDTO)) :=
  match repo, key with
  | .repository _, .tournament id =>
    match app.documents id with
    | none => .ok none
    | some s =>
      if s.data = [] then .ok none
      else
        match readStateDto r.host.reading (Assoc.erase "_integrity" s.data) with
        | none => .error internalServerError
        | some state => .ok (some (id, s, state))
  | _, _ => .ok none

/-! ## Committing a proposal -/

def historyEntry (r : CommitInputs) (proposal : Proposal) (state : Documents.TournamentStateDTO) :
    JsonObject :=
  [("version", .int state.scheduleVersion), ("committedAt", .str r.fresh.nowIso),
    ("trigger", .str proposal.kind), ("summary", jsonText proposal.summary),
    ("schedule", state.get "schedule")]

def scheduleCommit (r : CommitInputs) (proposalId : String) (proposal : Proposal)
    (state : Documents.TournamentStateDTO) (actor : Option Uuid) : ScheduleCommit where
  state := state
  newSchedule := proposal.proposedSchedule
  historyEntry := historyEntry r proposal state
  newConfig := proposal.proposedConfig
  proposalId := some proposalId
  actorId := actor
  freshId := r.freshId

/-- The proposal is consumed, and the suggestions made before the new version go with it. -/
def consumed (proposalId : String) (key : StoreKey) (newVersion : Int) (app : App) : App :=
  (app.keepProposals key (fun x => x.1 ≠ proposalId)).keepSuggestions key
    (fun x => !decide (x.2.fromScheduleVersion < newVersion))

def commitProposal (r : CommitInputs) (proposalId : String) (tournamentId : StoreKey)
    (repo : RepoArg) (user : UserArg) (app : App) : Except HttpError CommitResponse × App :=
  let app := evictExpired r.now tournamentId app
  match Assoc.get proposalId (app.proposals tournamentId) with
  | none => (.error proposalExpired, app)
  | some proposal =>
    match readPersistedState r repo tournamentId app with
    | .error e => (.error e, app)
    | .ok none => (.error ⟨409, "NO_COMMITTED_SCHEDULE",
        "no committed schedule exists to commit against"⟩, app)
    | .ok (some (id, s, state)) =>
      if state.scheduleVersion ≠ proposal.fromScheduleVersion then
        (.error ⟨409, "SCHEDULE_VERSION_CONFLICT",
          "committed schedule has advanced from version " ++
            toString proposal.fromScheduleVersion ++ " to " ++ toString state.scheduleVersion ++
            "; please re-review the proposal"⟩, app)
      else
        match user with
        | .depends => (.error (writeFailure (.typeError "'Depends' object has no attribute")), app)
        | .user actor =>
          match ((scheduleCommit r proposalId proposal state actor).apply r.host r.database r.fresh
              r.ambient).execute s with
          | (.error e, s) => (.error (writeFailure e), app.withDocument id s)
          | (.ok row, s) =>
            -- the row is read once more, for the answer
            match stateDtoFromDocument r.host.reading row.data with
            | none => (.error (writeFailure (.typeError "the stored state is not readable")),
                app.withDocument id s)
            | some updated => (.ok ⟨row, historyEntry r proposal state⟩,
                consumed proposalId tournamentId updated.scheduleVersion (app.withDocument id s))

def suggestionExpired : HttpError := ⟨410, "PROPOSAL_EXPIRED", "suggestion expired or not found"⟩

/-- The third argument of the call is bound to `response` and the fourth to `tournament_id`; the
repository and the user are left to their defaults. -/
def applySuggestion (r : CommitInputs) (suggestionId : String) (tournamentId : Uuid) (handle : Nat)
    (app : App) : Except HttpError CommitResponse × App :=
  let app := evictExpiredSuggestions r.now (.tournament tournamentId) app
  match Assoc.get suggestionId (app.suggestions (.tournament tournamentId)) with
  | none => (.error suggestionExpired, app)
  | some sug =>
    commitProposal r sug.proposalId (.repository handle) .depends .depends
      (app.keepSuggestions (.tournament tournamentId) (fun x => x.1 ≠ suggestionId))

/-! ## What a commit raises -/

def Plain (e : DocumentError) : Prop := writeFailure e = writeFailed

section

variable {p : Entries.Platform} {db : Database} {x : Fresh} {s : Store} {e : DocumentError}
  {payload : JsonObject} {onlyText : Bool} {h : Host}

theorem replaceDocument_plain (h : replaceDocument p x payload s = .error e) : Plain e := by
  rcases bind_error h with refused | ⟨_, -, done⟩
  · obtain ⟨_, -, rfl⟩ := mapError_error refused
    rfl
  · cases done

theorem keyError_plain {key : Option Json} (h : keyError onlyText key = some e) :
    Plain e := by
  unfold keyError at h
  split at h
  · cases h
    rfl
  · cases h
    rfl
  · split at h
    · cases h
      rfl
    · cases h
  · cases h

theorem memberKeyError_plain {key : String} {rows : List Json}
    (h : rows.findSome? (memberKeyError onlyText key) = some e) : Plain e := by
  obtain ⟨row, -, found⟩ := List.exists_of_findSome?_eq_some h
  unfold memberKeyError at found
  split at found
  · exact keyError_plain found
  · cases found

theorem placementColumn_plain {j : Json} (h : placementColumn j = .error e) : Plain e := by
  obtain ⟨e', raised, rfl⟩ := mapError_error h
  unfold columnInt at raised
  split at raised
  · cases raised
  · cases raised
  · cases raised
    rfl

theorem projectedRow_plain {id : Uuid} {mid : String} {placement : Documents.Placement}
    {row : Option Match} (h : projectedRow id mid placement row = .error e) : Plain e := by
  have columns : ∀ {f : Option Int → Option Int → Match},
      (do
        let courtId ← placementColumn placement.1
        let timeSlot ← placementColumn placement.2
        .ok (f courtId timeSlot) : Except DocumentError Match) = .error e → Plain e := by
    intro f h
    rcases bind_error h with court | ⟨_, -, rest⟩
    · exact placementColumn_plain court
    · rcases bind_error rest with slot | ⟨_, -, done⟩
      · exact placementColumn_plain slot
      · cases done
  cases row with
  | none => exact columns h
  | some row =>
    rw [projectedRow] at h
    split at h
    · cases h
    · exact columns h

theorem projectPayload_plain (h : projectPayload payload s = .error e) : Plain e := by
  rcases bind_error h with raised | ⟨_, -, done⟩
  · unfold bulkProjectFromSchedule at raised
    split at raised
    · next found =>
      cases raised
      rcases Option.or_eq_some_iff.mp found with schedule | ⟨-, listed⟩
      · exact memberKeyError_plain schedule
      · exact memberKeyError_plain listed
    · rcases bind_error raised with rows | ⟨_, -, done⟩
      · obtain ⟨mid, -, found⟩ := mapM_error rows
        exact projectedRow_plain found
      · cases done
  · cases done

theorem reserve_plain {expectedVersion : Option Nat} (h : reserve expectedVersion s = .error e) :
    Plain e := by
  unfold reserve at h
  split at h
  · cases h
  · split at h
    · cases h
    · cases h
      rfl

theorem nodeId_plain (node : ScheduleCommit.nodeId h = .error e) : Plain e := by
  unfold ScheduleCommit.nodeId at node
  dsimp only at node
  split at node
  · cases node
  · split at node
    · cases node
    · cases node
      rfl

theorem commitIf_raises (faults : ∀ site, ∀ e ∈ db site, Plain e) (commit : Bool) (site : Site) :
    (commitIf db commit site).Raises Plain :=
  .ite (.commit (faults site)) (.pure _)

theorem commitTournamentState_raises (faults : ∀ site, ∀ e ∈ db site, Plain e)
    (clear commit : Bool) (expectedVersion : Option Nat) :
    (commitTournamentState p db x payload clear expectedVersion commit).Raises Plain := by
  refine .bind .read fun s => .bind (.ite (.pure _) (.bind ?_ fun _ => .bind ?_ fun _ => ?_))
    fun _ => .bind (.bind ?_ fun row => .bind ?_ fun _ => .pure _) fun _ =>
      .bind (.flush (faults _)) fun _ => .pure _
  · refine .bind (.edit ?_) fun _ => .bind (.flush (faults _)) fun _ => commitIf_raises faults _ _
    intro s e h
    cases h
  · refine .edit ?_
    intro s e h
    cases h
  · exact commitIf_raises faults _ _
  · refine .bind (.flush (faults _)) fun _ => .bind (.edit ?_) fun _ =>
      .bind (.flush (faults _)) fun _ => .bind (commitIf_raises faults _ _) fun _ => .pure _
    intro s e h
    rcases bind_error h with reserved | ⟨_, -, rest⟩
    · exact reserve_plain reserved
    · rcases bind_error rest with replaced | ⟨_, -, done⟩
      · exact replaceDocument_plain replaced
      · cases done
  · exact .bind (.edit fun s e h => projectPayload_plain h) fun _ => commitIf_raises faults _ _

theorem apply_raises {a : Ambient} (faults : ∀ site, ∀ e ∈ db site, Plain e) (q : ScheduleCommit) :
    (q.apply h db x a).Raises Plain := by
  refine .bind .read fun s => ?_
  split
  · exact .ite (.raise rfl) (.pure _)
  · refine .bind (commitTournamentState_raises faults _ _ _) fun row => ?_
    have ended : Work.Raises Plain
        (do Work.commit (db .requestCommit); pure row : DocumentWork Tournament) :=
      .bind (.commit (faults _)) fun _ => .pure _
    dsimp only
    split
    · exact ended
    next logging found =>
      refine .bind (.bind (.ofExcept fun e raised => ?_) fun _ =>
        .bind (.edit fun s e raised => ?_) fun _ => .flush (faults _)) fun _ => ended
      · unfold ScheduleCommit.logging at found
        split at found
        · cases found
          cases node : ScheduleCommit.nodeId h with
          | ok id => simp [node, Except.map] at raised
          | error e' =>
            simp only [node, Except.map, Except.error.injEq] at raised
            exact raised ▸ nodeId_plain node
        · cases found
      · unfold withOperation at raised
        split at raised
        · cases raised
        · cases raised
          rfl

end

theorem answers_otherwise {e : HttpError} (other : e.statusCode ≠ 410) :
    (.error e : Except HttpError CommitResponse) ≠ .error proposalExpired := by
  rintro h
  cases h
  exact other rfl

variable {proposalId : String}

theorem commitProposal_live {r : CommitInputs} {key : StoreKey} {repo : RepoArg} {user : UserArg}
    {app : App} {proposal : Proposal}
    (live : Assoc.get proposalId ((evictExpired r.now key app).proposals key) = some proposal) :
    (commitProposal r proposalId key repo user app).1 ≠ .error proposalExpired := by
  unfold commitProposal
  simp only [live]
  cases persisted : readPersistedState r repo key (evictExpired r.now key app) with
  | error e =>
    have failed : e = internalServerError := by
      unfold readPersistedState at persisted
      repeat' split at persisted
      all_goals cases persisted
      rfl
    subst failed
    exact answers_otherwise (by decide)
  | ok read =>
    rcases read with _ | ⟨id, s, state⟩
    · exact answers_otherwise (by decide)
    dsimp only
    split
    · exact answers_otherwise (by simp)
    cases user with
    | depends => exact answers_otherwise (by decide)
    | user actor =>
      dsimp only
      split
      · next e s' raised =>
        have plain : Plain e := by
          have faults : ∀ site, ∀ e ∈ r.database site, Plain e := by
            intro site e found
            obtain ⟨message, -, rfl⟩ := Option.map_eq_some_iff.mp found
            rfl
          exact apply_raises faults (scheduleCommit r proposalId proposal state actor) (.opened s)
            e (congrArg Prod.fst raised)
        rw [plain]
        exact answers_otherwise (by decide)
      · split
        · exact answers_otherwise (by decide)
        · exact fun h => nomatch h

/-! ## Applying a suggestion -/

/-- What a later request can tell of the server: every one of them evicts what has expired. -/
structure View where
  proposals : Uuid → List (String × Proposal)
  suggestions : Uuid → List (String × Suggestion)
  documents : Uuid → Option Store

def App.view (now : Int) (app : App) : View where
  proposals id := (evictExpired now (.tournament id) app).proposals (.tournament id)
  suggestions id := (evictExpiredSuggestions now (.tournament id) app).suggestions (.tournament id)
  documents := app.documents

def View.withoutSuggestion (tournamentId : Uuid) (suggestionId : String) (v : View) : View :=
  { v with suggestions := fun id =>
      if id = tournamentId then (v.suggestions id).filter (fun x => x.1 ≠ suggestionId)
      else v.suggestions id }

def liveSuggestion (now : Int) (tournamentId : Uuid) (app : App) (suggestionId : String) :
    Option Suggestion :=
  Assoc.get suggestionId ((app.view now).suggestions tournamentId)

def liveProposal (now : Int) (tournamentId : Uuid) (app : App) (proposalId : String) :
    Option Proposal :=
  Assoc.get proposalId ((app.view now).proposals tournamentId)

/-- Applying the suggestion answers as committing its proposal does, and leaves what that leaves
but for the suggestion. -/
def AppliesAsCommitted (r : CommitInputs) (app : App) (tournamentId : Uuid) (handle : Nat)
    (user : Option Uuid) (suggestionId : String) (sug : Suggestion) : Prop :=
  let applied := applySuggestion r suggestionId tournamentId handle app
  let committed := commitProposal r sug.proposalId (.tournament tournamentId)
    (.repository handle) (.user user) app
  applied.1 = committed.1 ∧
    applied.2.view r.now = (committed.2.view r.now).withoutSuggestion tournamentId suggestionId

section

variable {r : CommitInputs} {app : App} {tournamentId : Uuid} {handle : Nat} {user : Option Uuid}
  {suggestionId : String} {sug : Suggestion}

theorem applySuggestion_misses
    (live : liveSuggestion r.now tournamentId app suggestionId = some sug) :
    applySuggestion r suggestionId tournamentId handle app = (.error proposalExpired,
      evictExpired r.now (.repository handle)
        ((evictExpiredSuggestions r.now (.tournament tournamentId) app).keepSuggestions
          (.tournament tournamentId) (fun x => x.1 ≠ suggestionId))) := by
  unfold applySuggestion
  have found : Assoc.get suggestionId ((evictExpiredSuggestions r.now (.tournament tournamentId)
      app).suggestions (.tournament tournamentId)) = some sug := live
  simp only [found]
  unfold commitProposal
  simp [App.keyed]

theorem commitProposal_missing (gone : liveProposal r.now tournamentId app proposalId = none) :
    commitProposal r proposalId (.tournament tournamentId) (.repository handle) (.user user) app =
      (.error proposalExpired, evictExpired r.now (.tournament tournamentId) app) := by
  unfold commitProposal
  have none : Assoc.get proposalId ((evictExpired r.now (.tournament tournamentId) app).proposals
      (.tournament tournamentId)) = none := gone
  simp only [none]

/-- **A suggestion is applied as its proposal is committed exactly where the proposal is not live
any more.** -/
theorem applySuggestion_agrees
    (live : liveSuggestion r.now tournamentId app suggestionId = some sug) :
    AppliesAsCommitted r app tournamentId handle user suggestionId sug ↔
      liveProposal r.now tournamentId app sug.proposalId = none := by
  constructor
  · rintro ⟨answer, -⟩
    cases found : liveProposal r.now tournamentId app sug.proposalId with
    | none => rfl
    | some proposal =>
      rw [applySuggestion_misses live] at answer
      exact absurd answer.symm (commitProposal_live found)
  · intro gone
    unfold AppliesAsCommitted
    rw [applySuggestion_misses live, commitProposal_missing gone]
    refine ⟨rfl, ?_⟩
    simp only [App.view, View.withoutSuggestion, evictExpired, evictExpiredSuggestions,
      App.keepProposals, App.keepSuggestions, View.mk.injEq]
    refine ⟨?_, ?_, trivial⟩
    · funext id
      by_cases own : id = tournamentId
      · simp [own, List.filter_filter]
      · simp [own]
    · funext id
      by_cases own : id = tournamentId
      · simp only [own, ↓reduceIte, List.filter_filter]
        apply List.filter_congr
        intro x _
        cases unexpired r.now x.2.expiresAt <;> simp
      · simp [own]

end

/-! ## An offer -/

namespace Rehearsal

def desk : Host where
  env := Sync.Rehearsal.env
  reading := ⟨fun _ value => some value, fun _ value => some value⟩
  platform := Documents.Rehearsal.platform
  nodeId := ""
  databaseUrl := "sqlite:///desk.db"
  uuid5 := id

def inputs : CommitInputs where
  host := desk
  fresh := Documents.Rehearsal.fresh
  ambient := ⟨none, ⟨[], [], "", "operation-1", "2026-03-01T09:00:00Z"⟩⟩
  faults _ := none
  now := 0
  freshId := "operation-2"

def committed : Store := Documents.Rehearsal.holding
  [("scheduleVersion", .int 1), ("schedule", .obj [("assignments", .arr [])])]

def earlier : Proposal where
  kind := "warm_restart"
  proposedSchedule := [("assignments", .arr [])]
  fromScheduleVersion := 1
  expiresAt := some 1800

def offer : Suggestion where
  kind := "optimize"
  title := "Re-optimize from now"
  metric := "Finish 20m earlier · 3 moves"
  proposalId := "proposal-1"
  fingerprint := "opt:1"
  fromScheduleVersion := 1
  expiresAt := some 1800

def offered (proposals : List (String × Proposal)) : App where
  proposals key := if key = .tournament Documents.Rehearsal.eventId then proposals else []
  suggestions key :=
    if key = .tournament Documents.Rehearsal.eventId then [("suggestion-1", offer)] else []
  documents id := if id = Documents.Rehearsal.eventId then some committed else none
  keyed _ := rfl

end Rehearsal

open Rehearsal Documents.Rehearsal in
theorem applySuggestion_agrees_cancelled :
    AppliesAsCommitted inputs (offered []) eventId 7 none "suggestion-1" offer :=
  (applySuggestion_agrees (by rfl)).mpr (by rfl)

open Rehearsal Documents.Rehearsal in
/-- The proposal can be committed, but applying its suggestion answers that it has expired. -/
theorem applySuggestion_expired :
    (commitProposal inputs "proposal-1" (.tournament eventId) (.repository 7) (.user none)
        (offered [("proposal-1", earlier)])).1.toOption.isSome = true ∧
      ¬ AppliesAsCommitted inputs (offered [("proposal-1", earlier)]) eventId 7 none
        "suggestion-1" offer := by
  refine ⟨by decide +kernel, ?_⟩
  rintro ⟨answer, -⟩
  rw [applySuggestion_misses (show _ = some offer by rfl)] at answer
  exact commitProposal_live (show _ = some earlier by rfl) answer.symm

end Meet
