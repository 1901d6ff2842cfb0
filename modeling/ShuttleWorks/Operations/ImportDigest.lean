import ShuttleWorks.Operations.Recording
import ShuttleWorks.Sync.Numbering

/-! The digest of an imported snapshot. The node sorts the rows and digests their
ASCII text; the cloud sorts the logged rows again and digests their text without
ASCII escapes. The order never differs, the text differs exactly when some
character of the upload lies past `~`. -/

namespace Operations
open Lib Sync

/-! ## The rows of an upload -/

namespace MatchStatesUpload

def sorted (u : MatchStatesUpload) : List MatchStateDTO :=
  u.matchStates.insertionSort (fun d e => d.matchId.val ≤ e.matchId.val)

/-- No text of the upload has a character past `~`. -/
def Plain (u : MatchStatesUpload) : Prop := (Json.arr (u.snapshot.map .obj)).Plain

instance (u : MatchStatesUpload) : Decidable u.Plain :=
  inferInstanceAs (Decidable (Json.arr (u.snapshot.map .obj)).Plain)

end MatchStatesUpload

theorem snapshot_eq (u : MatchStatesUpload) :
    u.snapshot = u.sorted.map MatchStateDTO.modelDump := rfl

variable {u : MatchStatesUpload} {d : MatchStateDTO} {response versions : JsonObject}

theorem mem_sorted :
    d ∈ u.sorted ↔ d ∈ u.matchStates :=
  List.mem_insertionSort _

theorem sorted_pairwise (u : MatchStatesUpload) :
    u.sorted.Pairwise (fun d e => d.matchId.val ≤ e.matchId.val) :=
  @List.pairwise_insertionSort _ (fun d e : MatchStateDTO => d.matchId.val ≤ e.matchId.val) _
    ⟨fun _ _ => String.le_total _ _⟩ ⟨fun _ _ _ => String.le_trans⟩ u.matchStates

theorem orderedRows_snapshot (env : Env) (u : MatchStatesUpload) :
    orderedRows env u.snapshot = u.snapshot := by
  refine List.Pairwise.insertionSort_eq ?_
  rw [snapshot_eq, List.pairwise_map]
  exact sorted_pairwise u

theorem orderedSnapshot_snapshot (env : Env) (u : MatchStatesUpload) :
    orderedSnapshot env (u.snapshot.map .obj) = some u.snapshot := by
  have rows : ∀ f : Json → Option JsonObject, (∀ m, f (.obj m) = some m) →
      (u.snapshot.map Json.obj).filterMap f = u.snapshot := by
    intro f hf
    rw [List.filterMap_map, show f ∘ Json.obj = some from funext hf]
    exact List.filterMap_some
  unfold orderedSnapshot
  rw [rows _ (fun m => rfl), List.length_map]
  simp only [if_true]
  exact congrArg some (orderedRows_snapshot env u)

/-! ## What an import writes and logs -/

def MatchStatesUpload.entries (u : MatchStatesUpload) : List (String × MatchStatus) :=
  u.sorted.map (fun d => (d.matchId.val, d.status.canonical))

/-- The payload of a replacement. -/
def replacePayload (env : Env) (r : Replacement) (idempotencyKey : String)
    (versions response : JsonObject) : JsonObject :=
  [("idempotencyKey", .str idempotencyKey), ("sourceSchemaVersion", r.sourceSchemaVersion),
    ("snapshotDigest", .str (utf8Sha256 env
      (compactJson (.arr ((orderedRows env r.snapshot).map .obj))))),
    ("snapshot", .arr ((orderedRows env r.snapshot).map .obj)), ("resultingVersions", .obj versions),
    ("response", .obj response)]

theorem replaceImport_eq_ok {c : Settings} {x : Ambient} {t actorId : Uuid} {s s' : LiveStore}
    {r : Replacement} {key : String}
    (h : MatchStateApplication.replaceImport c x t actorId s r key = .ok (response, s')) :
    s' = s ∨ ∃ versions s₁ op, appendIfEventNode c s₁ x t op = .ok s' ∧
      op.commandType = "match_state.replace.v1" ∧
      op.payload = replacePayload c.env r key versions response ∧
      Writes t ((s.listForTournament t).flatMap (unnamedEntries r.statuses) ++
        (r.updates.insertionSort (fun p q => p.1 ≤ q.1)).flatMap (importEntries r.statuses)) s s₁ := by
  unfold MatchStateApplication.replaceImport at h
  split at h
  · cases h
  · simp only [bind_eq_ok] at h
    obtain ⟨operationId, -, h⟩ := h
    split at h
    · next existing _ =>
      simp only [bind_eq_ok] at h
      obtain ⟨replayed, -, h⟩ := h
      cases h
      exact Or.inl rfl
    · simp only [bind_eq_ok] at h
      obtain ⟨⟨versions₁, s₁⟩, unnamed, ⟨versions, s₂⟩, imported, s₃, appended, h⟩ := h
      simp only [Except.ok.injEq, Prod.mk.injEq] at h
      obtain ⟨rfl, rfl⟩ := h
      refine Or.inr ⟨versions, s₂, _, appended, rfl, rfl, ?_⟩
      have reset := resetStates_writes s t
      have rows : (s.resetStates t).2.listForTournament t = s.listForTournament t := rfl
      rw [rows] at unnamed
      exact (reset.trans (foldlM_writes (f := resetUnnamed t r.statuses)
        (fun _ _ _ h => resetUnnamed_writes h) unnamed)).trans
          (foldlM_writes (f := importMatch t r.statuses) (fun _ _ _ h => importMatch_writes h) imported)

theorem get_statuses (hd : d ∈ u.matchStates) :
    Assoc.get d.matchId.val u.replacement.statuses = some d.status.canonical := by
  refine Assoc.get_eq_some_of_mem ?_ (List.mem_map_of_mem hd)
  show ((u.matchStates.map _).map _).Nodup
  rw [List.map_map]
  exact u.distinct

theorem get_statuses_eq_none {id : String} :
    Assoc.get id u.replacement.statuses = none ↔ ∀ d ∈ u.matchStates, d.matchId.val ≠ id := by
  rw [Assoc.get_eq_none_iff, Assoc.keys, MatchStatesUpload.replacement, List.map_map]
  simp

theorem sorted_updates (u : MatchStatesUpload) :
    u.replacement.updates.insertionSort (fun p q => p.1 ≤ q.1) =
      u.sorted.map (fun d => (d.matchId.val, d.toFields)) :=
  (List.map_insertionSort (fun d e : MatchStateDTO => d.matchId.val ≤ e.matchId.val)
    (fun p q : String × MatchStateFields => p.1 ≤ q.1) (fun d => (d.matchId.val, d.toFields))
    u.matchStates (fun _ _ _ _ => Iff.rfl)).symm

theorem marks_import (u : MatchStatesUpload) (s : LiveStore) (t : Uuid) :
    marks ((s.listForTournament t).flatMap (unnamedEntries u.replacement.statuses) ++
        (u.replacement.updates.insertionSort (fun p q => p.1 ≤ q.1)).flatMap
          (importEntries u.replacement.statuses))
      (s.statusOf t) = marks u.entries (fun _ => .scheduled) := by
  have entries : (u.replacement.updates.insertionSort (fun p q => p.1 ≤ q.1)).flatMap
      (importEntries u.replacement.statuses) = u.entries := by
    rw [sorted_updates, List.flatMap_map, MatchStatesUpload.entries, List.map_eq_flatMap]
    refine List.flatMap_congr fun d hd => ?_
    simp [importEntries, get_statuses (mem_sorted.mp hd)]
  funext id
  rw [entries, marks_append]
  refine marks_congr ?_
  by_cases named : ∃ d ∈ u.matchStates, d.matchId.val = id
  · obtain ⟨d, hd, rfl⟩ := named
    exact Or.inr ⟨_, List.mem_map_of_mem (mem_sorted.mpr hd), rfl⟩
  · refine Or.inl (marks_resetUnnamed ?_)
    rw [get_statuses_eq_none]
    exact fun d hd same => named ⟨d, hd, same⟩

/-! ## What the cloud makes of it -/

theorem compactJson_eq_iff {j : Json} : compactJson j = canonicalJson j ↔ j.Plain := by
  rw [compactJson, canonicalJson, String.ofList_inj]
  exact Json.dumps_eq_iff

theorem compareDigest_utf8Sha256 (env : Env) (a b : String) :
    compareDigest (utf8Sha256 env a) (utf8Sha256 env b) =
      .ok (decide (utf8Sha256 env a = utf8Sha256 env b)) := by
  have ascii : ∀ c ∈ hexdigits, c.toNat < 128 := by decide
  unfold compareDigest
  rw [if_pos]
  rw [List.all_eq_true]
  intro c hc
  refine decide_eq_true (ascii c ?_)
  rw [List.mem_append] at hc
  exact hc.elim ((env.sha256 a).2.2 c) ((env.sha256 b).2.2 c)

/-- The state of a match that an import set. -/
def importedRow (o : OperationEnvelope) (versions : JsonObject) (d : MatchStateDTO) : JsonObject :=
  Assoc.merge (Assoc.erase "matchId" d.modelDump)
    (versionReceipt o ((Assoc.get d.matchId.val versions).getD .null))

def importedStates (o : OperationEnvelope) (versions : JsonObject) (u : MatchStatesUpload) :
    Section :=
  Assoc.merge [] (u.sorted.map (fun d => (d.matchId.val, importedRow o versions d)))

theorem replaceMatchStates_payload {env : Env} {o : OperationEnvelope} {key : String}
    (payload : o.payload = replacePayload env u.replacement key versions response)
    (d : ProjectionData) :
    replaceMatchStates o env d =
      if utf8Sha256 env (compactJson (.arr (u.snapshot.map .obj))) =
          utf8Sha256 env (canonicalJson (.arr (u.snapshot.map .obj))) then
        .ok { d with matchStates := importedStates o versions u }
      else invalidPayload "Match-state replacement digest is invalid" := by
  have rows : orderedRows env u.replacement.snapshot = u.snapshot := orderedRows_snapshot env u
  have folded := foldlM_set
    (f := fun states (d : MatchStateDTO) => replaceState o env versions states d.modelDump)
    (k := fun d => d.matchId.val) (r := importedRow o versions) (l := u.sorted)
    (fun d _ states => rfl) []
  have digest : pyStr env (getD "snapshotDigest" (.str "") o.payload) =
      utf8Sha256 env (compactJson (.arr (u.snapshot.map .obj))) := by
    rw [payload, replacePayload, rows]
    rfl
  have snapshot : Assoc.get "snapshot" o.payload = some (.arr (u.snapshot.map .obj)) := by
    rw [payload, replacePayload, rows]
    rfl
  have resulting : Assoc.get "resultingVersions" o.payload = some (.obj versions) := by
    rw [payload]
    rfl
  have schema : Assoc.get "sourceSchemaVersion" o.payload = some u.version := by
    rw [payload]
    rfl
  unfold replaceMatchStates
  simp only [snapshot, resulting, schema, orderedSnapshot_snapshot, digest,
    compareDigest_utf8Sha256, ok_bind, decide_eq_true_eq]
  rw [snapshot_eq, List.foldlM_map, folded]
  rfl

/-- The section holds exactly the uploaded documents, under each match its fields beside the ones
that every state carries. -/
structure HoldsUpload (states : Section) (u : MatchStatesUpload) : Prop where
  ids : ∀ id, (Assoc.get id states).isSome ↔ ∃ d ∈ u.matchStates, d.matchId.val = id
  fields : ∀ d ∈ u.matchStates, ∃ row, Assoc.get d.matchId.val states = some row ∧
    ∀ key, key ∉ ["matchId", "version", "operationId", "sequence", "acceptedAtNode"] →
      Assoc.get key row = Assoc.get key d.modelDump

theorem importedStates_keys (o : OperationEnvelope) (versions : JsonObject)
    (u : MatchStatesUpload) :
    Assoc.keys (u.sorted.map (fun d => (d.matchId.val, importedRow o versions d))) =
      u.sorted.map (fun d => d.matchId.val) := by
  rw [Assoc.keys, List.map_map]
  rfl

theorem sorted_nodup (u : MatchStatesUpload) : (u.sorted.map (fun d => d.matchId.val)).Nodup :=
  ((List.perm_insertionSort _ u.matchStates).map _).nodup_iff.mpr u.distinct

theorem get_importedStates (o : OperationEnvelope) (versions : JsonObject)
    (hd : d ∈ u.matchStates) :
    Assoc.get d.matchId.val (importedStates o versions u) = some (importedRow o versions d) := by
  have mem : (d.matchId.val, importedRow o versions d) ∈
      u.sorted.map (fun d => (d.matchId.val, importedRow o versions d)) :=
    List.mem_map_of_mem (mem_sorted.mpr hd)
  have nodup : (Assoc.keys (u.sorted.map
      (fun d => (d.matchId.val, importedRow o versions d)))).Nodup := by
    rw [importedStates_keys]
    exact sorted_nodup u
  exact Assoc.get_merge_of_mem nodup mem []

theorem importedStates_holds (o : OperationEnvelope) (versions : JsonObject)
    (u : MatchStatesUpload) : HoldsUpload (importedStates o versions u) u where
  ids id := by
    constructor
    · intro held
      by_contra unnamed
      have absent : Assoc.get id (importedStates o versions u) = none := by
        have free : id ∉ Assoc.keys (u.sorted.map
            (fun d => (d.matchId.val, importedRow o versions d))) := by
          rw [importedStates_keys]
          intro mem
          obtain ⟨d, hd, same⟩ := List.mem_map.mp mem
          exact unnamed ⟨d, mem_sorted.mp hd, same⟩
        exact Assoc.get_merge_of_not_mem free []
      rw [absent] at held
      cases held
    · rintro ⟨d, hd, rfl⟩
      rw [get_importedStates o versions hd]
      rfl
  fields d hd := by
    refine ⟨_, get_importedStates o versions hd, fun key free => ?_⟩
    simp only [List.mem_cons, not_or] at free
    rw [importedRow, get_merge_versionReceipt o _ _ (by simp [free])]
    exact Assoc.get_erase_of_ne (Ne.symm free.1) _

theorem importedStates_shown (o : OperationEnvelope) (versions : JsonObject)
    (u : MatchStatesUpload) (id : String) :
    shown (importedStates o versions u) id = some (marks u.entries (fun _ => .scheduled) id) := by
  refine shown_merge (fun d _ => ?_) (fun _ => rfl) id
  have stored : Assoc.get "status" (importedRow o versions d) = some (.str d.status.text) := by
    rw [importedRow, get_merge_versionReceipt o _ _ (by decide)]
    rfl
  rw [rowStatus_of_get stored, legacyToCanonical_text]

theorem conveys_replace {env : Env} {op : LocalOperation} {key : String} {b : Board}
    (command : op.commandType = "match_state.replace.v1")
    (payload : op.payload = replacePayload env u.replacement key versions response)
    (plain : u.Plain) : Conveys env op b (marks u.entries (fun _ => .scheduled)) := by
  intro o d hc ha hp shows
  refine ⟨{ setCompetition o d with matchStates := importedStates o versions u }, ?_,
    importedStates_shown o versions u⟩
  have replaced := replaceMatchStates_payload (hp.trans payload) (setCompetition o d)
  rw [if_pos (congrArg (utf8Sha256 env) (compactJson_eq_iff.mpr plain))] at replaced
  simp only [applyCloudProjectionData, applyCommand, hc, command]
  exact replaced

/-! ## Which imports the cloud accepts -/

/-- The cloud compares the two digests of the one operation that an import has logged. -/
theorem import_envelope {c : Settings} {x : Ambient} {t : Uuid} {s s' : LiveStore}
    {user : Option Uuid} {upload : MatchStatesUpload} {key : String} {response : JsonObject}
    (imported : importMatchStates c x t s user upload key = .ok (response, s'))
    {o : EventOperation} (stored : o ∈ s'.sync.operations.rows)
    (new : o ∉ s.sync.operations.rows) :
    ∃ versions : JsonObject, ∀ (column : Timestamp → Timestamp) (d : ProjectionData),
      applyCloudProjectionData (o.envelope column) c.env d =
        if utf8Sha256 c.env (compactJson (.arr (upload.snapshot.map .obj))) =
            utf8Sha256 c.env (canonicalJson (.arr (upload.snapshot.map .obj))) then
          .ok { setCompetition (o.envelope column) d with
            matchStates := importedStates (o.envelope column) versions upload }
        else invalidPayload "Match-state replacement digest is invalid" := by
  unfold importMatchStates at imported
  simp only [bind_eq_ok] at imported
  obtain ⟨_, -, actorId, -, imported⟩ := imported
  have accepted : MatchStateApplication.replaceImport c x t actorId s upload.replacement key =
      .ok (response, s') := by
    unfold valueConflict at imported
    split at imported
    · cases imported
    · exact imported
  rcases replaceImport_eq_ok accepted with rfl | ⟨versions, s₁, op, appended, command, payload, writes⟩
  · exact absurd stored new
  obtain ⟨-, ⟨-, same⟩ | ⟨n, o', logged⟩⟩ := appendIfEventNode_eq_ok appended
  · rw [same, writes.sync] at stored
    exact absurd stored new
  have rows := (appendLocalOperation_eq_ok logged).2.2.2.2.1
  rw [rows, writes.sync, List.mem_append, List.mem_singleton] at stored
  obtain rfl : o = o' := stored.resolve_left new
  obtain ⟨commandType, -, payload'⟩ := appendLocalOperation_records logged (by rw [command]; rfl)
  refine ⟨versions, fun column d => ?_⟩
  have applied : applyCloudProjectionData (o.envelope column) c.env d =
      replaceMatchStates (o.envelope column) c.env (setCompetition (o.envelope column) d) := by
    simp only [applyCloudProjectionData, applyCommand, EventOperation.envelope, commandType, command]
    rfl
  rw [applied, replaceMatchStates_payload (payload'.trans payload)]

/-- **Import digest.** The cloud accepts the operation of an import, and then holds exactly the
upload, if and only if every text of the upload is plain. The digest of the two texts that are
compared is assumed to tell them apart. -/
theorem import_accepted_iff {c : Settings} {x : Ambient} {t : Uuid} {s s' : LiveStore}
    {user : Option Uuid} {upload : MatchStatesUpload} {key : String} {response : JsonObject}
    (imported : importMatchStates c x t s user upload key = .ok (response, s'))
    {o : EventOperation} (stored : o ∈ s'.sync.operations.rows)
    (new : o ∉ s.sync.operations.rows)
    (distinct : c.env.sha256 (compactJson (.arr (upload.snapshot.map .obj))) =
        c.env.sha256 (canonicalJson (.arr (upload.snapshot.map .obj))) →
      compactJson (.arr (upload.snapshot.map .obj)) =
        canonicalJson (.arr (upload.snapshot.map .obj)))
    (column : Timestamp → Timestamp) (d : ProjectionData) :
    (∃ d', applyCloudProjectionData (o.envelope column) c.env d = .ok d' ∧
      HoldsUpload d'.matchStates upload) ↔ upload.Plain := by
  obtain ⟨versions, answered⟩ := import_envelope imported stored new
  rw [answered]
  constructor
  · rintro ⟨d', replaced, -⟩
    split at replaced
    · next same => exact compactJson_eq_iff.mp (distinct (Subtype.ext same))
    · simp [invalidPayload] at replaced
  · intro plain
    rw [if_pos (congrArg (utf8Sha256 c.env) (compactJson_eq_iff.mpr plain))]
    exact ⟨_, rfl, importedStates_holds _ _ _⟩

namespace ImportRehearsal

open Sync.Rehearsal (eventId idleNode laptop director now)

def plainNote : String := "retired hurt"

def umlautNote : String := "Zerrung am Fu\u00df"

def finished (note : String) (bounds : note.length ≤ 2000) : MatchStatesUpload where
  matchStates :=
    [ { matchId := ⟨"MS1-R1-M1", by decide⟩
        status := .finished
        score := some ⟨21, 15⟩
        notes := some ⟨note, Nat.zero_le _, bounds⟩ } ]
  distinct := by simp
  lastUpdated := .str now
  version := .str "1.0"

def plainUpload : MatchStatesUpload := finished plainNote (by decide)

def umlautUpload : MatchStatesUpload := finished umlautNote (by decide)

def env : Env :=
  { Sync.Rehearsal.env with
    deploymentProfile := "event_node"
    sha256 := fun text =>
      if text = compactJson (.arr (plainUpload.snapshot.map .obj)) then
        ⟨"c3be8dc66f09f811c57bde1c4c838e08559d92aadaaa041168944a77071f86f0", by decide +kernel⟩
      else if text = compactJson (.arr (umlautUpload.snapshot.map .obj)) then
        ⟨"28f48d13012d1fa866e239a062d175876a8c8fe2e89e502e5bf1e10bf43a6376", by decide +kernel⟩
      else if text = canonicalJson (.arr (umlautUpload.snapshot.map .obj)) then
        ⟨"e248fe9e561bceecb7bf4d3f9a3fc463d88b46d7e39f063551953dee312a84a8", by decide +kernel⟩
      else Sync.Rehearsal.env.sha256 text }

def settings : Settings := ⟨env, some laptop, id⟩

def ambient : Ambient :=
  ⟨none, ⟨[], [], "", "88888888-8888-4888-8888-888888888888", now⟩⟩

def courtside : LiveStore where
  sync := idleNode

def importing (upload : MatchStatesUpload) : Except LiveError (JsonObject × LiveStore) :=
  importMatchStates settings ambient eventId courtside (some director) upload "import-1"

/-- What the cloud answers to the logged operations of an import. -/
def answers (p : JsonObject × LiveStore) : List (Option Raised) :=
  p.2.sync.operations.rows.map (fun o =>
    match applyCloudProjectionData (o.envelope id) env {} with
    | .ok _ => none
    | .error e => some e)

theorem exists_operation (upload : MatchStatesUpload)
    (one : (importing upload).toOption.map (fun p => p.2.sync.operations.rows.length) = some 1) :
    ∃ response s' o, importing upload = .ok (response, s') ∧ s'.sync.operations.rows = [o] := by
  cases imported : importing upload with
  | error e =>
    rw [imported] at one
    cases one
  | ok p =>
    rw [imported] at one
    obtain ⟨o, rows⟩ := List.length_eq_one_iff.mp (Option.some_inj.mp one)
    exact ⟨p.1, p.2, o, rfl, rows⟩

theorem utf8Sha256_compact {text : String}
    (other : text ≠ compactJson (.arr (plainUpload.snapshot.map .obj)))
    (same : text = compactJson (.arr (umlautUpload.snapshot.map .obj))) :
    utf8Sha256 env text = "28f48d13012d1fa866e239a062d175876a8c8fe2e89e502e5bf1e10bf43a6376" := by
  unfold utf8Sha256 env
  dsimp only
  rw [if_neg other, if_pos same]

theorem utf8Sha256_canonical {text : String}
    (other : text ≠ compactJson (.arr (plainUpload.snapshot.map .obj)))
    (escaped : text ≠ compactJson (.arr (umlautUpload.snapshot.map .obj)))
    (same : text = canonicalJson (.arr (umlautUpload.snapshot.map .obj))) :
    utf8Sha256 env text = "e248fe9e561bceecb7bf4d3f9a3fc463d88b46d7e39f063551953dee312a84a8" := by
  unfold utf8Sha256 env
  dsimp only
  rw [if_neg other, if_neg escaped, if_pos same]

theorem umlaut_digests :
    utf8Sha256 env (compactJson (.arr (umlautUpload.snapshot.map .obj))) ≠
      utf8Sha256 env (canonicalJson (.arr (umlautUpload.snapshot.map .obj))) := by
  have compact : compactJson (.arr (umlautUpload.snapshot.map .obj)) ≠
      compactJson (.arr (plainUpload.snapshot.map .obj)) :=
    fun same => absurd (String.ofList_inj.mp same) (by decide +kernel)
  have canonical : canonicalJson (.arr (umlautUpload.snapshot.map .obj)) ≠
      compactJson (.arr (plainUpload.snapshot.map .obj)) :=
    fun same => absurd (String.ofList_inj.mp same) (by decide +kernel)
  have escaped : canonicalJson (.arr (umlautUpload.snapshot.map .obj)) ≠
      compactJson (.arr (umlautUpload.snapshot.map .obj)) :=
    fun same => absurd (compactJson_eq_iff.mp same.symm) (by decide +kernel)
  rw [utf8Sha256_compact compact rfl, utf8Sha256_canonical canonical escaped rfl]
  decide

end ImportRehearsal

open ImportRehearsal in
theorem import_accepted_iff_plain :
    ∃ response s' o, importing plainUpload = .ok (response, s') ∧
      s'.sync.operations.rows = [o] ∧ ∃ d', applyCloudProjectionData (o.envelope id) env {} = .ok d' ∧
        HoldsUpload d'.matchStates plainUpload := by
  obtain ⟨response, s', o, imported, rows⟩ := exists_operation plainUpload (by decide +kernel)
  refine ⟨response, s', o, imported, rows, ?_⟩
  have stored : o ∈ s'.sync.operations.rows := by simp [rows]
  have new : o ∉ courtside.sync.operations.rows := List.not_mem_nil
  exact (import_accepted_iff imported stored new (fun _ => compactJson_eq_iff.mpr (by decide +kernel))
    id {}).mpr (by decide +kernel)

open ImportRehearsal in
/-- A note with an umlaut: the node accepts the import, the cloud refuses its operation. -/
theorem umlaut_refused :
    (importing umlautUpload).toOption.map answers = some [some (.protocol
      ⟨409, "invalid_operation_payload", "Match-state replacement digest is invalid", []⟩)] := by
  obtain ⟨response, s', o, imported, rows⟩ := exists_operation umlautUpload (by decide +kernel)
  have stored : o ∈ s'.sync.operations.rows := by simp [rows]
  obtain ⟨versions, answered⟩ := import_envelope imported stored List.not_mem_nil
  have refused := (answered id {}).trans (if_neg umlaut_digests)
  have same : settings.env = env := rfl
  rw [same] at refused
  rw [imported]
  simp only [Except.toOption, Option.map_some, answers, rows, List.map_cons, List.map_nil, refused]
  rfl

end Operations
