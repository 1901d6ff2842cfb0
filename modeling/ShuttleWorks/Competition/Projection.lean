import ShuttleWorks.Competition.Records

/-! Consumer shapes built from players, units and memberships: the roster of the
tournament's document and the participants of brackets that are not drawn yet; and how units are
settled and memberships withdrawn. -/

namespace Competition
open Lib Entries
open Sync (Uuid pyStrip)

/-! ## Members of a document -/

def textOf : Json → Option String
  | .str s => some s
  | _ => none

def textMember (k : String) (row : JsonObject) : Option String := (Assoc.get k row).bind textOf

def truthyMember (k : String) (row : JsonObject) : Bool := (Assoc.get k row).any Json.truthy

/-- `row.get(k) or []`, for an array of objects. -/
def objectsOf (k : String) (row : JsonObject) : List JsonObject :=
  match Assoc.get k row with
  | some (.arr xs) => xs.filterMap (fun x => match x with | .obj kvs => some kvs | _ => none)
  | _ => []

def optionText : Option String → Json
  | some s => .str s
  | none => .null

def textOr (x : Option String) (d : String) : String :=
  match x with
  | some s => if s = "" then d else s
  | none => d

def rosterId (playerId : Uuid) : String := "entry-" ++ playerId

def rosterKey (player : EntryPlayer) : String := textOr player.rosterKey (rosterId player.id)

def bracketMode (ws : Workspace) (document : JsonObject) : Bool :=
  ws.tournament.kind = "bracket" || truthyMember "bracketPlayers" document ||
    !ws.bracketEvents.rows.isEmpty

/-! ## The roster -/

def assignments (ws : Workspace) (player : Uuid) : List UnitMembership :=
  (ws.memberships.rows.mergeSort (fun m m' => m.slot ≤ m'.slot)).filter
    (fun m => m.playerId = player)

def eventCode (e : CompetitionEvent) : String := textOr e.meetEventId e.categoryCode

def codeOf (ws : Workspace) (m : UnitMembership) : Option String :=
  (ws.events.get m.competitionEventId).map eventCode

def rankCodes (ws : Workspace) (player : Uuid) : List String :=
  ((((assignments ws player).filter (fun m => m.status = .active)).filterMap
    (codeOf ws)).dedup).mergeSort (fun a b => a ≤ b)

def peersOf (ws : Workspace) (m : UnitMembership) : List UnitMembership :=
  (ws.activeMembersOf m.unitId).filter (fun x => x.playerId ≠ m.playerId)

/-- The one other active member of a membership's unit, by event code and roster key. -/
def pairOf (ws : Workspace) (m : UnitMembership) : Option (String × String) :=
  match peersOf ws m with
  | [peer] => do
    let code ← codeOf ws m
    let player ← ws.registry.players.get peer.playerId
    some (code, rosterKey player)
  | _ => none

def pairsOf (ws : Workspace) (player : Uuid) : List (String × String) :=
  (((assignments ws player).filter (fun m => m.status = .active)).filterMap (pairOf ws)).foldl
    (fun pairs pair => Assoc.set pair.1 pair.2 pairs) []

/-- The groups of a document, and the group of each school name. -/
structure Grouping where
  groups : List Json
  names : List (String × Json)

def schoolName (p : Platform) (name : String) : String := p.casefold (pyStrip name)

def groupName (p : Platform) (g : JsonObject) : String :=
  schoolName p ((textMember "name" g).getD "")

def groupingOf (p : Platform) (document : JsonObject) : Grouping where
  groups := match Assoc.get "groups" document with
    | some (.arr xs) => xs
    | _ => []
  names := (objectsOf "groups" document).foldl
    (fun names g => Assoc.set (groupName p g) ((Assoc.get "id" g).getD .null) names) []

def schoolDigest (p : Platform) (ws : Workspace) (school : String) : String :=
  String.ofList (((p.uuid5 ws.tournament.id (schoolName p school)).toList.filter
    (fun c => c ≠ '-')).take 20)

/-- The group a roster row belongs to; a school without a group gets one. -/
def groupFor (p : Platform) (ws : Workspace) (player : EntryPlayer) (row : JsonObject)
    (grouping : Grouping) : Json × Grouping :=
  let school := textOr player.club "Unknown school"
  let kept := (Assoc.get "groupId" row).getD .null
  if kept.truthy then (kept, grouping)
  else
    let known := (Assoc.get (schoolName p school) grouping.names).getD .null
    if known.truthy then (known, grouping)
    else
      let id := Json.str ("school-" ++ schoolDigest p ws school)
      (id, { groups := grouping.groups ++ [.obj [("id", id), ("name", .str school)]],
             names := Assoc.set (schoolName p school) id grouping.names })

def Listed (ws : Workspace) (player : EntryPlayer) : Prop :=
  (∃ m ∈ assignments ws player.id, m.status = .active) ∨ textOr player.rosterKey "" ≠ ""

instance (ws : Workspace) (player : EntryPlayer) : Decidable (Listed ws player) :=
  inferInstanceAs (Decidable (_ ∨ _))

/-- The members of a roster row that hold in either mode. -/
def identityRow (ws : Workspace) (player : EntryPlayer) : JsonObject :=
  let source := ((assignments ws player.id).filterMap UnitMembership.entryId).head?
  let row := Assoc.merge player.rosterAttributes
    [("id", .str (rosterKey player)), ("name", .str player.fullName),
      ("entryPlayerId", .str player.id), ("representation", optionText player.representation),
      ("remarks", optionText player.remarks)]
  Assoc.set "sourceEntryId" (optionText source) row

/-- A row of the meet roster, with its group, its ranks and its partners. -/
def meetRow (p : Platform) (ws : Workspace) (player : EntryPlayer) (grouping : Grouping) :
    JsonObject × Grouping :=
  let row := identityRow ws player
  let (group, grouping) := groupFor p ws player row grouping
  let row := Assoc.set "groupId" group row
  let row := Assoc.set "ranks" (.arr ((rankCodes ws player.id).map Json.str)) row
  (Assoc.set "partnerPlayerIds"
    (.obj ((pairsOf ws player.id).map (fun pair => (pair.1, .str pair.2)))) row, grouping)

def meetRows (p : Platform) (ws : Workspace) : List EntryPlayer → Grouping →
    List JsonObject × Grouping
  | [], grouping => ([], grouping)
  | player :: players, grouping =>
    let (row, grouping) := meetRow p ws player grouping
    let (rows, grouping) := meetRows p ws players grouping
    (row :: rows, grouping)

def listedPlayers (ws : Workspace) : List EntryPlayer :=
  ws.registry.players.rows.filter (fun x => Listed ws x)

/-- The document with its roster written anew. -/
def projectedDocument (p : Platform) (ws : Workspace) : JsonObject :=
  let document := ws.tournament.data
  if bracketMode ws document then
    Assoc.set "bracketPlayers"
      (.arr ((listedPlayers ws).map (fun x => .obj (identityRow ws x)))) document
  else
    let (rows, grouping) := meetRows p ws (listedPlayers ws) (groupingOf p document)
    Assoc.set "groups" (.arr grouping.groups)
      (Assoc.set "players" (.arr (rows.map Json.obj)) document)

/-! ## Participants -/

def drawnStates : List String := ["generated", "started", "completed"]

def participantId (unit : CompetitionUnit) : String :=
  textOr unit.projectionKey ("unit-" ++ unit.id)

def participantOf (ws : Workspace) (bracket : String) (unit : CompetitionUnit) :
    BracketParticipant :=
  let members := ws.activeMembersOf unit.id
  let players := members.filterMap (fun m => ws.registry.players.get m.playerId)
  let single : Option UnitMembership := match members with | [m] => some m | _ => none
  { bracketEventId := bracket
    id := participantId unit
    unitId := some unit.id
    name := String.intercalate " / " (players.map EntryPlayer.fullName)
    type := if single.isSome then "PLAYER" else "TEAM"
    entryPlayerId := single.map UnitMembership.playerId
    memberIds := players.map rosterKey
    seed := unit.seed
    metadata := match single.bind UnitMembership.entryId with
      | some entry => Assoc.set "sourceEntryId" (.str entry) unit.attributes
      | none => unit.attributes }

def entrants (ws : Workspace) (event : Uuid) : List CompetitionUnit :=
  ws.units.rows.filter (fun u => u.competitionEventId = event ∧ u.status = .confirmed)

/-- The participants of one undrawn bracket written anew. -/
def projectBracket (ws : Workspace) (event : CompetitionEvent) (bracket : BracketEvent) :
    Workspace :=
  let units := entrants ws event.id
  let written := units.foldl (fun participants u =>
    participants.put (participantOf ws bracket.id u)) ws.participants
  { ws with participants := written.remove (fun x =>
      x.bracketEventId = bracket.id ∧ x.unitId.isSome ∧ x.id ∉ units.map participantId) }

def projectBrackets (ws : Workspace) : List CompetitionEvent → Workspace
  | [] => ws
  | event :: events =>
    match event.bracketEventId.bind ws.bracketEvents.get with
    | none => projectBrackets ws events
    | some bracket =>
      if bracket.status ∈ drawnStates then projectBrackets ws events
      else projectBrackets (projectBracket ws event bracket) events

def project (p : Platform) (ws : Workspace) (advanceVersion : Bool := true) : Workspace :=
  let document := projectedDocument p ws
  let tournament :=
    if Json.same (.obj document) (.obj ws.tournament.data) then ws.tournament
    else { ws.tournament with
      data := document
      stateVersion := ws.tournament.stateVersion + if advanceVersion then 1 else 0 }
  projectBrackets { ws with tournament := tournament } ws.events.rows

/-! ## What a projection leaves alone -/

theorem projectBrackets_frame (events : List CompetitionEvent) (ws : Workspace) :
    ∃ participants, projectBrackets ws events = { ws with participants := participants } := by
  induction events generalizing ws with
  | nil => exact ⟨ws.participants, rfl⟩
  | cons event events ih =>
    unfold projectBrackets
    split
    · exact ih ws
    · split
      · exact ih ws
      · obtain ⟨participants, h⟩ := ih (projectBracket ws event _)
        exact ⟨participants, h⟩

theorem project_frame (p : Platform) (ws : Workspace) (advanceVersion : Bool) :
    ∃ tournament participants, project p ws advanceVersion =
      { ws with tournament := tournament, participants := participants } := by
  obtain ⟨participants, h⟩ := projectBrackets_frame ws.events.rows _
  exact ⟨_, participants, h⟩

@[simp] theorem project_registry (p : Platform) (ws : Workspace) (b : Bool) :
    (project p ws b).registry = ws.registry := by
  obtain ⟨_, _, h⟩ := project_frame p ws b
  rw [h]

/-! ## Settling units

Each step works on the rows of one transaction, which its caller commits or drops. -/

section service

variable (p : Platform)

def Workspace.mint (ws : Workspace) : Uuid × Workspace :=
  let (id, registry) := ws.registry.mint p
  (id, { ws with registry := registry })

def Workspace.audit (ws : Workspace) (row : CompetitionAudit) : Workspace :=
  { ws with audits := ws.audits ++ [row] }

def eventFor (ws : Workspace) (event : Option Uuid) : Except Refused CompetitionEvent :=
  found (event.bind ws.events.get)
    (.competition "UNMAPPABLE_EVENT" "Choose a competition event before binding")

/-- The event has a draw, as its own instance or as its bracket. -/
def Drawn (ws : Workspace) (event : CompetitionEvent) : Prop :=
  (∃ d ∈ ws.draws.rows, d.competitionEventId = event.id ∧ d.status ∈ drawnStates) ∨
    ((event.bracketEventId.bind ws.bracketEvents.get).any
      (fun b => decide (b.status ∈ drawnStates)) = true)

instance (ws : Workspace) (event : CompetitionEvent) : Decidable (Drawn ws event) :=
  inferInstanceAs (Decidable (_ ∨ _))

def assertEditable (ws : Workspace) (event : CompetitionEvent) : Except Refused Unit :=
  require (¬ Drawn ws event) (.competition "DRAW_NOT_EDITABLE"
    "This event has a draw; roster changes require a draw revision")

/-- A unit is confirmed at a legal roster size and pending below it. -/
def settleUnit (ws : Workspace) (unit : Uuid) : Except Refused Workspace := do
  let u ← found (ws.units.get unit)
  let event ← eventFor ws (some u.competitionEventId)
  let fmt ← found (ws.formats.get event.formatVersionId)
  let count := (ws.activeMembersOf unit).length
  require (count ≤ fmt.rosterMax) (.competition "ROSTER_SIZE"
    ("This format allows at most " ++ toString fmt.rosterMax ++ " players"))
  ws.updateUnit { u with status :=
    if fmt.rosterMin ≤ count ∧ count ≤ fmt.rosterMax then .confirmed else .pending }

/-- The unit to bind into: the partner's, or a new one. -/
def unitOrNew (ws : Workspace) (target : Uuid) : Option CompetitionUnit →
    Except Refused (Uuid × Workspace)
  | some unit => .ok (unit.id, ws)
  | none => do
    let (id, ws) := ws.mint p
    let ws ← ws.insertUnit { id := id, competitionEventId := target }
    .ok (id, ws)

/-! ## Withdrawing -/

/-- Withdraw the membership an entry was bound with; its unit falls back to pending. -/
def withdrawMembership (ws : Workspace) (entryId : Uuid) (actorId : Option String := none) :
    Except Refused Workspace :=
  match ws.membershipFor entryId with
  | none => .ok ws
  | some member =>
    if member.status = .withdrawn then .ok ws
    else do
      let unit ← found (ws.units.get member.unitId)
      let ws ← ws.updateUnit { unit with version := unit.version + 1, status := .pending }
      let member := { member with status := .withdrawn }
      let ws ← ws.updateMember member
      .ok (project p (ws.audit { action := "withdraw", payload := .member (outcome member),
                                 actorId := actorId }))

theorem withdrawMembership_registry {ws ws' : Workspace} {entryId : Uuid}
    {actorId : Option String} (h : withdrawMembership p ws entryId actorId = .ok ws') :
    ws'.registry = ws.registry := by
  unfold withdrawMembership at h
  split at h
  · cases h
    rfl
  · split at h
    · cases h
      rfl
    · simp only [bind_eq_ok] at h
      obtain ⟨_, -, _, opened, _, left, h⟩ := h
      cases h
      rw [project_registry]
      exact (Workspace.updateMember_registry left).trans (Workspace.updateUnit_registry opened)

end service

end Competition
