import ShuttleWorks.Competition.Projection

/-! Roster edits translated into competition rows: a document's players and the groups they form
in each event. Identities of memberships and old units are retained; the consumer shapes are
regenerated from the rows afterwards. -/

namespace Competition
open Lib Entries
open Sync (Uuid pyStrip parseUuid)

variable (p : Platform)

/-! ## The catalog -/

def catalogNamespace : Uuid := "b5834c82-a2bd-493f-9d07-c98ac5c46c87"

def catalogId (key : String) : Uuid := p.uuid5 catalogNamespace key

def catalogFormats : List EventFormatVersion :=
  [⟨catalogId p "singles/1", 1, 1, Nat.one_pos, Nat.le_refl 1⟩,
    ⟨catalogId p "doubles/1", 2, 2, Nat.two_pos, Nat.le_refl 2⟩,
    ⟨catalogId p "mixed/1", 2, 2, Nat.two_pos, Nat.le_refl 2⟩]

def seedCatalog (ws : Workspace) : Workspace :=
  let seeded := (catalogFormats p).foldl
    (fun formats f => if formats.Has f.id then formats else formats.put f) ws.formats
  { ws with formats := seeded }

/-! ## Events -/

/-- The event under its bracket or its meet, where it names none yet. -/
def linkEvent (code : String) (bracket : Bool) (event : CompetitionEvent) : CompetitionEvent :=
  if bracket then
    if event.bracketEventId = none then { event with bracketEventId := some code } else event
  else if event.meetEventId = none then { event with meetEventId := some code } else event

/-- The event with a code, created on first use. -/
def ensureEvent (ws : Workspace) (code : String) (size : Nat) (bracket : Bool) :
    Except Refused (Workspace × CompetitionEvent) :=
  match ws.events.rows.find? (fun e => e.categoryCode = code) with
  | some event =>
    let event := linkEvent code bracket event
    .ok ({ ws with events := ws.events.put event }, event)
  | none => do
    let (id, ws) := (seedCatalog p ws).mint p
    let event : CompetitionEvent :=
      { id := id, categoryCode := code
        formatVersionId := catalogId p (if size = 2 then "doubles/1" else "singles/1")
        bracketEventId := if bracket then some code else none
        meetEventId := if bracket then none else some code }
    let events ← found (ws.events.insert event) (.integrity "competition_events.id")
    .ok ({ ws with events := events }, event)

/-! ## Players -/

def rowId (row : JsonObject) : String := (textMember "id" row).getD ""

def NamesPlayer (key : String) : Prop := (rosterId "").toList.isPrefixOf key.toList = true

instance (key : String) : Decidable (NamesPlayer key) := inferInstanceAs (Decidable (_ = true))

/-- The registration player a row declares, itself or through its key. -/
def declaredId (row : JsonObject) : Option String :=
  match (textMember "entryPlayerId" row).filter (fun s => s ≠ "") with
  | some declared => some declared
  | none =>
    if NamesPlayer (rowId row) then
      some (String.ofList ((rowId row).toList.drop (rosterId "").toList.length))
    else none

/-- The player's id: the declared one, else one derived from the row's key. -/
def playerIdent (tournament : Uuid) (row : JsonObject) : Option Uuid :=
  match (declaredId row).filter (fun s => s ≠ "") with
  | some declared => parseUuid declared
  | none => some (p.uuid5 tournament ("roster:" ++ rowId row))

def columnMembers : List String :=
  ["id", "name", "ranks", "partnerPlayerIds", "entryPlayerId", "sourceEntryId",
    "representation", "remarks"]

/-- The text under a key that may be absent: `none` where the key is. -/
def optionMember (k : String) (row : JsonObject) : Option (Option String) :=
  (Assoc.get k row).map textOf

/-- A player rewritten from a row; an erased one keeps its scrubbed columns. -/
def describe (row : JsonObject) (name : String) (player : EntryPlayer) : EntryPlayer :=
  let player :=
    if player.erasedAt.isSome then player
    else { player with
      fullName := name
      representation := (optionMember "representation" row).getD player.representation
      remarks := (optionMember "remarks" row).getD player.remarks }
  { player with
    rosterKey := some (rowId row)
    rosterAttributes := row.filter (fun kv => kv.1 ∉ columnMembers) }

def Workspace.putPlayer (ws : Workspace) (player : EntryPlayer) : Workspace :=
  { ws with registry := { ws.registry with players := ws.registry.players.put player } }

def ingestPlayer (ws : Workspace) (row : JsonObject) : Except Refused (Workspace × Uuid) := do
  let ident ← found (playerIdent p ws.tournament.id row)
    (.competition "INVALID_PLAYER" "Registration player ids must be valid UUIDs")
  require (NamesPlayer (rowId row) → ws.registry.players.Has ident)
    (.competition "INVALID_PLAYER" "The registration player does not exist in this tournament")
  let name ← found (textMember "name" row)
  let player := (ws.registry.players.get ident).getD
    { id := ident, fullName := name, gender := textOr (textMember "gender" row) "unknown" }
  .ok (ws.putPlayer (describe row name player), ident)

def ingestPlayers : Workspace → List JsonObject →
    Except Refused (Workspace × List (String × Uuid))
  | ws, [] => .ok (ws, [])
  | ws, row :: rows => do
    let (ws, ident) ← ingestPlayer p ws row
    let (ws, players) ← ingestPlayers ws rows
    .ok (ws, (rowId row, ident) :: players)

/-! ## Memberships -/

def insertManual (ws : Workspace) (unit event player : Uuid) : Except Refused Workspace :=
  let (id, ws) := ws.mint p
  ws.insertMember { id := id, unitId := unit, competitionEventId := event, playerId := player,
                    entryId := none, slot := ws.nextSlot unit, origin := .manual }

def openUnits : Workspace → List CompetitionUnit → Except Refused Workspace
  | ws, [] => .ok ws
  | ws, u :: us => do
    let ws ← ws.updateUnit { u with status := .pending, version := u.version + 1 }
    openUnits ws us

def keyed (rows : List JsonObject) : List (String × JsonObject) :=
  rows.foldl (fun acc row => Assoc.set (rowId row) row acc) []

def unitsOf (ws : Workspace) (event : Uuid) : List CompetitionUnit :=
  ws.units.rows.filter (fun u => u.competitionEventId = event)

/-! ## A document -/

/-- `document.get(key) or []`. -/
def rosterMember (key : String) (document : JsonObject) : Json :=
  match Assoc.get key document with
  | some v => if v.truthy then v else .arr []
  | none => .arr []

def ranksOf (row : JsonObject) : List String :=
  match Assoc.get "ranks" row with
  | some (.arr xs) => xs.filterMap textOf
  | _ => []

def partnersMember (row : JsonObject) : Json := (Assoc.get "partnerPlayerIds" row).getD (.obj [])

def partnerText (code : String) (row : JsonObject) : Option String :=
  match partnersMember row with
  | .obj kvs => textMember code kvs
  | _ => none

def partnerOf (code : String) (row : JsonObject) : Option String :=
  (partnerText code row).filter (fun s => s ≠ "")

/-- The roster mode an edit is made in: the document's, the stored one's or the kind's. -/
def ingestMode (ws : Workspace) (document : JsonObject) : Bool :=
  bracketMode ws document || truthyMember "bracketPlayers" ws.tournament.data

/-- Rows whose ranks or partners differ; a missing row is an empty one. -/
def RowChanged (old new : JsonObject) : Prop :=
  ¬ (ranksOf old ⊆ ranksOf new ∧ ranksOf new ⊆ ranksOf old) ∨
    Json.same (partnersMember old) (partnersMember new) = false

instance (old new : JsonObject) : Decidable (RowChanged old new) :=
  inferInstanceAs (Decidable (_ ∨ _))

/-- The codes of every changed row, sorted. -/
def changedCodes (old new : List (String × JsonObject)) : List String :=
  (((Assoc.keys old ++ Assoc.keys new).flatMap (fun key =>
    let before := (Assoc.get key old).getD []
    let after := (Assoc.get key new).getD []
    if RowChanged before after then ranksOf before ++ ranksOf after else [])).dedup).mergeSort
      (fun a b => a ≤ b)

def desiredRows (code : String) (rows : List JsonObject) : List (String × JsonObject) :=
  (rows.filter (fun row => code ∈ ranksOf row)).map (fun row => (rowId row, row))

def pairCode (code : String) : Bool :=
  ["MD", "WD", "XD"].any (fun c => c.toList.isPrefixOf code.toList)

def groupSize (code : String) (desired : List (String × JsonObject)) : Nat :=
  if pairCode code ∨ desired.any (fun x => (partnerOf code x.2).isSome) then 2 else 1

local instance textsLawful : LawfulBEq (Option String) := inferInstance

/-- The groups the rows of a code declare; a declared partner must enter it too, and be
free for this pair. -/
def groupsOf (code : String) (desired : List (String × JsonObject)) :
    List (String × JsonObject) → List String → Except Refused (List (List String))
  | [], _ => .ok []
  | (key, row) :: rest, visited =>
    if key ∈ visited then groupsOf code desired rest visited
    else
      match partnerOf code row with
      | none => do
        let groups ← groupsOf code desired rest (key :: visited)
        .ok ([key] :: groups)
      | some partner => do
        let peer ← found (if partner = key ∨ partner ∈ visited then none
            else Assoc.get partner desired)
          (.competition "INVALID_PAIR" "Both distinct partners must enter the event")
        require (partnerText code peer ∈ [none, some key]) (.competition "INVALID_PAIR"
          "The partner is already paired with another player")
        let groups ← groupsOf code desired rest (key :: partner :: visited)
        .ok ([key, partner] :: groups)

def withdrawUnwanted (wanted : List Uuid) : Workspace → List UnitMembership →
    Except Refused Workspace
  | ws, [] => .ok ws
  | ws, m :: ms =>
    if m.playerId ∉ wanted ∧ m.status = .active then do
      let left := { m with status := .withdrawn }
      let ws ← ws.updateMember left
      withdrawUnwanted wanted (ws.audit { action := "withdraw", payload := .member (outcome left) })
        ms
    else withdrawUnwanted wanted ws ms

/-- One player of a group seated in its unit, as a new membership or the one there was. -/
def seatPlayer (existing : List UnitMembership) (unit event : Uuid) (ws : Workspace)
    (player : Uuid) : Except Refused Workspace :=
  match existing.find? (fun m => m.playerId = player) with
  | none => insertManual p ws unit event player
  | some old => do
    let m ← found (ws.memberships.get old.id)
    let moved := if m.unitId = unit then m else { m with unitId := unit, slot := ws.nextSlot unit }
    let seated := { moved with status := .active }
    let ws ← ws.updateMember seated
    .ok (if outcome m = outcome seated then ws
      else ws.audit { action := "re_pair", payload := .move (outcome m) (outcome seated) none })

def seatPlayers (existing : List UnitMembership) (unit event : Uuid) :
    Workspace → List Uuid → Except Refused Workspace
  | ws, [] => .ok ws
  | ws, player :: players => do
    let ws ← seatPlayer p existing unit event ws player
    seatPlayers existing unit event ws players

/-- Every group in the unit its players formed before, or in a new one. -/
def seatGroups (existing : List UnitMembership) (oldGroups : List (Uuid × List Uuid))
    (event : Uuid) : Workspace → List Uuid → List (List Uuid) →
      Except Refused (Workspace × List Uuid)
  | ws, used, [] => .ok (ws, used)
  | ws, used, group :: groups => do
    let (unit, ws) ← match oldGroups.find? (fun x => x.2 ⊆ group ∧ group ⊆ x.2 ∧ x.1 ∉ used) with
      | some old => .ok (old.1, ws)
      | none => unitOrNew p ws event none
    let ws ← seatPlayers p existing unit event ws group
    seatGroups existing oldGroups event ws (used ++ [unit]) groups

/-- Used units settle; others without active members are withdrawn. -/
def settleUnits (used : List Uuid) : Workspace → List Uuid → Except Refused Workspace
  | ws, [] => .ok ws
  | ws, unit :: units =>
    if unit ∈ used then do
      let ws ← settleUnit ws unit
      settleUnits used ws units
    else if ws.activeMembersOf unit = [] then do
      let u ← found (ws.units.get unit)
      let ws ← ws.updateUnit { u with status := .withdrawn }
      settleUnits used ws units
    else settleUnits used ws units

/-- Rewrite the memberships of one code from the document's rows. -/
def ingestCode (players : List (String × Uuid)) (rows : List JsonObject) (ws : Workspace)
    (code : String) : Except Refused Workspace := do
  let desired := desiredRows code rows
  let (ws, event) ← ensureEvent p ws code (groupSize code desired) false
  assertEditable ws event
  let groups ← groupsOf code desired desired []
  let groups := groups.map (fun group => group.filterMap (fun key => Assoc.get key players))
  let existing := ws.memberships.rows.filter (fun m => m.competitionEventId = event.id)
  let units := unitsOf ws event.id
  let oldGroups := units.map (fun u => (u.id, (existing.filter (fun m =>
    m.unitId = u.id ∧ m.status = .active)).map UnitMembership.playerId))
  let ws ← openUnits ws units
  let wanted := (Assoc.keys desired).filterMap (fun key => Assoc.get key players)
  let ws ← withdrawUnwanted wanted ws existing
  let (ws, used) ← seatGroups p existing oldGroups event.id ws [] groups
  let old := units.map CompetitionUnit.id
  settleUnits used ws (old ++ used.filter (fun unit => unit ∉ old))

def ingestCodes (players : List (String × Uuid)) (rows : List JsonObject) :
    Workspace → List String → Except Refused Workspace
  | ws, [] => .ok ws
  | ws, code :: codes => do
    let ws ← ingestCode p players rows ws code
    ingestCodes players rows ws codes

def strikeMembers : Workspace → List UnitMembership → Except Refused Workspace
  | ws, [] => .ok ws
  | ws, m :: ms => do
    let event ← found (ws.events.get m.competitionEventId)
    assertEditable ws event
    let unit ← found (ws.units.get m.unitId)
    let ws ← ws.updateUnit { unit with status := .pending, version := unit.version + 1 }
    let left := { m with status := .withdrawn }
    let ws ← ws.updateMember left
    strikeMembers (ws.audit { action := "withdraw", payload := .member (outcome left) }) ms

/-- Players whose rows are gone lose their key, and on a bracket roster their units. -/
def strikePlayers (inBracket : Bool) : Workspace → List EntryPlayer → Except Refused Workspace
  | ws, [] => .ok ws
  | ws, player :: players => do
    let ws := ws.putPlayer { player with rosterKey := none }
    let ws ← if inBracket then
        strikeMembers ws (ws.memberships.rows.filter (fun m =>
          m.playerId = player.id ∧ m.status = .active))
      else .ok ws
    strikePlayers inBracket ws players

def ingestDocument (ws : Workspace) (document : JsonObject) : Except Refused Workspace :=
  let inBracket := ingestMode ws document
  let key := if inBracket then "bracketPlayers" else "players"
  if Assoc.get key document = none then .ok ws
  else if Json.same (rosterMember key document)
      ((Assoc.get key ws.tournament.data).getD (.arr [])) then .ok ws
  else do
    let rows := objectsOf key document
    let old := keyed (objectsOf key ws.tournament.data)
    require ((rows.map rowId).Nodup)
      (.competition "INVALID_ROSTER" "Roster player ids must be unique")
    let (ws, players) ← ingestPlayers p ws rows
    let removed := (Assoc.keys old).filter (fun id => id ∉ rows.map rowId)
    let ws ← strikePlayers inBracket ws (ws.registry.players.rows.filter (fun x =>
      x.rosterKey.any (fun id => decide (id ∈ removed)) = true))
    if inBracket then .ok ws
    else ingestCodes p players rows ws (changedCodes old (keyed rows))

end Competition
