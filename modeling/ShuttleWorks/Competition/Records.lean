import ShuttleWorks.Entries.Records

/-! The competition rows of one tournament: events under a format, the units that
compete in them and the memberships of players in units, with the tournament's own
document and the participants of its brackets. Writes go through the database's
guards: the unique keys of memberships, and the triggers that let a roster change
only while its unit is not confirmed and a unit be confirmed only at a legal size. -/

namespace Competition
open Lib Entries
open Sync (Uuid)

/-! ## Rows -/

inductive UnitStatus
  | pending | confirmed | withdrawn
  deriving DecidableEq, Repr

inductive MemberStatus
  | active | withdrawn
  deriving DecidableEq, Repr

inductive Origin
  | entry | manual
  deriving DecidableEq, Repr

/-- A roster format; its bounds are checked when it is published. -/
structure EventFormatVersion where
  id : Uuid
  rosterMin : Nat
  rosterMax : Nat
  positive : 0 < rosterMin
  ordered : rosterMin ≤ rosterMax

structure CompetitionEvent where
  id : Uuid
  categoryCode : String
  formatVersionId : Uuid
  bracketEventId : Option String := none
  meetEventId : Option String := none

structure CompetitionUnit where
  id : Uuid
  competitionEventId : Uuid
  projectionKey : Option String := none
  seed : Option Int := none
  attributes : JsonObject := []
  status : UnitStatus := .pending
  version : Nat := 1
  deriving DecidableEq

structure UnitMembership where
  id : Uuid
  unitId : Uuid
  competitionEventId : Uuid
  playerId : Uuid
  entryId : Option Uuid
  slot : Nat
  origin : Origin
  status : MemberStatus := .active
  deriving DecidableEq

structure DrawInstance where
  id : Uuid
  competitionEventId : Uuid
  status : String

structure BracketEvent where
  id : String
  discipline : String
  status : String

structure BracketParticipant where
  bracketEventId : String
  id : String
  unitId : Option Uuid
  name : String
  type : String
  entryPlayerId : Option Uuid
  memberIds : List String
  seed : Option Int
  metadata : JsonObject

def BracketParticipant.key (x : BracketParticipant) : String × String := (x.bracketEventId, x.id)

/-- What a command reports of a membership. -/
structure Outcome where
  entryId : Option Uuid
  unitId : Uuid
  membershipId : Uuid
  competitionEventId : Uuid
  status : MemberStatus
  outcome : String := "bound"
  deriving DecidableEq

def outcome (m : UnitMembership) (result : String := "bound") : Outcome :=
  ⟨m.entryId, m.unitId, m.id, m.competitionEventId, m.status, result⟩

/-- What a move was asked for, under its request identity. -/
structure Fingerprint where
  entryId : Uuid
  competitionEventId : Uuid
  unitId : Option Uuid
  expectedVersion : Nat
  targetVersion : Option Nat
  deriving DecidableEq

inductive AuditPayload
  | memberships (results : List Outcome)
  | move (before after : Outcome) (request : Option Fingerprint)
  | member (outcome : Outcome)
  | unit (unitId : Uuid)
  deriving DecidableEq

structure CompetitionAudit where
  action : String
  payload : AuditPayload
  actorId : Option String := none
  requestId : Option String := none

structure Tournament where
  id : Uuid
  kind : String
  data : JsonObject
  stateVersion : Nat

structure Workspace where
  tournament : Tournament
  registry : Registry
  formats : Table EventFormatVersion.id
  events : Table CompetitionEvent.id
  units : Table CompetitionUnit.id
  memberships : Table UnitMembership.id
  draws : Table DrawInstance.id
  bracketEvents : Table BracketEvent.id
  participants : Table BracketParticipant.key
  audits : List CompetitionAudit := []

namespace Workspace

variable (ws : Workspace) {m : UnitMembership} {u : CompetitionUnit}

/-! ## Reads -/

def membersOf (unit : Uuid) : List UnitMembership :=
  (ws.memberships.rows.filter (fun m => m.unitId = unit)).mergeSort (fun m m' => m.slot ≤ m'.slot)

def activeMembersOf (unit : Uuid) : List UnitMembership :=
  (ws.membersOf unit).filter (fun m => m.status = .active)

def membershipFor (entry : Uuid) : Option UnitMembership :=
  ws.memberships.rows.find? (fun m => m.entryId = some entry)

def nextSlot (unit : Uuid) : Nat :=
  1 + ((ws.membersOf unit).map UnitMembership.slot).foldl max 0

def formatOf (event : Uuid) : Option EventFormatVersion :=
  (ws.events.get event).bind (fun e => ws.formats.get e.formatVersionId)

/-- The number of active members lies within the bounds of the event's format. -/
def LegalSize (unit : Uuid) (event : Uuid) : Prop :=
  ∃ f, ws.formatOf event = some f ∧ f.rosterMin ≤ (ws.activeMembersOf unit).length ∧
    (ws.activeMembersOf unit).length ≤ f.rosterMax

instance (unit event : Uuid) : Decidable (ws.LegalSize unit event) :=
  match h : ws.formatOf event with
  | none => .isFalse (fun ⟨_, hf, _⟩ => by simp [h] at hf)
  | some f => decidable_of_iff (f.rosterMin ≤ (ws.activeMembersOf unit).length ∧
      (ws.activeMembersOf unit).length ≤ f.rosterMax) (by simp [LegalSize, h])

def ConfirmedUnit (unit : Uuid) : Prop :=
  ∃ u, ws.units.get unit = some u ∧ u.status = .confirmed

instance (unit : Uuid) : Decidable (ws.ConfirmedUnit unit) :=
  match h : ws.units.get unit with
  | none => .isFalse (fun ⟨_, hu, _⟩ => by simp [h] at hu)
  | some u => decidable_of_iff (u.status = .confirmed) (by simp [ConfirmedUnit, h])

/-! ## Writes -/

/-- The unique keys of memberships, for a row to be written under its id. -/
def UniqueMember (m : UnitMembership) : Prop :=
  ∀ x ∈ ws.memberships.rows, x.id ≠ m.id →
    ¬ (x.competitionEventId = m.competitionEventId ∧ x.playerId = m.playerId) ∧
    ¬ (x.unitId = m.unitId ∧ x.slot = m.slot) ∧
    ¬ (x.entryId.isSome ∧ x.entryId = m.entryId)

instance (m : UnitMembership) : Decidable (ws.UniqueMember m) :=
  inferInstanceAs (Decidable (∀ x ∈ ws.memberships.rows, _))

def OfUnit (m : UnitMembership) : Prop :=
  ∃ u, ws.units.get m.unitId = some u ∧ u.competitionEventId = m.competitionEventId

instance (m : UnitMembership) : Decidable (ws.OfUnit m) :=
  match h : ws.units.get m.unitId with
  | none => .isFalse (fun ⟨_, hu, _⟩ => by simp [h] at hu)
  | some u => decidable_of_iff (u.competitionEventId = m.competitionEventId)
      (by simp [OfUnit, h])

def insertMember (m : UnitMembership) : Except Refused Workspace := do
  require (ws.UniqueMember m) (.integrity "unit_memberships")
  require (ws.OfUnit m) (.integrity "unit_memberships.unit_id")
  require (¬ ws.ConfirmedUnit m.unitId)
    (.integrity "Move the unit to pending before editing its roster")
  let memberships ← found (ws.memberships.insert m) (.integrity "unit_memberships.id")
  .ok { ws with memberships := memberships }

/-- UPDATE of the membership with the row's id; a row as it stands is not written. -/
def updateMember (m : UnitMembership) : Except Refused Workspace :=
  match ws.memberships.get m.id with
  | none => .error .missing
  | some old =>
    if old = m then .ok ws
    else do
      require (ws.UniqueMember m) (.integrity "unit_memberships")
      require (ws.OfUnit m) (.integrity "unit_memberships.unit_id")
      require (¬ ws.ConfirmedUnit m.unitId ∧ ¬ ws.ConfirmedUnit old.unitId)
        (.integrity "Move both units to pending before editing their roster")
      .ok { ws with memberships := ws.memberships.put m }

def insertUnit (u : CompetitionUnit) : Except Refused Workspace := do
  require (u.status ≠ .confirmed)
    (.integrity "Create the unit pending before adding members")
  let units ← found (ws.units.insert u) (.integrity "competition_units.id")
  .ok { ws with units := units }

/-- UPDATE of the unit with the row's id. A flush that changes the row counts its version up,
unless the caller did. -/
def updateUnit (u : CompetitionUnit) : Except Refused Workspace :=
  match ws.units.get u.id with
  | none => .error .missing
  | some old =>
    if old = u then .ok ws
    else do
      require (old.competitionEventId = u.competitionEventId)
        (.integrity "Move memberships to another unit instead")
      require (u.status = .confirmed → old.status ≠ .confirmed →
        ws.LegalSize u.id u.competitionEventId)
        (.integrity "Roster size is outside format bounds")
      let version := if u.version = old.version then old.version + 1 else u.version
      .ok { ws with units := ws.units.put { u with version := version } }

/-! ## What a write leaves alone -/

variable {ws} {ws' : Workspace}

theorem updateMember_frame (h : ws.updateMember m = .ok ws') :
    ∃ old, ws.memberships.get m.id = some old ∧ ((old = m ∧ ws' = ws) ∨
      (ws.UniqueMember m ∧ ws.OfUnit m ∧ ¬ ws.ConfirmedUnit m.unitId ∧
        ¬ ws.ConfirmedUnit old.unitId ∧ ws' = { ws with memberships := ws.memberships.put m })) := by
  unfold updateMember at h
  split at h
  · cases h
  · next old found =>
    refine ⟨old, found, ?_⟩
    split at h
    · next same =>
      cases h
      exact Or.inl ⟨same, rfl⟩
    · simp only [bind_eq_ok, require_eq_ok] at h
      obtain ⟨⟨⟩, unique, ⟨⟩, ofUnit, ⟨⟩, unconfirmed, h⟩ := h
      cases h
      exact Or.inr ⟨unique, ofUnit, unconfirmed.1, unconfirmed.2, rfl⟩

theorem updateUnit_frame (h : ws.updateUnit u = .ok ws') :
    ∃ old, ws.units.get u.id = some old ∧ ((old = u ∧ ws' = ws) ∨
      (old.competitionEventId = u.competitionEventId ∧
        (u.status = .confirmed → old.status ≠ .confirmed → ws.LegalSize u.id u.competitionEventId) ∧
        ∃ version, ws' = { ws with units := ws.units.put { u with version := version } })) := by
  unfold updateUnit at h
  split at h
  · cases h
  · next old found =>
    refine ⟨old, found, ?_⟩
    split at h
    · next same =>
      cases h
      exact Or.inl ⟨same, rfl⟩
    · simp only [bind_eq_ok, require_eq_ok] at h
      obtain ⟨⟨⟩, event, ⟨⟩, legal, h⟩ := h
      cases h
      exact Or.inr ⟨event, legal, _, rfl⟩

theorem updateMember_registry (h : ws.updateMember m = .ok ws') :
    ws'.registry = ws.registry := by
  obtain ⟨_, -, ⟨-, rfl⟩ | ⟨-, -, -, -, rfl⟩⟩ := updateMember_frame h <;> rfl

theorem updateUnit_registry (h : ws.updateUnit u = .ok ws') :
    ws'.registry = ws.registry := by
  obtain ⟨_, -, ⟨-, rfl⟩ | ⟨-, -, _, rfl⟩⟩ := updateUnit_frame h <;> rfl

end Workspace

end Competition
