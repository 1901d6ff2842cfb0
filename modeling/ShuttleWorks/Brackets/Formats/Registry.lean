import ShuttleWorks.Brackets.Formats.Compass
import ShuttleWorks.Brackets.Formats.DoubleElimination
import ShuttleWorks.Brackets.Formats.Monrad
import ShuttleWorks.Brackets.Formats.RoundRobin
import ShuttleWorks.Brackets.Formats.SingleElimination

/-! The format registry. Whatever format a draw is generated in, it is a drawn
draw, in plain rounds or in named segments. -/

namespace Brackets
open Lib

def normalizeDeConfig (config : JsonObject) : Except String Bool :=
  match Assoc.get "grand_final_reset" config with
  | none => .ok false
  | some (.bool reset) => .ok reset
  | some _ => .error "grand_final_reset must be a boolean"

def normalizeMonradConfig (config : JsonObject) : Except String String :=
  match Assoc.get "consolation" config with
  | none => .ok "full"
  | some (.str consolation) =>
    if consolation = "full" ∨ consolation = "plate" then .ok consolation
    else .error ("consolation must be 'full' or 'plate', got '" ++ consolation ++ "'")
  | some _ => .error "consolation must be 'full' or 'plate'"

/-- What a draw is generated from, besides its format and its participants. -/
structure DrawOptions where
  seededCount : Option Nat := none
  bracketSize : Option Nat := none
  rrRounds : Option Int := none
  durationSlots : Nat := 1
  config : JsonObject := []

/-- `_generate_draw`: the unit ids begin with the event's id. -/
def generateDraw (formatId : String) (participants : List Participant) (eventId : EventId)
    (options : DrawOptions) : Except String Draw :=
  if formatId = "se" then
    generateSingleElimination participants eventId eventId options.durationSlots
      options.seededCount options.bracketSize
  else if formatId = "rr" then
    generateRoundRobin participants (max 1 (options.rrRounds.getD 1)).toNat eventId eventId
      options.durationSlots
  else if formatId = "de" then
    (normalizeDeConfig options.config).bind fun reset =>
      generateDoubleElimination participants eventId eventId options.durationSlots
        options.seededCount options.bracketSize reset
  else if formatId = "monrad" then
    (normalizeMonradConfig options.config).bind fun consolation =>
      generateMonrad participants eventId eventId options.durationSlots options.seededCount
        options.bracketSize consolation
  else if formatId = "compass" then
    generateCompass participants eventId eventId options.durationSlots options.seededCount
      options.bracketSize
  else if formatId = "swiss" then
    (normalizeSwissConfig options.config participants.length).bind fun rounds =>
      generateSwiss participants eventId eventId options.durationSlots
        [("swiss_rounds", .int rounds)]
  else .error ("unknown draw format '" ++ formatId ++ "'")

def knockoutFormats : List String := ["se", "de", "monrad", "compass"]

/-- A generated draw: plain rounds, or segments in waves. -/
inductive Generated (formatId : String) (participants : List Participant) (eventId : EventId) :
    Draw → Prop
  | plain (event : Event) (rows : List (List PlayUnit)) (he : event.id = eventId)
      (rounds : PlainRounds eventId eventId rows)
      (routed : formatId ∈ knockoutFormats → Routed participants rows.flatten) :
      Generated formatId participants eventId (plainDraw event participants rows)
  | segments (d : Draw) (event : Event) (built : List BuiltSegment) (he : event.id = eventId)
      (layout : Layout formatId eventId eventId built) (routed : Routed participants (allUnits built))
      (assembled : assemble event participants built = .ok d) :
      Generated formatId participants eventId d

/-- **Every generated draw is in plain rounds or laid out in segments.** -/
theorem generateDraw_ok {formatId : String} {participants : List Participant} {eventId : EventId}
    {options : DrawOptions} {d : Draw}
    (h : generateDraw formatId participants eventId options = .ok d) :
    Generated formatId participants eventId d := by
  unfold generateDraw at h
  split at h
  · obtain ⟨seeded, k, -, -, rfl⟩ := generateSingleElimination_ok h
    exact .plain _ _ rfl (singleRounds_plain ..) (fun _ => singleRounds_routed ..)
  split at h
  · next rr =>
    obtain ⟨event, he, rfl⟩ := generateRoundRobin_ok h
    exact .plain event _ he (circleRounds_plain _) (fun hk => absurd (rr ▸ hk) (by decide))
  split at h
  · next de =>
    obtain ⟨reset, -, h⟩ := bind_eq_ok.mp h
    obtain ⟨seeded, j, four, -, h⟩ := generateDoubleElimination_ok h
    let dd : DoubleDraw :=
      { participants := participants, eventId := eventId, idPrefix := eventId
        durationSlots := options.durationSlots, j := j, reset := reset }
    rw [de]
    exact .segments d _ _ rfl (DoubleDraw.layout dd four) (DoubleDraw.routed dd four) h
  split at h
  · next monrad =>
    obtain ⟨consolation, -, h⟩ := bind_eq_ok.mp h
    obtain ⟨size, seeded, k, plan, -, -, -, spawn, h⟩ := generateMonrad_ok h
    rw [monrad]
    exact .segments d _ _ rfl spawn.layout (spawn.routed rfl) h
  split at h
  · next compass =>
    obtain ⟨size, seeded, k, -, spawn, h⟩ := generateCompass_ok h
    rw [compass]
    exact .segments d _ _ rfl spawn.layout (spawn.routed rfl) h
  split at h
  · next swiss =>
    obtain ⟨rounds, -, h⟩ := bind_eq_ok.mp h
    obtain ⟨event, he, rfl⟩ := generateSwiss_ok h
    exact .plain event _ he (swissRounds_plain _ _)
      (fun hk => absurd (swiss ▸ hk) (by decide))
  · cases h

namespace Generated

variable {formatId : String} {participants : List Participant} {eventId : EventId} {d : Draw}

/-- **A generated draw is drawn.** -/
theorem drawn (h : Generated formatId participants eventId d) : Drawn d ∧ d.event.id = eventId := by
  cases h with
  | plain event rows he rounds routed => exact ⟨rounds.drawn he participants, he⟩
  | segments d event built he layout routed assembled =>
    obtain ⟨d', ha, hev, -, -, -, -, drawn⟩ := layout.assemble_ok he participants
    obtain rfl : d' = d := Except.ok.inj (ha.symm.trans assembled)
    exact ⟨drawn, hev ▸ he⟩

theorem routed (h : Generated formatId participants eventId d) (hf : formatId ∈ knockoutFormats) :
    Routed participants d.playUnits.rows := by
  cases h with
  | plain event rows he rounds routed =>
    rw [rounds.rows_playUnits]
    exact routed hf
  | segments d event built he layout routed assembled =>
    obtain ⟨d', ha, -, -, rows, -, -, -⟩ := layout.assemble_ok he participants
    obtain rfl : d' = d := Except.ok.inj (ha.symm.trans assembled)
    rw [rows]
    exact routed

end Generated

end Brackets
