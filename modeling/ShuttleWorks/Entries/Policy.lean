import ShuttleWorks.Entries.Records

/-! What a selection of events costs and whether the page's policy allows it, and the
flags a player's gender raises. Caps refuse with their rule; flags never refuse. -/

namespace Entries
open Lib
open Sync (Uuid pyStrip)

/-! ## Gender -/

def malePersons : List String := ["m", "male", "men", "mens", "men's", "boys"]
def femalePersons : List String := ["f", "female", "women", "womens", "women's", "girls", "ladies"]
def anyPersons : List String := ["x", "mixed", "any", "open"]

/-- A written gender as `M`, `F`, `mixed` or itself. -/
def fold (p : Platform) (value : String) : Option String :=
  let folded := p.lower (pyStrip value)
  if folded = "" then none
  else if folded ∈ malePersons then some "M"
  else if folded ∈ femalePersons then some "F"
  else if folded ∈ anyPersons then some "mixed"
  else some folded

def genderFlags (p : Platform) (gender : String) (event : EntryEvent) : List String :=
  match event.genderConstraint.bind (fold p) with
  | none => []
  | some constraint =>
    if constraint = "mixed" then []
    else if fold p gender = some constraint then []
    else [genderMismatch]

theorem mem_genderFlags {p : Platform} {gender : String} {event : EntryEvent} {c : String}
    (h : c ∈ genderFlags p gender event) : c = genderMismatch := by
  unfold genderFlags at h
  split at h
  · simp at h
  · split at h
    · simp at h
    · split at h
      · simp at h
      · simpa using h

/-! ## Selections -/

def distinct : List EntryEvent → List EntryEvent
  | [] => []
  | e :: es => e :: (distinct es).filter (fun x => x.id ≠ e.id)

theorem mem_of_mem_distinct {e : EntryEvent} : ∀ {es : List EntryEvent}, e ∈ distinct es → e ∈ es
  | [], h => by simp [distinct] at h
  | x :: es, h => by
    simp only [distinct, List.mem_cons, List.mem_filter] at h
    rcases h with rfl | ⟨h, -⟩
    · exact List.mem_cons_self
    · exact List.mem_cons_of_mem _ (mem_of_mem_distinct h)

structure PolicyRefusal where
  code : String
  message : String
  subjects : List String

def capOf : Json → Option Int
  | .int n => some n
  | .bool b => some (if b then 1 else 0)
  | _ => none

def disciplineBreach (caps : JsonObject) (key : String) (events : List EntryEvent) :
    Option PolicyRefusal :=
  caps.findSome? (fun (discipline, cap) => do
    let cap ← capOf cap
    let selected := (events.filter (fun e => e.discipline = discipline)).length
    if cap < selected then
      some ⟨"DISCIPLINE_CAP", "This tournament allows at most " ++ toString cap ++ " " ++
        discipline ++ " event" ++ (if cap ≠ 1 then "s" else "") ++ " per player, and " ++
        toString selected ++ " were selected.", [key]⟩
    else none)

/-- The first breach of the page's policy, one person after the other. -/
def checkPolicy (page : EntryPage) : List (String × List EntryEvent) → Option PolicyRefusal
  | [] => none
  | (key, events) :: rest =>
    let events := distinct events
    match page.maxEventsPerPerson with
    | some limit =>
      if limit < events.length then
        some ⟨"MAX_EVENTS_PER_PERSON", "This tournament allows at most " ++ toString limit ++
          " event" ++ (if limit ≠ 1 then "s" else "") ++ " per player, and " ++
          toString events.length ++ " were selected. Please remove " ++
          toString ((events.length : Int) - limit) ++ " before submitting.", [key]⟩
      else
        match page.disciplineCaps with
        | some (.obj caps) => (disciplineBreach caps key events).or (checkPolicy page rest)
        | _ => checkPolicy page rest
    | none =>
      match page.disciplineCaps with
      | some (.obj caps) => (disciplineBreach caps key events).or (checkPolicy page rest)
      | _ => checkPolicy page rest

/-! ## Fees -/

/-- `int(value)` of a stored JSON value. -/
def intOfJson (p : Platform) : Json → Except IntError Int
  | .int n => .ok n
  | .bool b => .ok (if b then 1 else 0)
  | .str s =>
    match p.intOfText s with
    | some n => .ok n
    | none => .error .unreadable
  | .float t => p.intOfFloat t
  | _ => .error .unreadable

/-- One tier of the stored schedule. What cannot be read is left out, but an `OverflowError` is not
caught; the value is read only if the count can be. -/
def readTier (p : Platform) (out : List (Int × Int)) (tier : String × Json) :
    Except Refused (List (Int × Int)) :=
  match p.intOfText tier.1 with
  | none => .ok out
  | some count =>
    match intOfJson p tier.2 with
    | .ok cents => .ok (if 0 < count ∧ 0 ≤ cents then Assoc.set count cents out else out)
    | .error .unreadable => .ok out
    | .error .overflow =>
      .error (.exception "OverflowError" "cannot convert float infinity to integer")

/-- The price for every number of events. -/
def normalizeFeeSchedule (p : Platform) : Option Json → Except Refused (List (Int × Int))
  | some (.obj tiers) => tiers.foldlM (readTier p) []
  | _ => .ok []

/-- The tier for a number of events: the last one not above it, else the smallest. -/
def fromSchedule (schedule : List (Int × Int)) (count : Nat) : Option Int :=
  if count = 0 then none
  else
    match (Assoc.keys schedule).filter (fun t => t ≤ (count : Int)) with
    | t :: ts => Assoc.get (ts.foldl max t) schedule
    | [] =>
      match Assoc.keys schedule with
      | t :: ts => Assoc.get (ts.foldl min t) schedule
      | [] => none

def fromEvents (events : List EntryEvent) : Option Int :=
  match events.filterMap EntryEvent.feeCents with
  | [] => none
  | fees => some fees.sum

structure PlayerSelection where
  key : String
  events : List EntryEvent

def priceOf (schedule : List (Int × Int)) (s : PlayerSelection) : PlayerFee where
  key := s.key
  eventCount := (distinct s.events).length
  eventCodes := ((s.events.map EntryEvent.code).dedup).mergeSort (fun a b => a ≤ b)
  cents := if schedule = [] then fromEvents (distinct s.events)
    else fromSchedule schedule (distinct s.events).length

/-- The total of an act and how it was derived. -/
def computeFeeTotal (p : Platform) (page : EntryPage) (selections : List PlayerSelection) :
    Except Refused (Option Int × FeeBasis) := do
  let schedule ← normalizeFeeSchedule p page.feeSchedule
  let players := selections.map (priceOf schedule)
  let priced := players.filterMap PlayerFee.cents
  let total := if priced = [] then none else some priced.sum
  .ok (total, { basis := if schedule ≠ [] then "schedule"
                  else if total.isSome then "per_event" else "unpriced"
                currency := page.feeCurrency.filter (fun c => c ≠ "")
                scheduleUsed := if schedule = [] then none
                  else some (schedule.mergeSort (fun a b => a.1 ≤ b.1))
                players := players
                totalCents := total })

end Entries
