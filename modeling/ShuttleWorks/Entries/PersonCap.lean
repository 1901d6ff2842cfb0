import Mathlib.Data.List.Dedup
import ShuttleWorks.Entries.Guarantees
import ShuttleWorks.Entries.IntakeRule
import ShuttleWorks.Entries.Recording

/-! How many events a person may hold. The cap of a page is checked for the selections of one act,
while the person whom they attach to is found when the act is written, and may hold entries by
then. -/

namespace Entries
open Lib
open Sync (Uuid)

variable {p : Platform} {r r' : Registry} {person : Uuid} {n : Nat} {invites : List (Uuid × String)}
  {form : SubmissionForm} {created : List Uuid} {x : EntryPlayer} {specs : List PlayerInput}

/-! ## The public form -/

inductive SubmitRefused
  | reviewChanged (message : String)
  | refused (e : Refused)

/-- What a browser posts: the form's blocks as they were parsed, with their indices, and the quote
that was shown. The form bills nothing yet. -/
structure PublicForm where
  form : SubmissionForm
  parsed : List (Nat × String)
  reviewedQuote : String

def refusing {α : Type} (x : Except Refused α) : Except SubmitRefused α :=
  x.mapError SubmitRefused.refused

def demand (holds : Prop) [Decidable holds] (message : String) : Except SubmitRefused Unit :=
  if holds then .ok () else .error (.reviewChanged message)

/-- One block's events, all of them open. -/
def refreshEvents (r : Registry) (now : Instant) (events : List Uuid) :
    Except SubmitRefused (List EntryEvent) :=
  events.mapM (fun id => do
    let event ← refusing (found (r.events.get id))
    demand (EventIsOpen event now) "An event has closed"
    .ok event)

/-- The blocks with the rows of their events. -/
def groupBlocks (r : Registry) (now : Instant) (f : PublicForm) :
    Except SubmitRefused (List PlayerSelection) :=
  (f.form.players.zipIdx).mapM (fun (spec, i) => do
    let events ← refreshEvents r now spec.events
    let block ← refusing (found f.parsed[i]?)
    .ok ⟨toString block.1, events⟩)

def createSubmissionAndCharge (p : Platform) (r : Registry) (f : PublicForm) (now : Instant) :
    Except SubmitRefused (Registry × SubmissionResult) :=
  match replay r f.form.idempotencyKey f.form.accountId with
  | some replayed => .ok (r, replayed)
  | none => do
    let page ← refusing (found r.page)
    demand (page.isOpen = true ∧ r.checkedOut = false) "Entries are closed"
    let grouped ← groupBlocks r now f
    let (total, basis) ← refusing (computeFeeTotal p page grouped)
    demand ((checkPolicy page (grouped.map fun s => (s.key, s.events))).isNone = true ∧
        f.reviewedQuote = p.quote (f.parsed.map Prod.snd) total basis page.regulationsVersion
          page.feeCurrency)
      "Review the current price and regulations before submitting"
    refusing (createSubmission p r
      { f.form with feeTotalCents := total, feeBasis := some basis } now)

/-! ## Runs -/

inductive Intake
  | submit (f : PublicForm) (now : Instant)
  | accept (entry : Uuid) (a : Acceptance) (now : Instant)

def held (r : Registry) (person : Uuid) : Nat :=
  r.entries.rows.countP (fun e => e.entryPlayerId = some person ∧ e.state ∈ liveStates)

def Capped (m : Int) (r : Registry) : Prop := ∀ x ∈ r.players.rows, (held r x.id : Int) ≤ m

/-- The act takes place, under a page that allows so many events per person. -/
def Takes (p : Platform) (m : Int) (r : Registry) (act : Intake) (r' : Registry) : Prop :=
  (∃ page, r.page = some page ∧ page.maxEventsPerPerson = some m) ∧
    match act with
    | .submit f now => ∃ result, createSubmissionAndCharge p r f now = .ok (r', result)
    | .accept entry a now => ∃ half, accept p r entry a now = .ok (r', half)

/-! ## When the cap holds -/

def picks (spec : PlayerInput) : Nat := spec.events.dedup.length

/-- The events of the blocks that name a person who is there. -/
def claims (p : Platform) (r : Registry) (account : Uuid) (specs : List PlayerInput)
    (person : Uuid) : Nat :=
  ((specs.filter fun s => (samePerson p r account s).map EntryPlayer.id = some person).map
    picks).sum

/-- A block names the person of an earlier one. -/
def NamesAgain (p : Platform) (earlier later : PlayerInput) : Prop :=
  later.birthYear ≠ none ∧ earlier.birthYear = later.birthYear ∧
    p.sqlLower (Sync.pyStrip earlier.fullName) = p.lower (Sync.pyStrip later.fullName)

instance (earlier later : PlayerInput) : Decidable (NamesAgain p earlier later) :=
  inferInstanceAs (Decidable (_ ∧ _ ∧ _))

/-- The later blocks that name the new person of a block. -/
def repeats (p : Platform) (r : Registry) (account : Uuid) (spec : PlayerInput)
    (later : List PlayerInput) : List PlayerInput :=
  later.filter fun s => samePerson p r account s = none ∧ NamesAgain p spec s

/-- The blocks of an act, with what their persons hold, are within the cap. -/
structure Fits (p : Platform) (m : Int) (r : Registry) (account : Uuid)
    (specs : List PlayerInput) : Prop where
  known : ∀ x ∈ r.players.rows, (held r x.id + claims p r account specs x.id : Int) ≤ m
  new : ∀ before spec later, specs = before ++ spec :: later →
    samePerson p r account spec = none →
      (picks spec + ((repeats p r account spec later).map picks).sum : Int) ≤ m

/-- The block that an acceptance writes. -/
def partnerSpec (a : Acceptance) (event : Uuid) : PlayerInput where
  fullName := cut 200 a.fullName
  gender := cut 20 a.gender
  club := nonBlank (a.club.map (cut 200))
  remarks := nonBlank (a.remarks.map (cut 2000))
  birthYear := a.birthYear
  events := [event]

/-- What an act would write fits. -/
def Room (p : Platform) (m : Int) (r : Registry) : Intake → Prop
  | .submit f _ => replay r f.form.idempotencyKey f.form.accountId = none →
      Fits p m r f.form.accountId f.form.players
  | .accept entry a _ => ∀ e, r.entries.get entry = some e →
      Fits p m r a.accountId [partnerSpec a e.entryEventId]

/-! ## What the writes add to a person -/

def Entry.hold (e : Entry) : Option Uuid × EntryState := (e.entryPlayerId, e.state)

def holds (r : Registry) : List (Option Uuid × EntryState) := r.entries.rows.map Entry.hold

theorem held_eq (r : Registry) (person : Uuid) :
    held r person = (holds r).countP fun h => h.1 = some person ∧ h.2 ∈ liveStates := by
  rw [held, holds, List.countP_map]
  rfl

theorem holds_flush : FlushRule fun r r' => holds r' = holds r where
  refl _ := rfl
  trans h h' := h'.trans h
  tables entries _ := by rw [holds, entries, holds]
  added found _ := Table.map_rows_put found rfl

/-- So many entries of one person are added, and the persons stay. -/
structure Gains (r r' : Registry) (person : Uuid) (n : Nat) : Prop where
  players : r'.players = r.players
  holds : ∃ new, holds r' = holds r ++ new ∧ new.length = n ∧ ∀ h ∈ new, h.1 = some person

theorem Gains.refl (r : Registry) (person : Uuid) : Gains r r person 0 :=
  ⟨rfl, [], by simp, rfl, by simp⟩

theorem Gains.trans {r'' : Registry} {m : Nat} (h : Gains r r' person m)
    (h' : Gains r' r'' person n) : Gains r r'' person (m + n) := by
  obtain ⟨new, grown, len, own⟩ := h.holds
  obtain ⟨new', grown', len', own'⟩ := h'.holds
  refine ⟨h'.players.trans h.players, new ++ new', ?_, by simp [len, len'], ?_⟩
  · rw [grown', grown, List.append_assoc]
  · intro x hx
    exact (List.mem_append.mp hx).elim (own x) (own' x)

theorem mapReasons_players (f : List String → List String) (id : Uuid) :
    (r.mapReasons f id).players = r.players := by
  unfold Registry.mapReasons
  split <;> rfl

theorem mapReasons_holds (f : List String → List String) (id : Uuid) :
    holds (r.mapReasons f id) = holds r := by
  unfold Registry.mapReasons
  split
  · rfl
  · next e found =>
    obtain rfl := Table.key_of_get found
    exact Table.map_rows_put found rfl

theorem flagConflict_players (ids : List Uuid) : (flagConflict r ids).players = r.players := by
  induction ids generalizing r with
  | nil => rfl
  | cons id ids ih => exact (ih (r := r.mapReasons _ id)).trans (mapReasons_players _ id)

theorem nominate_players {id : Uuid} {email : String} {now : Instant} {token : Option String}
    (ok : nominate p r id email now = .ok (r', token)) : r'.players = r.players := by
  unfold nominate at ok
  split at ok
  · cases ok
    rfl
  · simp only [bind_eq_ok, Registry.mint, Registry.insertInvitation] at ok
    obtain ⟨_, -, r₁, ⟨_, -, invitations, -, inserted⟩, ok⟩ := ok
    cases inserted
    cases ok
    exact mapReasons_players _ _

theorem nominateNamed_players {e : Entry} {spec : PlayerInput} {event : EntryEvent} {now : Instant}
    (ok : nominateNamed p r spec e event now = .ok (r', invites)) : r'.players = r.players := by
  unfold nominateNamed at ok
  split at ok
  · cases ok
    rfl
  · split at ok
    · simp only [bind_eq_ok] at ok
      obtain ⟨⟨r₁, token⟩, nominated, ok⟩ := ok
      have first := nominate_players nominated
      cases token with
      | none =>
        cases ok
        exact first
      | some token =>
        obtain ⟨rfl, -⟩ := Prod.mk.inj (Except.ok.inj ok)
        split
        · exact first
        · exact (flagConflict_players _).trans first
    · cases ok
      rfl

theorem writeEntry_gains {submission id : Uuid} {person : Person} {event : EntryEvent}
    {share : Option Int} {now : Instant}
    (ok : writeEntry p r form submission person event share now = .ok (r', id, invites)) :
    Gains r r' person.player.id 1 := by
  unfold writeEntry at ok
  simp only [bind_eq_ok, found_eq_ok, Registry.mint] at ok
  obtain ⟨e, placed, entries, inserted, ⟨r₁, invites₁⟩, nominated, ok⟩ := ok
  cases ok
  have core := congrArg Core.entryPlayerId (placeEntry_core placed)
  have added := (Table.insert_eq_some.mp inserted).2
  have kept := nominateNamed_players nominated
  refine ⟨kept, [e.hold], ?_, rfl, ?_⟩
  · rw [holds_flush.nominateNamed nominated, holds, added, List.map_append, List.map_singleton]
    rfl
  · intro h mem
    obtain rfl := List.mem_singleton.mp mem
    exact core

theorem writeEntries_gains {submission : Uuid} {person : Person} {now : Instant}
    {l : List (Option Int × EntryEvent)}
    (ok : writeEntries p form submission person now r l = .ok (r', created, invites)) :
    Gains r r' person.player.id l.length := by
  induction l generalizing r created invites with
  | nil =>
    cases ok
    exact .refl _ _
  | cons x l ih =>
    obtain ⟨share, event⟩ := x
    simp only [writeEntries, bind_eq_ok] at ok
    obtain ⟨⟨r₁, id, first⟩, one, ⟨r₂, ids, rest⟩, others, ok⟩ := ok
    cases ok
    rw [List.length_cons, Nat.add_comm]
    exact (writeEntry_gains one).trans (ih others)

/-! ## Who a block names -/

/-- The row is the person whom a block names. -/
def Names (p : Platform) (account : Uuid) (spec : PlayerInput) (x : EntryPlayer) : Prop :=
  account ∈ x.representatives ∧ x.birthYear = spec.birthYear ∧
    p.sqlLower x.fullName = p.lower (Sync.pyStrip spec.fullName) ∧ x.erasedAt = none

instance (account : Uuid) (spec : PlayerInput) (x : EntryPlayer) :
    Decidable (Names p account spec x) := inferInstanceAs (Decidable (_ ∧ _))

theorem samePerson_eq (account : Uuid) (spec : PlayerInput) : samePerson p r account spec =
    if spec.birthYear = none then none
    else r.players.rows.find? fun x => Names p account spec x := rfl

/-- A person adopted or minted. -/
inductive Met (p : Platform) (r : Registry) (account : Uuid) (spec : PlayerInput)
    (player : EntryPlayer) : Registry → Prop
  | adopted (x : EntryPlayer) (same : samePerson p r account spec = some x)
      (id : player.id = x.id)
      (names : ∀ s, Names p account s player ↔ Names p account s x) :
      Met p r account spec player { r with players := r.players.put player }
  | minted (players : Table EntryPlayer.id) (drawn : Nat)
      (none : samePerson p r account spec = none) (fresh : ¬ r.players.Has player.id)
      (rows : players.rows = r.players.rows ++ [player])
      (names : ∀ s, s.birthYear ≠ Option.none → Names p account s player → NamesAgain p spec s) :
      Met p r account spec player { r with players := players, drawn := drawn }

theorem adoptOrMint_met {account : Uuid} {spec : PlayerInput} {blankClears adopted : Bool}
    {player : EntryPlayer}
    (ok : adoptOrMint p r account spec blankClears = .ok (r', player, adopted)) :
    Met p r account spec player r' := by
  unfold adoptOrMint at ok
  simp only [bind_eq_ok] at ok
  obtain ⟨representation, -, ok⟩ := ok
  split at ok
  · next none_ =>
    simp only [bind_eq_ok, Registry.mint, found_eq_ok] at ok
    obtain ⟨players, inserted, ok⟩ := ok
    cases ok
    obtain ⟨fresh, rows⟩ := Table.insert_eq_some.mp inserted
    refine .minted players _ none_ fresh rows fun s known names => ⟨known, names.2.1, names.2.2.1⟩
  · next x same =>
    cases ok
    exact .adopted x same rfl fun s => Iff.rfl

theorem samePerson_put {account : Uuid} {player : EntryPlayer} (hx : x ∈ r.players.rows)
    (id : player.id = x.id) (names : ∀ s, Names p account s player ↔ Names p account s x)
    (s : PlayerInput) :
    (samePerson p { r with players := r.players.put player } account s).map EntryPlayer.id =
      (samePerson p r account s).map EntryPlayer.id := by
  simp only [samePerson_eq]
  split
  · rfl
  have has : r.players.Has player.id := Table.has_iff.mpr ⟨x, hx, id.symm⟩
  have rows : (r.players.put player).rows =
      r.players.rows.map fun y => if y.id = player.id then player else y :=
    Table.rows_put_of_has has
  have same : ∀ y ∈ r.players.rows,
      decide (Names p account s (if y.id = player.id then player else y)) =
        decide (Names p account s y) := by
    intro y hy
    split
    · next at_y =>
      obtain rfl := Table.eq_of_key_eq hy hx (at_y.trans id)
      exact decide_eq_decide.mpr (names s)
    · rfl
  rw [rows, List.find?_map, Option.map_map]
  have found : r.players.rows.find? ((fun y => decide (Names p account s y)) ∘
      fun y => if y.id = player.id then player else y) =
        r.players.rows.find? fun y => Names p account s y := by
    rw [← List.head?_filter, ← List.head?_filter]
    congr 1
    exact List.filter_congr same
  rw [found]
  congr 1
  funext y
  rw [Function.comp_apply]
  split
  · next at_y => exact at_y.symm
  · rfl

theorem samePerson_append {account : Uuid} {player : EntryPlayer} {players : Table EntryPlayer.id}
    {drawn : Nat} (rows : players.rows = r.players.rows ++ [player]) (s : PlayerInput) :
    samePerson p { r with players := players, drawn := drawn } account s =
      (samePerson p r account s).or
        (if s.birthYear ≠ none ∧ Names p account s player then some player else none) := by
  simp only [samePerson_eq, rows, List.find?_append]
  split
  · next unknown => simp [unknown]
  · next known =>
    congr 1
    by_cases names : Names p account s player <;> simp [names, known]

theorem samePerson_mem {account : Uuid} {s : PlayerInput} (h : samePerson p r account s = some x) :
    x ∈ r.players.rows := by
  rw [samePerson_eq] at h
  split at h
  · cases h
  · exact List.mem_of_find?_eq_some h

/-! ## Sums over blocks -/

theorem sum_filter_mono {q q' : PlayerInput → Prop} [DecidablePred q] [DecidablePred q']
    (more : ∀ s ∈ specs, q s → q' s) :
    ((specs.filter fun s => q s).map picks).sum ≤ ((specs.filter fun s => q' s).map picks).sum := by
  induction specs with
  | nil => exact le_rfl
  | cons s specs ih =>
    have later := ih fun s hs => more s (List.mem_cons_of_mem _ hs)
    rw [List.filter_cons, List.filter_cons]
    by_cases here : q s
    · have here' := more s List.mem_cons_self here
      simp only [here, here', decide_true, if_true, List.map_cons, List.sum_cons]
      omega
    · by_cases here' : q' s
      · simp only [here, here', decide_true, decide_false, if_true, List.map_cons, List.sum_cons,
          Bool.false_eq_true, if_false]
        omega
      · simpa [here, here'] using later

/-! ## One block after the other -/

theorem Gains.held_self (h : Gains r r' person n) :
    held r' person ≤ held r person + n := by
  obtain ⟨new, grown, len, -⟩ := h.holds
  rw [held_eq, held_eq, grown, List.countP_append, ← len]
  exact Nat.add_le_add_left List.countP_le_length _

theorem Gains.held_other {id : Uuid} (h : Gains r r' person n) (other : id ≠ person) :
    held r' id = held r id := by
  obtain ⟨new, grown, -, own⟩ := h.holds
  have nothing : new.countP (fun x => x.1 = some id ∧ x.2 ∈ liveStates) = 0 := by
    rw [List.countP_eq_zero]
    intro x hx
    simp [own x hx, Ne.symm other]
  rw [held_eq, held_eq, grown, List.countP_append, nothing, Nat.add_zero]

def Referenced (r : Registry) : Prop := ∀ h ∈ holds r, ∀ id, h.1 = some id → r.players.Has id

theorem Referenced.held_absent (refs : Referenced r) {id : Uuid} (absent : ¬ r.players.Has id) :
    held r id = 0 := by
  rw [held_eq, List.countP_eq_zero]
  intro x hx
  simp only [decide_eq_true_eq, not_and]
  exact fun own => absurd (refs x hx id own) absent

theorem Referenced.gains (refs : Referenced r) (h : Gains r r' person n)
    (there : r.players.Has person) : Referenced r' := by
  obtain ⟨new, grown, -, own⟩ := h.holds
  intro x hx id of_x
  rw [h.players]
  rw [grown] at hx
  rcases List.mem_append.mp hx with old | fresh
  · exact refs x old id of_x
  · obtain rfl := Option.some.inj ((own x fresh).symm.trans of_x)
    exact there

variable {m : Int} {account : Uuid} {spec : PlayerInput} {rest : List PlayerInput}
  {player : EntryPlayer}

theorem claims_cons (r : Registry) (person : Uuid) : claims p r account (spec :: rest) person =
    (if (samePerson p r account spec).map EntryPlayer.id = some person then picks spec else 0) +
      claims p r account rest person := by
  unfold claims
  rw [List.filter_cons]
  split
  · next at_spec =>
    rw [decide_eq_true_eq] at at_spec
    simp [at_spec]
  · next other =>
    rw [decide_eq_true_eq] at other
    simp [other]

theorem Fits.adopted (h : Fits p m r account (spec :: rest))
    (same : samePerson p r account spec = some x) (id : player.id = x.id)
    (names : ∀ s, Names p account s player ↔ Names p account s x)
    (gains : Gains { r with players := r.players.put player } r' player.id n)
    (few : n ≤ picks spec) : Fits p m r' account rest := by
  have hx := samePerson_mem same
  have whom : ∀ s, (samePerson p r' account s).map EntryPlayer.id =
      (samePerson p r account s).map EntryPlayer.id := by
    intro s
    rw [← samePerson_put hx id names s, samePerson_eq, gains.players, ← samePerson_eq]
  have nobody : ∀ s, samePerson p r' account s = none ↔ samePerson p r account s = none := by
    intro s
    rw [← Option.map_eq_none_iff (f := EntryPlayer.id), whom, Option.map_eq_none_iff]
  refine ⟨fun y hy => ?_, fun before s later split none' => ?_⟩
  · have there : ∃ y₀ ∈ r.players.rows, y₀.id = y.id := by
      rw [gains.players] at hy
      rcases Table.mem_put.mp hy with rfl | ⟨old, -⟩
      · exact ⟨x, hx, id.symm⟩
      · exact ⟨y, old, rfl⟩
    obtain ⟨y₀, hy₀, at_y⟩ := there
    have known := h.known y₀ hy₀
    rw [at_y, claims_cons, same, Option.map_some] at known
    have rest_eq : claims p r' account rest y.id = claims p r account rest y.id := by
      simp only [claims, whom]
    rw [rest_eq]
    by_cases own : y.id = player.id
    · rw [if_pos (by rw [own, id])] at known
      rw [own] at known ⊢
      have more := gains.held_self
      simp only [held] at more known ⊢
      push_cast at *
      omega
    · have other := gains.held_other own
      simp only [held] at other known ⊢
      rw [other]
      push_cast at known
      omega
  · have before' := h.new (spec :: before) s later (by rw [split]; rfl) ((nobody s).mp none')
    have fewer : ((repeats p r' account s later).map picks).sum ≤
        ((repeats p r account s later).map picks).sum :=
      sum_filter_mono fun s' _ again => ⟨(nobody s').mp again.1, again.2⟩
    omega

theorem Fits.minted {players : Table EntryPlayer.id} {drawn : Nat}
    (h : Fits p m r account (spec :: rest)) (refs : Referenced r)
    (none_ : samePerson p r account spec = none) (fresh : ¬ r.players.Has player.id)
    (rows : players.rows = r.players.rows ++ [player])
    (names : ∀ s, s.birthYear ≠ none → Names p account s player → NamesAgain p spec s)
    (gains : Gains { r with players := players, drawn := drawn } r' player.id n)
    (few : n ≤ picks spec) : Fits p m r' account rest := by
  have whom : ∀ s, samePerson p r' account s = (samePerson p r account s).or
      (if s.birthYear ≠ none ∧ Names p account s player then some player else none) := by
    intro s
    have appended := @samePerson_append p r account player players drawn rows s
    rw [← appended, samePerson_eq, gains.players, ← samePerson_eq]
  have nobody : ∀ s, samePerson p r' account s = none → samePerson p r account s = none := by
    intro s none'
    rw [whom, Option.or_eq_none_iff] at none'
    exact none'.1
  refine ⟨fun y hy => ?_, fun before s later split none' => ?_⟩
  · rw [gains.players, rows] at hy
    rcases List.mem_append.mp hy with old | new
    · have other : y.id ≠ player.id := fun same =>
        fresh (same ▸ Table.has_iff.mpr ⟨y, old, rfl⟩)
      have known := h.known y old
      have fewer : claims p r' account rest y.id ≤ claims p r account rest y.id := by
        apply sum_filter_mono
        intro s _ at_y
        rw [whom] at at_y
        cases found : samePerson p r account s with
        | some z => simpa [found] using at_y
        | none =>
          rw [found, Option.none_or] at at_y
          split at at_y
          · exact absurd (Option.some.inj at_y).symm other
          · cases at_y
      rw [claims_cons] at known
      have same := gains.held_other other
      simp only [held] at same known ⊢
      rw [same]
      push_cast at known
      omega
    · obtain rfl := List.mem_singleton.mp new
      have first := h.new [] spec rest rfl none_
      have fewer : claims p r' account rest y.id ≤
          ((repeats p r account spec rest).map picks).sum := by
        apply sum_filter_mono
        intro s _ at_y
        rw [whom] at at_y
        cases found : samePerson p r account s with
        | some z =>
          rw [found, Option.some_or, Option.map_some] at at_y
          have there := Table.has_iff.mpr ⟨z, samePerson_mem found, Option.some.inj at_y⟩
          exact absurd there fresh
        | none =>
          rw [found, Option.none_or] at at_y
          split at at_y
          · next again => exact ⟨rfl, names s again.1 again.2⟩
          · cases at_y
      have nothing := refs.held_absent fresh
      have most := gains.held_self
      simp only [held] at nothing most ⊢
      omega
  · have before' := h.new (spec :: before) s later (by rw [split]; rfl) (nobody s none')
    have fewer : ((repeats p r' account s later).map picks).sum ≤
        ((repeats p r account s later).map picks).sum :=
      sum_filter_mono fun s' _ again => ⟨nobody s' again.1, again.2⟩
    omega

theorem Met.there (met : Met p r account spec player r') : r'.players.Has player.id := by
  cases met with
  | adopted x same id names => exact Table.has_put_iff.mpr (.inl rfl)
  | minted players drawn none_ fresh rows names =>
    exact Table.has_iff.mpr ⟨player, rows ▸ List.mem_append_right _ List.mem_cons_self, rfl⟩

theorem Met.referenced (met : Met p r account spec player r') (refs : Referenced r) :
    Referenced r' := by
  cases met with
  | adopted x same id names =>
    exact fun h mem id' own => Table.has_put_iff.mpr (.inr (refs h mem id' own))
  | minted players drawn none_ fresh rows names =>
    intro h mem id' own
    obtain ⟨y, hy, at_y⟩ := Table.has_iff.mp (refs h mem id' own)
    exact Table.has_iff.mpr ⟨y, rows ▸ List.mem_append_left _ hy, at_y⟩

theorem length_distinct_le {spec : PlayerInput} {selected : List EntryEvent}
    (rows : spec.events.mapM (fun id => found (r.events.get id) (.integrity "entries.event")) =
      .ok selected) : (distinct selected).length ≤ picks spec := by
  have ids : (distinct selected).map EntryEvent.id ⊆ spec.events.dedup := by
    intro id mem
    obtain ⟨event, member, rfl⟩ := List.mem_map.mp mem
    exact List.mem_dedup.mpr (mem_distinct_rows rows event member).2
  simpa [picks] using (List.subperm_of_subset (nodup_distinct selected) ids).length_le

theorem writePerson_fits {submission : Uuid} {priced : Option Int} {now : Instant}
    (h : Fits p m r form.accountId (spec :: rest)) (refs : Referenced r)
    (ok : writePerson p r form submission priced spec now = .ok (r', created, invites)) :
    Fits p m r' form.accountId rest ∧ Referenced r' := by
  unfold writePerson at ok
  simp only [bind_eq_ok] at ok
  obtain ⟨⟨r₁, player, adopted⟩, met, _, -, selected, rows, ok⟩ := ok
  have met := adoptOrMint_met met
  have gains := writeEntries_gains ok
  have few : ((split priced (distinct selected).length).zip (distinct selected)).length ≤
      picks spec := by
    rw [List.length_zip, length_split, Nat.min_self]
    exact length_distinct_le rows
  have refs' := (met.referenced refs).gains gains met.there
  refine ⟨?_, refs'⟩
  cases met with
  | adopted x same id names => exact h.adopted same id names gains few
  | minted players drawn none_ fresh appended names =>
    exact h.minted refs none_ fresh appended names gains few

theorem writePlayers_fits {submission : Uuid} {now : Instant} {l : List (PlayerInput × Option Int)}
    (h : Fits p m r form.accountId (l.map Prod.fst)) (refs : Referenced r)
    (ok : writePlayers p form submission now r l = .ok (r', created, invites)) :
    Capped m r' ∧ Referenced r' := by
  induction l generalizing r created invites with
  | nil =>
    cases ok
    refine ⟨fun x hx => ?_, refs⟩
    simpa [claims] using h.known x hx
  | cons x l ih =>
    obtain ⟨spec, priced⟩ := x
    simp only [writePlayers, bind_eq_ok] at ok
    obtain ⟨⟨r₁, ids, first⟩, one, ⟨r₂, ids', rest⟩, others, ok⟩ := ok
    cases ok
    obtain ⟨fits, refs'⟩ := writePerson_fits h refs one
    exact ih fits refs' others

/-! ## Acts -/

theorem Fits.congr (h : Fits p m r account specs) (players : r'.players = r.players)
    (entries : r'.entries = r.entries) :
    Fits p m r' account specs := by
  have whom : ∀ s, samePerson p r' account s = samePerson p r account s := by
    intro s
    rw [samePerson_eq, players, ← samePerson_eq]
  refine ⟨fun x hx => ?_, fun before s later split none_ => ?_⟩
  · have known := h.known x (players ▸ hx)
    simp only [held, claims] at known ⊢
    simpa only [entries, whom] using known
  · have new := h.new before s later split ((whom s).symm.trans none_)
    simpa only [repeats, whom] using new

theorem Capped.congr (h : Capped m r) (players : r'.players = r.players)
    (same : holds r' = holds r) : Capped m r' := by
  intro x hx
  have bound := h x (players ▸ hx)
  rw [held_eq] at bound ⊢
  rwa [same]

theorem Referenced.congr (h : Referenced r) (players : r'.players = r.players)
    (same : holds r' = holds r) : Referenced r' := by
  intro x hx id own
  rw [players]
  exact h x (same ▸ hx) id own

theorem createSubmission_capped {now : Instant} {result : SubmissionResult} (capped : Capped m r)
    (refs : Referenced r) (fits : replay r form.idempotencyKey form.accountId = none →
      Fits p m r form.accountId form.players)
    (ok : createSubmission p r form now = .ok (r', result)) : Capped m r' ∧ Referenced r' := by
  unfold createSubmission at ok
  split at ok
  · cases ok
    exact ⟨capped, refs⟩
  next none_ =>
  split at ok
  · split at ok
    · cases ok
      exact ⟨capped, refs⟩
    · cases ok
  · unfold writeSubmission at ok
    simp only [bind_eq_ok, found_eq_ok, Registry.mint] at ok
    obtain ⟨_, -, _, -, submissions, -, ⟨r₁, created, invites⟩, players, ok⟩ := ok
    cases ok
    have start : Fits p m { r with submissions := submissions, drawn := r.drawn + 1 }
        form.accountId form.players := (fits none_).congr rfl rfl
    rw [← map_fst_perPlayerFee] at start
    exact writePlayers_fits start refs players

variable {f : PublicForm}

theorem submit_capped {now : Instant} {result : SubmissionResult} (capped : Capped m r)
    (refs : Referenced r) (room : Room p m r (.submit f now))
    (ok : createSubmissionAndCharge p r f now = .ok (r', result)) :
    Capped m r' ∧ Referenced r' := by
  unfold createSubmissionAndCharge at ok
  split at ok
  · cases ok
    exact ⟨capped, refs⟩
  · simp only [bind_eq_ok] at ok
    obtain ⟨page, -, _, -, grouped, -, _, -, _, -, ok⟩ := ok
    have done := ok
    simp only [refusing, mapError_eq_ok] at done
    refine createSubmission_capped capped refs (fun none_ => ?_) done
    exact room none_

theorem accept_capped {id half : Uuid} {a : Acceptance} {now : Instant} (capped : Capped m r)
    (refs : Referenced r) (room : Room p m r (.accept id a now))
    (ok : accept p r id a now = .ok (r', half)) : Capped m r' ∧ Referenced r' := by
  unfold accept at ok
  simp only [bind_eq_ok, found_eq_ok, require_eq_ok] at ok
  obtain ⟨entry, there, i, last, -, -, r₁, claimed, page, -, event, row, -, -, -, -, ok⟩ := ok
  obtain ⟨_, -, -, -, ⟨r₂, result⟩, created, partner, -, row', -, entry', -, ok⟩ := ok
  obtain ⟨rfl, -⟩ := Prod.mk.inj (Except.ok.inj ok)
  obtain ⟨-, rfl⟩ := claim_spec (mem_of_invitation last) claimed
  have event_id : event.id = entry.entryEventId := Table.key_of_get row
  have fits : Fits p m { r with invitations := r.invitations.put (spent i) } a.accountId
      [partnerSpec a event.id] := by
    rw [event_id]
    exact (room entry there).congr rfl rfl
  obtain ⟨capped', refs'⟩ := createSubmission_capped (r := { r with
    invitations := r.invitations.put (spent i) }) capped refs (fun _ => fits) created
  have linked : (link r₂ row' entry.id partner now).players = r₂.players ∧
      holds (link r₂ row' entry.id partner now) = holds r₂ := by
    unfold link
    refine ⟨?_, ?_⟩
    · rw [mapReasons_players, mapReasons_players]
    · rw [mapReasons_holds, mapReasons_holds]
      rfl
  split
  · exact ⟨capped'.congr linked.1 linked.2, refs'.congr linked.1 linked.2⟩
  · have flagged := holds_flush.flagConflict (r := link r₂ row' entry.id partner now)
    have kept := flagConflict_players (r := link r₂ row' entry.id partner now)
    exact ⟨capped'.congr ((kept _).trans linked.1) ((flagged _).trans linked.2),
      refs'.congr ((kept _).trans linked.1) ((flagged _).trans linked.2)⟩

/-! ## Every run -/

def RoomStep (p : Platform) (m : Int) (r : Registry) (act : Intake) (r' : Registry) : Prop :=
  Takes p m r act r' ∧ Room p m r act

/-- **The cap holds of a person** after every run of acts that find room. -/
theorem person_capped (p : Platform) (m : Int) (acts : List Intake) (capped : Capped m r)
    (refs : Referenced r) (run : Run (RoomStep p m) r acts r') : Capped m r' := by
  suffices Capped m r' ∧ Referenced r' from this.1
  refine run.invariant (I := fun r => Capped m r ∧ Referenced r) ?_ ⟨capped, refs⟩
  rintro r act r' ⟨capped, refs⟩ ⟨⟨-, took⟩, room⟩
  cases act with
  | submit f now =>
    obtain ⟨result, ok⟩ := took
    exact submit_capped capped refs room ok
  | accept entry a now =>
    obtain ⟨half, ok⟩ := took
    exact accept_capped capped refs room ok

def oneEach : Registry := { hall.registry with
  page := some
    { isOpen := true, regulationsVersion := 1, feeSchedule := none, feeCurrency := none
      maxEventsPerPerson := some 1, disciplineCaps := none }
  events := Table.ofRows [{ id := "ms", code := "MS", discipline := "MS" },
    { id := "xd", code := "XD", discipline := "XD" }] }

/-- Ann's account enters Ann for one event. -/
def annFor (event : Uuid) : Intake :=
  .submit
    { form := { accountId := "ann", feeTotalCents := none, feeBasis := none
                players := [{ fullName := "Ann", gender := "F", birthYear := some 2010
                              events := [event] }] }
      parsed := [(0, "block")], reviewedQuote := "quote" } 1

def submitted (p : Platform) (r : Registry) : Intake → Registry
  | .submit f now => ((createSubmissionAndCharge p r f now).toOption.map Prod.fst).getD r
  | .accept _ _ _ => r

theorem takes_submit {now : Instant}
    (page : ∃ page, r.page = some page ∧ page.maxEventsPerPerson = some m)
    (taken : (createSubmissionAndCharge p r f now).toOption.isSome) :
    Takes p m r (.submit f now) (submitted p r (.submit f now)) := by
  refine ⟨page, ?_⟩
  cases ok : createSubmissionAndCharge p r f now with
  | error e => simp [ok, Except.toOption] at taken
  | ok x =>
    refine ⟨x.2, ?_⟩
    simp [ok, submitted, Except.toOption]

theorem oneEach_capped : Capped 1 oneEach :=
  fun _ hx => nomatch hx

theorem oneEach_referenced : Referenced oneEach :=
  fun _ hx => nomatch hx

theorem oneEach_takes : Takes letters 1 oneEach (annFor "ms")
    (submitted letters oneEach (annFor "ms")) :=
  takes_submit ⟨_, rfl, rfl⟩ (by decide +kernel)

def twoEach : Registry := { oneEach with
  page := some
    { isOpen := true, regulationsVersion := 1, feeSchedule := none, feeCurrency := none
      maxEventsPerPerson := some 2, disciplineCaps := none } }

theorem annFor_room {r : Registry} {event : Uuid}
    (known : ∀ x ∈ r.players.rows, (held r x.id + claims letters r "ann"
      [{ fullName := "Ann", gender := "F", birthYear := some 2010, events := [event] }] x.id : Int)
        ≤ 2) : Room letters 2 r (annFor event) := by
  intro _
  refine ⟨known, fun before spec later split _ => ?_⟩
  cases before with
  | nil =>
    cases split
    simp [picks, repeats]
  | cons s before =>
    have more := (List.cons.inj split).2
    simp at more

/-- Where two events are allowed, Ann enters for one after the other. -/
theorem person_capped_ann :
    Capped 2 (submitted letters (submitted letters twoEach (annFor "ms")) (annFor "xd")) := by
  let once := submitted letters twoEach (annFor "ms")
  have allowed : once.page.map EntryPage.maxEventsPerPerson = some (some 2) := by decide +kernel
  have first : Takes letters 2 twoEach (annFor "ms") once :=
    takes_submit ⟨_, rfl, rfl⟩ (by decide +kernel)
  have second : Takes letters 2 once (annFor "xd") (submitted letters once (annFor "xd")) :=
    takes_submit (Option.map_eq_some_iff.mp allowed) (by decide +kernel)
  have holding : ∀ x ∈ once.players.rows, (held once x.id + claims letters once "ann"
      [{ fullName := "Ann", gender := "F", birthYear := some 2010, events := ["xd"] }] x.id : Int)
        ≤ 2 := by decide +kernel
  have nobody : ∀ x ∈ twoEach.players.rows, False := fun _ hx => nomatch hx
  exact person_capped letters 2 [annFor "ms", annFor "xd"] (fun x hx => (nobody x hx).elim)
    (fun _ hx => nomatch hx) (.cons ⟨first, annFor_room fun x hx => (nobody x hx).elim⟩
      (.cons ⟨second, annFor_room holding⟩ (.nil _)))

/-- By her second act Ann holds two events where one is allowed. -/
theorem person_uncapped : ¬ ∀ (p : Platform) (m : Int) (r r' : Registry) (acts : List Intake),
    Capped m r → Referenced r → Run (Takes p m) r acts r' → Capped m r' := by
  intro always
  let once := submitted letters oneEach (annFor "ms")
  have allowed : once.page.map EntryPage.maxEventsPerPerson = some (some 1) := by decide +kernel
  have second : Takes letters 1 once (annFor "xd") (submitted letters once (annFor "xd")) :=
    takes_submit (Option.map_eq_some_iff.mp allowed) (by decide +kernel)
  have capped := always letters 1 oneEach _ [annFor "ms", annFor "xd"] oneEach_capped
    oneEach_referenced (.cons oneEach_takes (.cons second (.nil _)))
  have holding : (submitted letters once (annFor "xd")).players.rows.map
      (fun x => held (submitted letters once (annFor "xd")) x.id) = [2] := by decide +kernel
  obtain ⟨x, hx, two⟩ := List.mem_map.mp (holding ▸ List.mem_singleton_self 2)
  have bound := capped x hx
  rw [two] at bound
  omega

end Entries
