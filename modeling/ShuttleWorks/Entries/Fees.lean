import Mathlib.Algebra.BigOperators.Group.List.Basic
import Mathlib.Data.List.Perm.Subperm
import ShuttleWorks.Entries.Guarantees
import ShuttleWorks.Entries.IntakeRule
import ShuttleWorks.Entries.Recording

/-! The fees of an act are conserved: every person's price is spread over their entries without
loss, and the prices add up to the total of the submission. -/

namespace Entries
open Lib
open Sync (Uuid)

variable {p : Platform} {r r' : Registry} {s : PlayerSelection} {form : SubmissionForm}
  {invites : List (Uuid × String)} {person : Person} {created : List Uuid}

/-! ## Prices -/

def Rising (schedule : List (Int × Int)) : Prop :=
  ∀ t u c d, Assoc.get t schedule = some c → Assoc.get u schedule = some d → t ≤ u → c ≤ d

theorem foldl_max_spec (t : Int) (ts : List Int) :
    ts.foldl max t ∈ t :: ts ∧ ∀ u ∈ t :: ts, u ≤ ts.foldl max t := by
  induction ts generalizing t with
  | nil => simp
  | cons s ts ih =>
    obtain ⟨mem, upper⟩ := ih (max t s)
    have first := upper (max t s) List.mem_cons_self
    rw [List.foldl_cons]
    refine ⟨?_, fun u hu => ?_⟩
    · rcases List.mem_cons.mp mem with top | later
      · rw [top]
        rcases le_total t s with le | le <;> simp [le]
      · exact List.mem_cons_of_mem _ (List.mem_cons_of_mem _ later)
    · rcases List.mem_cons.mp hu with rfl | hu
      · exact (le_max_left _ _).trans first
      · rcases List.mem_cons.mp hu with rfl | hu
        · exact (le_max_right _ _).trans first
        · exact upper u (List.mem_cons_of_mem _ hu)

theorem foldl_min_spec (t : Int) (ts : List Int) :
    ts.foldl min t ∈ t :: ts ∧ ∀ u ∈ t :: ts, ts.foldl min t ≤ u := by
  induction ts generalizing t with
  | nil => simp
  | cons s ts ih =>
    obtain ⟨mem, lower⟩ := ih (min t s)
    have first := lower (min t s) List.mem_cons_self
    rw [List.foldl_cons]
    refine ⟨?_, fun u hu => ?_⟩
    · rcases List.mem_cons.mp mem with low | later
      · rw [low]
        rcases le_total t s with le | le <;> simp [le]
      · exact List.mem_cons_of_mem _ (List.mem_cons_of_mem _ later)
    · rcases List.mem_cons.mp hu with rfl | hu
      · exact first.trans (min_le_left _ _)
      · rcases List.mem_cons.mp hu with rfl | hu
        · exact first.trans (min_le_right _ _)
        · exact lower u (List.mem_cons_of_mem _ hu)

theorem get_of_mem_keys {schedule : List (Int × Int)} {t : Int} (h : t ∈ Assoc.keys schedule) :
    ∃ c, Assoc.get t schedule = some c := by
  cases e : Assoc.get t schedule with
  | none => exact absurd h (Assoc.get_eq_none_iff.mp e)
  | some c => exact ⟨c, rfl⟩

theorem fromSchedule_some {schedule : List (Int × Int)} (listed : schedule ≠ []) {count : Nat}
    (some_ : count ≠ 0) : ∃ t c, fromSchedule schedule count = some c ∧
      Assoc.get t schedule = some c ∧ t ∈ Assoc.keys schedule ∧
      (∀ u ∈ Assoc.keys schedule, u ≤ count → u ≤ t) ∧
      (t ≤ count ∨ ∀ u ∈ Assoc.keys schedule, t ≤ u) := by
  unfold fromSchedule
  rw [if_neg some_]
  split
  · next t ts reached =>
    obtain ⟨mem, upper⟩ := foldl_max_spec t ts
    rw [← reached, List.mem_filter, decide_eq_true_eq] at mem
    obtain ⟨c, at_t⟩ := get_of_mem_keys mem.1
    refine ⟨_, c, at_t, at_t, mem.1, fun u hu le => ?_, .inl mem.2⟩
    apply upper
    rw [← reached, List.mem_filter, decide_eq_true_eq]
    exact ⟨hu, le⟩
  · next none_reached =>
    have beyond : ∀ u ∈ Assoc.keys schedule, ¬ u ≤ (count : Int) := by
      simpa [List.filter_eq_nil_iff] using none_reached
    split
    · next t ts all =>
      obtain ⟨mem, lower⟩ := foldl_min_spec t ts
      rw [← all] at mem lower
      obtain ⟨c, at_t⟩ := get_of_mem_keys mem
      exact ⟨_, c, at_t, at_t, mem, fun u hu le => absurd le (beyond u hu), .inr lower⟩
    · next all =>
      exact absurd (List.map_eq_nil_iff.mp all) listed

theorem fromSchedule_mono {schedule : List (Int × Int)} (rising : Rising schedule) {m n : Nat}
    (le : m ≤ n) {c : Int} (priced : fromSchedule schedule m = some c) :
    ∃ d, fromSchedule schedule n = some d ∧ c ≤ d := by
  have entered : m ≠ 0 := by
    rintro rfl
    simp [fromSchedule] at priced
  have listed : schedule ≠ [] := by
    rintro rfl
    simp [fromSchedule, Assoc.keys] at priced
  obtain ⟨t, c', price, at_t, key, -, low⟩ := fromSchedule_some listed entered
  obtain ⟨u, d, price', at_u, key', high, -⟩ :=
    fromSchedule_some listed (show n ≠ 0 by omega)
  obtain rfl := Option.some.inj (price.symm.trans priced)
  refine ⟨d, price', rising t u _ d at_t at_u ?_⟩
  rcases low with reached | lowest
  · exact high t key (by omega)
  · exact lowest u key'

theorem fromEvents_perm {es es' : List EntryEvent} (same : es.Perm es') :
    fromEvents es = fromEvents es' := by
  have fees := same.filterMap EntryEvent.feeCents
  unfold fromEvents
  split
  · next none_ =>
    rw [none_] at fees
    rw [fees.nil_eq.symm]
  · next some_ =>
    split
    · next none_ =>
      rw [none_] at fees
      exact absurd fees.eq_nil some_
    · rw [fees.sum_eq]

theorem cents_congr {schedule : List (Int × Int)} {s' : PlayerSelection}
    (same : (distinct s.events).Perm (distinct s'.events)) :
    (priceOf schedule s).cents = (priceOf schedule s').cents := by
  simp only [priceOf, fromEvents_perm same, same.length_eq]

theorem cents_of_nil {schedule : List (Int × Int)} (none_ : distinct s.events = []) :
    (priceOf schedule s).cents = none := by
  simp [priceOf, none_, fromEvents, fromSchedule]

theorem length_distinct_append (events more : List EntryEvent) :
    (distinct events).length ≤ (distinct (events ++ more)).length := by
  have ids : (distinct events).map EntryEvent.id ⊆
      (distinct (events ++ more)).map EntryEvent.id := by
    intro id mem
    rw [mem_ids_distinct] at mem ⊢
    rw [List.map_append]
    exact List.mem_append_left _ mem
  simpa using (List.subperm_of_subset (nodup_distinct events) ids).length_le

/-! ## Shares -/

/-- The fees of some entries make up a price; where there is none, no entry has a fee. -/
def MakesUp (price : Option Int) (fees : List (Option Int)) : Prop :=
  match price with
  | none => ∀ fee ∈ fees, fee = none
  | some cents => ∃ shares : List Int, fees = shares.map some ∧ shares.sum = cents

theorem split_makesUp {price : Option Int} {count : Nat} (entered : count = 0 → price = none) :
    MakesUp price (split price count) := by
  cases price with
  | none => simp [MakesUp, split]
  | some cents =>
    cases count with
    | zero => cases entered rfl
    | succ n =>
      refine ⟨(cents - cents / (n + 1 : Int) * n) ::
        List.replicate n (cents / (n + 1 : Int)), ?_, ?_⟩
      · simp [split]
      · rw [List.sum_cons, List.sum_replicate, nsmul_eq_mul, mul_comm]
        omega

theorem makesUp_total {prices : List (Option Int)} {parts : List (List (Option Int))}
    (each : List.Forall₂ MakesUp prices parts) :
    (parts.flatten.filterMap id).sum = (prices.filterMap id).sum ∧
      (prices.filterMap id = [] → ∀ fee ∈ parts.flatten, fee = none) := by
  induction each with
  | nil => simp
  | @cons price part prices parts first _ ih =>
    rw [List.flatten_cons, List.filterMap_append, List.sum_append, ih.1]
    cases price with
    | none =>
      have unpriced : part.filterMap id = [] :=
        List.filterMap_eq_nil_iff.mpr fun fee mem => first fee mem
      rw [unpriced, List.sum_nil, Int.zero_add]
      refine ⟨by simp, fun nothing fee mem => ?_⟩
      rcases List.mem_append.mp mem with here | later
      · exact first fee here
      · exact ih.2 (by simpa using nothing) fee later
    | some cents =>
      obtain ⟨shares, rfl, rfl⟩ := first
      simp

/-! ## The entries written -/

/-- What an entry costs, and for what. -/
structure Charge where
  id : Uuid
  submissionId : Option Uuid
  entryEventId : Uuid
  feeCents : Option Int
  deriving DecidableEq

def Entry.charge (e : Entry) : Charge := ⟨e.id, e.submissionId, e.entryEventId, e.feeCents⟩

def charges (r : Registry) : List Charge := r.entries.rows.map Entry.charge

theorem charges_flush : FlushRule fun r r' => charges r' = charges r where
  refl _ := rfl
  trans h h' := h'.trans h
  tables entries _ := by rw [charges, entries, charges]
  added {r e codes} found more := by
    exact Table.map_rows_put found rfl

theorem placeEntry_charge {e e' : Entry} {event : EntryEvent} {now : Instant}
    (h : placeEntry r e event now = .ok e') : e'.charge = e.charge := by
  unfold placeEntry at h
  split at h
  · simp only [transitionEntry, bind_eq_ok] at h
    obtain ⟨edge, -, h⟩ := h
    cases h
    rfl
  · cases h
    rfl

theorem writeEntry_charges {submission id : Uuid} {event : EntryEvent} {share : Option Int}
    {now : Instant}
    (ok : writeEntry p r form submission person event share now = .ok (r', id, invites)) :
    charges r' = charges r ++ [⟨id, some submission, event.id, share⟩] := by
  unfold writeEntry at ok
  simp only [bind_eq_ok, found_eq_ok, Registry.mint] at ok
  obtain ⟨e, placed, entries, inserted, ⟨r₁, invites₁⟩, nominated, ok⟩ := ok
  cases ok
  have charge := placeEntry_charge placed
  have added := (Table.insert_eq_some.mp inserted).2
  rw [charges_flush.nominateNamed nominated, charges, added, List.map_append, List.map_singleton,
    charge, charges]
  simp only [Entry.charge] at charge ⊢
  rw [(Charge.mk.inj charge).1]

/-- The entries of one person: one for every event they select, each with its share. -/
structure Charged (submission : Uuid) (events : List EntryEvent) (price : Option Int)
    (written : List Charge) : Prop where
  act : ∀ c ∈ written, c.submissionId = some submission
  events : written.map Charge.entryEventId = (distinct events).map EntryEvent.id
  price : MakesUp price (written.map Charge.feeCents)

theorem writeEntries_charges {submission : Uuid} {now : Instant}
    {l : List (Option Int × EntryEvent)}
    (ok : writeEntries p form submission person now r l = .ok (r', created, invites)) :
    ∃ written, charges r' = charges r ++ written ∧ written.map Charge.id = created ∧
      (∀ c ∈ written, c.submissionId = some submission) ∧
      written.map Charge.feeCents = l.map Prod.fst ∧
      written.map Charge.entryEventId = l.map (fun x => x.2.id) := by
  induction l generalizing r created invites with
  | nil =>
    cases ok
    exact ⟨[], by simp, rfl, by simp, rfl, rfl⟩
  | cons x l ih =>
    obtain ⟨share, event⟩ := x
    simp only [writeEntries, bind_eq_ok] at ok
    obtain ⟨⟨r₁, id, first⟩, one, ⟨r₂, ids, rest⟩, others, ok⟩ := ok
    cases ok
    obtain ⟨written, grown, ids_, acts, fees, events⟩ := ih others
    refine ⟨⟨id, some submission, event.id, share⟩ :: written, ?_, ?_, ?_, ?_, ?_⟩
    · rw [grown, writeEntry_charges one, List.append_assoc, List.singleton_append]
    · rw [List.map_cons, ids_]
    · simpa using acts
    · rw [List.map_cons, fees, List.map_cons]
    · rw [List.map_cons, events, List.map_cons]

theorem mapM_found {κ ρ : Type} {find : κ → Option ρ} {e : Refused} {keys : List κ}
    {rows rows' : List ρ} (there : keys.mapM find = some rows)
    (looked : keys.mapM (fun k => found (find k) e) = .ok rows') : rows = rows' := by
  induction keys generalizing rows rows' with
  | nil =>
    cases there
    cases looked
    rfl
  | cons k keys ih =>
    simp only [List.mapM_cons, bind_eq_ok, found_eq_ok] at looked
    simp only [List.mapM_cons, Option.bind_eq_bind, Option.bind_eq_some_iff] at there
    obtain ⟨row, at_k, rest, later, there⟩ := there
    obtain ⟨row', at_k', rest', later', looked⟩ := looked
    cases there
    cases looked
    obtain rfl := Option.some.inj (at_k.symm.trans at_k')
    rw [ih later later']

theorem writePerson_charges {submission : Uuid} {priced : Option Int} {spec : PlayerInput}
    {now : Instant} {events : List EntryEvent} (rows : spec.events.mapM r.events.get = some events)
    (quoted : distinct events = [] → priced = none)
    (ok : writePerson p r form submission priced spec now = .ok (r', created, invites)) :
    ∃ written, charges r' = charges r ++ written ∧ written.map Charge.id = created ∧
      Charged submission events priced written := by
  unfold writePerson at ok
  simp only [bind_eq_ok] at ok
  obtain ⟨⟨r₁, player, adopted⟩, minted, _, -, selected, looked, ok⟩ := ok
  obtain ⟨players, drawn, rfl⟩ := adoptOrMint_tables minted
  obtain rfl := mapM_found rows looked
  obtain ⟨written, grown, ids, acts, fees, of_events⟩ := writeEntries_charges ok
  have len : (split priced (distinct events).length).length = (distinct events).length :=
    length_split _ _
  refine ⟨written, grown, ids, acts, ?_, ?_⟩
  · rw [of_events]
    change ((split priced (distinct events).length).zip (distinct events)).map
      (EntryEvent.id ∘ Prod.snd) = _
    rw [← List.map_map, List.map_snd_zip len.ge]
  · rw [fees, List.map_fst_zip len.le]
    exact split_makesUp fun none_ => quoted (List.length_eq_zero_iff.mp none_)

theorem intake_events : IntakeRule fun r r' => r'.events = r.events where
  refl _ := rfl
  trans h h' := h'.trans h
  events h := h
  tables _ events := events
  reasons _ _ := rfl
  placed _ _ _ _ _ := rfl

/-- A person of an act as its caller has grouped them: the form's block and the rows of the events
it selects. -/
abbrev Grouped : Type := PlayerInput × PlayerSelection

theorem writePlayers_charges {submission : Uuid} {now : Instant}
    {price : PlayerSelection → Option Int} {grouped : List Grouped}
    (rows : ∀ x ∈ grouped, x.1.events.mapM r.events.get = some x.2.events)
    (quoted : ∀ s, distinct s.events = [] → price s = none)
    (ok : writePlayers p form submission now r (grouped.map fun x => (x.1, price x.2)) =
      .ok (r', created, invites)) :
    ∃ parts, charges r' = charges r ++ parts.flatten ∧ parts.flatten.map Charge.id = created ∧
      List.Forall₂ (fun x part => Charged submission x.2.events (price x.2) part)
        grouped parts := by
  induction grouped generalizing r created invites with
  | nil =>
    cases ok
    exact ⟨[], by simp, rfl, .nil⟩
  | cons x grouped ih =>
    simp only [List.map_cons, writePlayers, bind_eq_ok] at ok
    obtain ⟨⟨r₁, ids, first⟩, one, ⟨r₂, ids', rest⟩, others, ok⟩ := ok
    cases ok
    have kept : r₁.events = r.events := intake_events.writePerson one
    have rows' : ∀ y ∈ grouped, y.1.events.mapM r₁.events.get = some y.2.events := fun y hy =>
      kept ▸ rows y (List.mem_cons_of_mem _ hy)
    obtain ⟨part, grown, of_part, charged⟩ :=
      writePerson_charges (rows x List.mem_cons_self) (quoted x.2) one
    obtain ⟨parts, grown', of_parts, each⟩ := ih rows' others
    refine ⟨part :: parts, ?_, ?_, .cons charged each⟩
    · rw [grown', grown, List.flatten_cons, List.append_assoc]
    · rw [List.flatten_cons, List.map_append, of_part, of_parts]

/-! ## Reading the schedule -/

/-- The count of a tier can be read, and its price is a number past the range of a float. -/
def Overflows (p : Platform) (tier : String × Json) : Prop :=
  (p.intOfText tier.1).isSome ∧ intOfJson p tier.2 = .error .overflow

instance (tier : String × Json) : Decidable (Overflows p tier) :=
  inferInstanceAs (Decidable (_ ∧ _))

def Bounded (p : Platform) (stored : Option Json) : Prop :=
  ∀ tiers, stored = some (.obj tiers) → ∀ tier ∈ tiers, ¬ Overflows p tier

theorem readTier_ok_iff {out : List (Int × Int)} {tier : String × Json} :
    (∃ out', readTier p out tier = .ok out') ↔ ¬ Overflows p tier := by
  unfold readTier Overflows
  cases p.intOfText tier.1 with
  | none => simp
  | some count =>
    cases intOfJson p tier.2 with
    | ok cents => simp
    | error e => cases e <;> simp

theorem readTiers_ok_iff {tiers : List (String × Json)} {out : List (Int × Int)} :
    (∃ schedule, tiers.foldlM (readTier p) out = .ok schedule) ↔
      ∀ tier ∈ tiers, ¬ Overflows p tier := by
  induction tiers generalizing out with
  | nil => simp [pure, Except.pure]
  | cons tier tiers ih =>
    rw [List.forall_mem_cons, ← @readTier_ok_iff p out]
    simp only [List.foldlM_cons, bind_eq_ok]
    constructor
    · rintro ⟨schedule, out', first, rest⟩
      exact ⟨⟨out', first⟩, ih.mp ⟨schedule, rest⟩⟩
    · rintro ⟨⟨out', first⟩, rest⟩
      obtain ⟨schedule, ok⟩ := ih.mpr rest
      exact ⟨schedule, out', first, ok⟩

theorem normalizeFeeSchedule_ok_iff {stored : Option Json} :
    (∃ schedule, normalizeFeeSchedule p stored = .ok schedule) ↔ Bounded p stored := by
  unfold normalizeFeeSchedule Bounded
  split
  · next tiers =>
    rw [readTiers_ok_iff]
    exact ⟨fun h _ same => by cases same; exact h, fun h => h tiers rfl⟩
  · next other =>
    exact ⟨fun _ tiers same => absurd same (other tiers), fun _ => ⟨[], rfl⟩⟩

/-! ## The act -/

def prices (schedule : List (Int × Int)) (selections : List PlayerSelection) : List (Option Int) :=
  selections.map fun s => (priceOf schedule s).cents

variable {page : EntryPage} {schedule : List (Int × Int)}

/-- What the caller is answered once the schedule is read. -/
theorem computeFeeTotal_ok (read : normalizeFeeSchedule p page.feeSchedule = .ok schedule)
    (selections : List PlayerSelection) : ∃ total basis,
      computeFeeTotal p page selections = .ok (total, basis) ∧
      basis.players = selections.map (priceOf schedule) ∧
      total = if (prices schedule selections).filterMap id = [] then none
        else some ((prices schedule selections).filterMap id).sum := by
  rw [computeFeeTotal, read]
  refine ⟨_, _, rfl, rfl, ?_⟩
  simp only [prices, List.filterMap_map, Function.comp_def, id]

/-- The act bills what its caller has computed for the persons it groups. -/
structure Quoted (p : Platform) (page : EntryPage) (r : Registry) (form : SubmissionForm)
    (grouped : List Grouped) : Prop where
  players : form.players = grouped.map Prod.fst
  rows : ∀ x ∈ grouped, x.1.events.mapM r.events.get = some x.2.events
  billed : ∃ basis, form.feeBasis = some basis ∧
    computeFeeTotal p page (grouped.map Prod.snd) = .ok (form.feeTotalCents, basis)

theorem Quoted.bill {grouped : List Grouped} (h : Quoted p page r form grouped)
    (read : normalizeFeeSchedule p page.feeSchedule = .ok schedule) :
    (∃ basis, form.feeBasis = some basis ∧
      basis.players = (grouped.map Prod.snd).map (priceOf schedule)) ∧
    form.feeTotalCents = if (prices schedule (grouped.map Prod.snd)).filterMap id = [] then none
      else some ((prices schedule (grouped.map Prod.snd)).filterMap id).sum := by
  obtain ⟨basis, written, computed⟩ := h.billed
  obtain ⟨total, basis', computed', players, sum⟩ :=
    computeFeeTotal_ok read (grouped.map Prod.snd)
  obtain ⟨rfl, rfl⟩ := Prod.mk.inj (Except.ok.inj (computed.symm.trans computed'))
  exact ⟨⟨basis, written, players⟩, sum⟩

theorem Quoted.perPlayerFee {grouped : List Grouped} (h : Quoted p page r form grouped)
    (read : normalizeFeeSchedule p page.feeSchedule = .ok schedule) :
    perPlayerFee form = grouped.map fun x => (x.1, (priceOf schedule x.2).cents) := by
  obtain ⟨⟨basis, written, players⟩, -⟩ := h.bill read
  apply List.ext_getElem?
  intro i
  simp only [Entries.perPlayerFee, h.players, written, players, List.getElem?_mapIdx,
    List.getElem?_map]
  cases grouped[i]? <;> simp

theorem createSubmission_charges {now : Instant} {grouped : List Grouped}
    {result : SubmissionResult} (h : Quoted p page r form grouped)
    (read : normalizeFeeSchedule p page.feeSchedule = .ok schedule)
    (ok : createSubmission p r form now = .ok (r', result)) (fresh : result.replayed = false) :
    ∃ parts, charges r' = charges r ++ parts.flatten ∧
      parts.flatten.map Charge.id = result.entries ∧
      List.Forall₂ (fun x part => Charged result.submission x.2.events
        (priceOf schedule x.2).cents part) grouped parts := by
  have written : ∀ {r' result}, writeSubmission p r form now = .ok (r', result) →
      ∃ parts, charges r' = charges r ++ parts.flatten ∧
        parts.flatten.map Charge.id = result.entries ∧
        List.Forall₂ (fun x part => Charged result.submission x.2.events
          (priceOf schedule x.2).cents part) grouped parts := by
    intro r' result ok
    unfold writeSubmission at ok
    simp only [bind_eq_ok, found_eq_ok, Registry.mint, h.perPlayerFee read] at ok
    obtain ⟨_, -, _, -, submissions, -, ⟨r₁, created, invites⟩, players, ok⟩ := ok
    cases ok
    let price := fun s => (priceOf schedule s).cents
    have quoted : ∀ s, distinct s.events = [] → price s = none := fun _ => cents_of_nil
    obtain ⟨parts, grown, ids, each⟩ :=
      writePlayers_charges (by exact h.rows) quoted players
    exact ⟨parts, grown, ids, each⟩
  have replays : ∀ {old}, replay r form.idempotencyKey form.accountId = some old →
      old.replayed = true := by
    intro old replayed
    unfold replay at replayed
    split at replayed
    · cases replayed
    · split at replayed
      · cases replayed
      · obtain ⟨s, -, rfl⟩ := Option.map_eq_some_iff.mp replayed
        rfl
  unfold createSubmission at ok
  split at ok
  · next old =>
    cases ok
    simp [replays old] at fresh
  · split at ok
    · split at ok
      · next old => cases old
      · cases ok
    · exact written ok

/-- Nothing is lost between the prices of an act, its total and the fees of its entries, where the
page's schedule reads as these tiers. -/
structure Conserved (p : Platform) (page : EntryPage) (schedule : List (Int × Int)) : Prop where
  read : normalizeFeeSchedule p page.feeSchedule = .ok schedule
  /-- The total is the sum of the prices of the persons, and nothing where nobody is priced. -/
  total : ∀ selections, ∃ total basis, computeFeeTotal p page selections = .ok (total, basis) ∧
    basis.players.map PlayerFee.cents = prices schedule selections ∧
    (total = none ↔ ∀ fee ∈ basis.players, fee.cents = none) ∧
    ∀ cents, total = some cents → (basis.players.filterMap PlayerFee.cents).sum = cents
  /-- A price is that of a person's distinct events, whoever else is in the act. -/
  own : ∀ s s' : PlayerSelection, (distinct s.events).Perm (distinct s'.events) →
    (priceOf schedule s).cents = (priceOf schedule s').cents
  /-- The fees of the entries of a person make up their price, and all of them the total. -/
  entries : ∀ r form grouped now r' result, Quoted p page r form grouped →
    createSubmission p r form now = .ok (r', result) → result.replayed = false →
    ∃ parts, charges r' = charges r ++ parts.flatten ∧
      parts.flatten.map Charge.id = result.entries ∧
      List.Forall₂ (fun x part => Charged result.submission x.2.events
        (priceOf schedule x.2).cents part) grouped parts ∧
      (form.feeTotalCents = none → ∀ c ∈ parts.flatten, c.feeCents = none) ∧
      ∀ cents, form.feeTotalCents = some cents →
        (parts.flatten.filterMap Charge.feeCents).sum = cents
  /-- By tiers that do not decrease, more events never cost less. -/
  rising : ∀ (key : String) (events more : List EntryEvent) (cents : Int),
    schedule ≠ [] → Rising schedule → (priceOf schedule ⟨key, events⟩).cents = some cents →
    ∃ cents', (priceOf schedule ⟨key, events ++ more⟩).cents = some cents' ∧ cents ≤ cents'

/-- Every act on the page is answered, and its fees are conserved. -/
def FeesConserved (p : Platform) (page : EntryPage) : Prop :=
  ∃ schedule, Conserved p page schedule

theorem conserved (read : normalizeFeeSchedule p page.feeSchedule = .ok schedule) :
    Conserved p page schedule where
  read := read
  total selections := by
    obtain ⟨total, basis, computed, players, sum⟩ := computeFeeTotal_ok read selections
    refine ⟨total, basis, computed, ?_, ?_, ?_⟩
    · simp [players, prices]
    · rw [sum, players]
      simp [prices, List.filterMap_eq_nil_iff]
    · intro cents some_
      rw [sum] at some_
      split at some_
      · cases some_
      · cases some_
        simp [players, prices, List.filterMap_map]
  own s s' same := cents_congr same
  entries r form grouped now r' result quoted ok fresh := by
    obtain ⟨parts, grown, ids, charged⟩ := createSubmission_charges quoted read ok fresh
    have each : List.Forall₂ MakesUp (prices schedule (grouped.map Prod.snd))
        (parts.map fun part => part.map Charge.feeCents) := by
      rw [prices, List.map_map, List.forall₂_map_left_iff, List.forall₂_map_right_iff]
      exact charged.imp fun x part h => h.price
    obtain ⟨sum, unpriced⟩ := makesUp_total each
    rw [← List.map_flatten] at sum unpriced
    obtain ⟨-, billed⟩ := quoted.bill read
    refine ⟨parts, grown, ids, charged, fun none_ c hc => ?_, fun cents some_ => ?_⟩
    · rw [none_] at billed
      split at billed
      · next nothing => exact unpriced nothing _ (List.mem_map.mpr ⟨c, hc, rfl⟩)
      · cases billed
    · rw [some_] at billed
      split at billed
      · cases billed
      · cases billed
        rw [← sum, List.filterMap_map]
        rfl
  rising key events more cents listed rising priced := by
    simp only [priceOf, listed, if_false] at priced ⊢
    exact fromSchedule_mono rising (length_distinct_append events more) priced

/-- **When fees are conserved**: exactly on pages whose tiers stay within the range of a float. -/
theorem fees_conserved_iff (p : Platform) (page : EntryPage) :
    FeesConserved p page ↔ Bounded p page.feeSchedule := by
  rw [← normalizeFeeSchedule_ok_iff]
  constructor
  · rintro ⟨schedule, h⟩
    exact ⟨schedule, h.read⟩
  · rintro ⟨schedule, read⟩
    exact ⟨schedule, conserved read⟩

def reader : Platform := { letters with
  intOfText := fun s => if s = "1" then some 1 else if s = "2" then some 2 else none
  intOfFloat := fun t => .error (if t.val = "1e999" then .overflow else .unreadable) }

def pricedPage : EntryPage where
  isOpen := true
  regulationsVersion := 1
  feeSchedule := some (.obj [("1", .int 4000), ("2", .int 5501)])
  maxEventsPerPerson := none
  disciplineCaps := none
  feeCurrency := none

def listing : Registry := { hall.registry with
  page := some pricedPage
  events := Table.ofRows [{ id := "ms", code := "MS", discipline := "MS" },
    { id := "xd", code := "XD", discipline := "XD" }] }

def family : List Grouped :=
  [({ fullName := "Ann", gender := "F", events := ["ms", "xd", "ms"] },
    ⟨"0", [{ id := "ms", code := "MS", discipline := "MS" },
      { id := "xd", code := "XD", discipline := "XD" },
      { id := "ms", code := "MS", discipline := "MS" }]⟩),
   ({ fullName := "Bob", gender := "M", events := ["ms"] },
    ⟨"2", [{ id := "ms", code := "MS", discipline := "MS" }]⟩)]

def familyForm : SubmissionForm where
  accountId := "ann"
  players := family.map Prod.fst
  feeTotalCents := some 9501
  feeBasis := (computeFeeTotal reader pricedPage (family.map Prod.snd)).toOption.map Prod.snd

theorem family_quoted : ∃ basis, familyForm.feeBasis = some basis ∧
    computeFeeTotal reader pricedPage (family.map Prod.snd) = .ok (some 9501, basis) := by
  have total : (computeFeeTotal reader pricedPage (family.map Prod.snd)).map Prod.fst =
      .ok (some 9501) := by decide +kernel
  cases computed : computeFeeTotal reader pricedPage (family.map Prod.snd) with
  | error e =>
    rw [computed] at total
    cases total
  | ok x =>
    obtain ⟨cents, basis⟩ := x
    rw [computed] at total
    obtain rfl : cents = some 9501 := Except.ok.inj total
    refine ⟨basis, ?_, rfl⟩
    rw [familyForm, computed]
    rfl

/-- A family's entries carry 2751, 2750 and 4000 cents of 9501. -/
theorem fees_conserved_family :
    ∃ r' result, createSubmission reader listing familyForm 1 = .ok (r', result) ∧
      (charges r').map Charge.feeCents = [some 2751, some 2750, some 4000] ∧
      ((charges r').filterMap Charge.feeCents).sum = 9501 := by
  have runs : (createSubmission reader listing familyForm 1).map
      (fun x => ((charges x.1).map Charge.feeCents, x.2.replayed)) =
      .ok ([some 2751, some 2750, some 4000], false) := by decide +kernel
  cases ok : createSubmission reader listing familyForm 1 with
  | error e =>
    rw [ok] at runs
    cases runs
  | ok x =>
    rw [ok] at runs
    obtain ⟨fees, fresh⟩ := Prod.mk.inj (Except.ok.inj runs)
    have rows : ∀ y ∈ family, y.1.events.mapM listing.events.get = some y.2.events := by
      intro y hy
      rcases List.mem_cons.mp hy with rfl | hy
      · rfl
      · obtain rfl := List.mem_singleton.mp hy
        rfl
    have quoted : Quoted reader pricedPage listing familyForm family :=
      ⟨rfl, rows, family_quoted⟩
    have bounded : Bounded reader pricedPage.feeSchedule := by
      intro tiers same
      cases same
      decide
    obtain ⟨schedule, h⟩ := (fees_conserved_iff reader pricedPage).mpr bounded
    obtain ⟨parts, grown, -, -, -, total⟩ := h.entries listing familyForm family 1 x.1 x.2 quoted ok
      fresh
    refine ⟨x.1, x.2, rfl, fees, ?_⟩
    rw [grown, List.filterMap_append]
    exact total 9501 rfl

/-- The second tier is an infinite number. -/
def infinitePage : EntryPage :=
  { pricedPage with
    feeSchedule := some (.obj [("1", .int 4000), ("2", .float ⟨"1e999", by decide⟩)]) }

/-- The whole page raises, also for one event. -/
theorem infinite_tier_raises : ¬ FeesConserved reader infinitePage ∧
    ∀ selections, computeFeeTotal reader infinitePage selections =
      .error (.exception "OverflowError" "cannot convert float infinity to integer") := by
  have raised : normalizeFeeSchedule reader infinitePage.feeSchedule =
      .error (.exception "OverflowError" "cannot convert float infinity to integer") := by
    decide +kernel
  refine ⟨fun ⟨schedule, h⟩ => ?_, fun selections => ?_⟩
  · have read := h.read
    rw [raised] at read
    cases read
  · rw [computeFeeTotal, raised]
    rfl

end Entries
