import ShuttleWorks.Entries.Acceptance
import ShuttleWorks.Lib.Transition

/-! What the cached reasons say after any sequence of entry operations. Two operations can
make them wrong: an act that enters a doubles event without a partner's address, and the
rejection of an entry whose partner stays. Runs without these two keep every reason right. -/

namespace Entries
open Lib
open Sync (Uuid)
open Competition (Workspace)

variable {p : Platform} {r r' : Registry} {ws ws' : Workspace}

/-! ## Operations -/

inductive Operation
  | createSubmission (form : SubmissionForm) (now : Instant)
  | accept (entry : Uuid) (a : Acceptance) (now : Instant)
  | withdraw (entry : Uuid) (erase byOperator : Bool) (now : Instant)
  | reject (entry : Uuid) (now : Instant)
  | promote (entry : Uuid) (now : Instant)
  | confirm (entry : Uuid) (now : Instant)
  | promoteVerifiedEntries (account : Uuid) (now : Instant)
  | recordPayment (submission : Uuid) (amountCents : Int) (currency : String)
      (note : Option String) (actorId requestId : String)

def onRegistry (ws : Workspace) (x : Except Refused Registry) : Except Refused Workspace :=
  x.map (fun r => { ws with registry := r })

def perform (p : Platform) (ws : Workspace) : Operation → Except Refused Workspace
  | .createSubmission form now =>
    onRegistry ws ((createSubmission p ws.registry form now).map Prod.fst)
  | .accept entry a now => onRegistry ws ((accept p ws.registry entry a now).map Prod.fst)
  | .withdraw entry erase byOperator now => withdraw p ws entry erase byOperator now
  | .reject entry now => onRegistry ws (reject p ws.registry entry now)
  | .promote entry now => onRegistry ws (promote p ws.registry entry now)
  | .confirm entry now => onRegistry ws (confirm p ws.registry entry now)
  | .promoteVerifiedEntries account now =>
    onRegistry ws (promoteVerifiedEntries p ws.registry account now)
  | .recordPayment submission amountCents currency note actorId requestId =>
    onRegistry ws (recordPayment p ws.registry submission amountCents currency note actorId
      requestId)

def after (p : Platform) (ws : Workspace) (op : Operation) : Workspace :=
  match perform p ws op with
  | .ok ws' => ws'
  | .error _ => ws

/-- No one has entered yet. -/
structure Unentered (r : Registry) : Prop where
  entries : r.entries.rows = []
  submissions : r.submissions.rows = []
  payments : r.payments.rows = []
  invitations : r.invitations.rows = []

/-- What the cached reasons of a live entry ought to say. -/
structure Agrees (p : Platform) (r : Registry) (e : Entry) : Prop where
  partner : awaitingPartner ∈ e.pendingReasons ↔
    Doubles p r e.entryEventId ∧ ¬ ∃ q, Joined r e.id q ∧ r.LiveEntry q
  cap : overCap ∈ e.pendingReasons ↔ e.state = .waitlisted
  payment : awaitingPayment ∈ e.pendingReasons ↔
    ∃ s, r.submissionOf e = some s ∧ 0 < (r.outstandingCents s).getD 0
  derived : ∀ c ∈ derivedCodes, c ∈ e.pendingReasons ↔ c ∈ recomputeReasons p r e

/-- The operation, if it takes place, enters no doubles event without a partner's address
and rejects no entry that has a live partner. -/
def Careful (p : Platform) (r : Registry) : Operation → Prop
  | .createSubmission form _ =>
    (replay r form.idempotencyKey form.accountId).isSome ∨ ¬ FormLacks p r form
  | .reject entry _ => ¬ Partnered r entry
  | _ => True

def Step (p : Platform) (ws : Workspace) (op : Operation) (ws' : Workspace) : Prop :=
  ws' = after p ws op ∧ ((∃ done, perform p ws op = .ok done) → Careful p ws.registry op)

/-! ## Runs -/

theorem onRegistry_eq_ok {x : Except Refused Registry} :
    onRegistry ws x = .ok ws' ↔ ∃ r, x = .ok r ∧ ws' = { ws with registry := r } := by
  cases x <;> simp [onRegistry, Except.map, eq_comm]

theorem map_fst_eq_ok {α : Type} {x : Except Refused (Registry × α)} :
    x.map Prod.fst = .ok r ↔ ∃ a, x = .ok (r, a) := by
  cases x <;> simp [Except.map, Prod.ext_iff]

theorem unentered_truthful (h : Unentered r) : Truthful p nobody nobody r := by
  refine ⟨⟨?_, ?_, ?_, ?_, ?_, ?_⟩, ?_, ?_, ?_, ?_⟩
  · simp [h.invitations]
  · simp [h.invitations]
  · simp [h.invitations]
  · simp [h.invitations]
  · simp [h.invitations]
  · simp [h.invitations]
  · simp [h.entries]
  · simp [h.payments]
  · simp [h.entries]
  · simp [h.entries]

variable {op : Operation}

theorem perform_truthful (h : Truthful p nobody nobody ws.registry)
    (careful : Careful p ws.registry op) (ok : perform p ws op = .ok ws') :
    Truthful p nobody nobody ws'.registry := by
  cases op with
  | createSubmission form now =>
    obtain ⟨r, done, rfl⟩ := onRegistry_eq_ok.mp ok
    obtain ⟨result, done⟩ := map_fst_eq_ok.mp done
    exact createSubmission_truthful h careful done
  | accept entry a now =>
    obtain ⟨r, done, rfl⟩ := onRegistry_eq_ok.mp ok
    obtain ⟨half, done⟩ := map_fst_eq_ok.mp done
    exact accept_truthful h done
  | withdraw entry erase byOperator now => exact withdraw_truthful h ok
  | reject entry now =>
    obtain ⟨r, done, rfl⟩ := onRegistry_eq_ok.mp ok
    exact reject_truthful h careful done
  | promote entry now =>
    obtain ⟨r, done, rfl⟩ := onRegistry_eq_ok.mp ok
    exact promote_truthful h done
  | confirm entry now =>
    obtain ⟨r, done, rfl⟩ := onRegistry_eq_ok.mp ok
    exact confirm_truthful h done
  | promoteVerifiedEntries account now =>
    obtain ⟨r, done, rfl⟩ := onRegistry_eq_ok.mp ok
    exact promoteVerifiedEntries_truthful h done
  | recordPayment submission amountCents currency note actorId requestId =>
    obtain ⟨r, done, rfl⟩ := onRegistry_eq_ok.mp ok
    exact recordPayment_truthful h done

theorem step_truthful (h : Truthful p nobody nobody ws.registry) (step : Step p ws op ws') :
    Truthful p nobody nobody ws'.registry := by
  obtain ⟨rfl, careful⟩ := step
  unfold after
  split
  · next done ok => exact perform_truthful h (careful ⟨done, ok⟩) ok
  · exact h

theorem Truthful.agrees (h : Truthful p nobody nobody r) {e : Entry} (he : e ∈ r.entries.rows)
    (live : e.state ∈ liveStates) : Agrees p r e := by
  have waits := h.waits e he live not_false
  have fair := h.fair e he live not_false
  obtain ⟨partner, cap, payment⟩ := recompute_right h.invited e
  refine ⟨waits, fair.cap, fair.payment, fun c hc => ?_⟩
  simp only [derivedCodes, List.mem_cons, List.not_mem_nil, or_false] at hc
  rcases hc with rfl | rfl | rfl
  · exact Iff.trans waits partner.symm
  · exact fair.cap.trans cap.symm
  · exact fair.payment.trans payment.symm

/-! ## One pair -/

def letters : Platform where
  uuid4 n := String.ofList (List.replicate (n + 1) 'u')
  uuid5 space name := space ++ name
  tokenUrlsafe n := String.ofList (List.replicate (n + 1) 't')
  hashToken := id
  lower := id
  casefold := id
  upper := id
  sqlLower := id
  intOfText _ := none
  intOfFloat _ := .error .unreadable
  inviteTtl := 1000
  representations := []
  quote _ _ _ _ _ := "quote"

def hall : Workspace where
  tournament := ⟨"hall", "meet", [], 1⟩
  registry := {
    page := some ⟨true, 1, none, none, none, none⟩
    events := Table.ofRows [{ id := "md", code := "MD", discipline := "MD", entryType := "doubles" }]
    submissions := .empty, payments := .empty, players := .empty, entries := .empty
    invitations := .empty }
  formats := .empty
  events := .empty
  units := .empty
  memberships := .empty
  draws := .empty
  bracketEvents := .empty
  participants := .empty

theorem hall_unentered : Unentered hall.registry := ⟨rfl, rfl, rfl, rfl⟩

/-- One person for the doubles event, with the partner's address if there is one. -/
def entering (partners : List (Uuid × String)) : Operation :=
  .createSubmission
    { accountId := "ann", feeTotalCents := none, feeBasis := none,
      players := [{ fullName := "Ann", gender := "F", events := ["md"], partners := partners }] } 1

def joining : Operation :=
  .accept "uuu"
    { accountId := "bob", fullName := "Bob", gender := "F", acknowledged := true,
      reviewedQuote := some "quote" } 2

instance (spec : PlayerInput) (event : Uuid) : Decidable (Named spec event) :=
  match h : Assoc.get event spec.partners with
  | none => .isFalse (fun ⟨_, named, _⟩ => by simp [h] at named)
  | some named => decidable_of_iff (named ≠ "" ∧ (normalizeEmail named).isSome)
      (by simp [Named, h])

instance (spec : PlayerInput) (event : EntryEvent) : Decidable (Unpartnered p spec event) :=
  inferInstanceAs (Decidable (_ ∧ ¬ _))

/-! ## Every run -/

/-- **After every careful run the cached reasons of every live entry are right.** -/
theorem reasons_agree {ws ws' : Workspace} {ops : List Operation} (start : Unentered ws.registry)
    (run : Run (Step p) ws ops ws') :
    ∀ e ∈ ws'.registry.entries.rows, e.state ∈ liveStates → Agrees p ws'.registry e := by
  have truthful : Truthful p nobody nobody ws'.registry :=
    run.invariant (I := fun ws => Truthful p nobody nobody ws.registry)
      (fun _ _ _ h step => step_truthful h step) (unentered_truthful start)
  exact fun e he live => truthful.agrees he live

/-- The pair enters and joins; the steps ask for the partner's address only. -/
theorem reasons_agree_pair :
    let enter := entering [("md", "bob@hall.org")]
    let ws := after letters (after letters hall enter) joining
    (ws.registry.entries.rows.map Entry.state = [.pending, .pending]) ∧
      ∀ e ∈ ws.registry.entries.rows, e.state ∈ liveStates → Agrees letters ws.registry e := by
  intro enter ws
  have names : ¬ FormLacks letters hall.registry
      { accountId := "ann", feeTotalCents := none, feeBasis := none,
        players := [{ fullName := "Ann", gender := "F", events := ["md"],
                      partners := [("md", "bob@hall.org")] }] } := by
    rintro ⟨spec, hspec, id, hid, event, found, lacks⟩
    obtain rfl := List.mem_singleton.mp hspec
    obtain rfl := List.mem_singleton.mp hid
    obtain rfl := Option.some.inj found
    exact absurd lacks (by decide +kernel)
  have first : Step letters hall enter (after letters hall enter) := ⟨rfl, fun _ => Or.inr names⟩
  have second : Step letters (after letters hall enter) joining ws := ⟨rfl, fun _ => trivial⟩
  exact ⟨by decide +kernel, reasons_agree hall_unentered (.cons first (.cons second (.nil ws)))⟩

/-- A doubles entry without an address waits for no one, by its reasons. -/
theorem reasons_disagree_alone :
    ¬ ∀ (p : Platform) (ws : Workspace) (ops : List Operation), Unentered ws.registry →
      ∀ e ∈ (ops.foldl (after p) ws).registry.entries.rows, e.state ∈ liveStates →
        Agrees p (ops.foldl (after p) ws).registry e := by
  intro always
  have agrees := always letters hall [entering []] hall_unentered
  simp only [List.foldl_cons, List.foldl_nil] at agrees
  set ws := after letters hall (entering []) with run
  have rows : ws.registry.entries.rows.map (fun e => (e.entryEventId, e.state, e.pendingReasons)) =
      [("md", .pending, [])] := by decide +kernel
  have invitations : ws.registry.invitations.rows.length = 0 := by decide +kernel
  have doubles : (ws.registry.events.get "md").any (fun event => isDoubles letters event) := by
    decide +kernel
  obtain ⟨e, he⟩ : ∃ e, ws.registry.entries.rows = [e] := by
    have length := congrArg List.length rows
    rw [List.length_map] at length
    exact List.length_eq_one_iff.mp length
  rw [he, List.map_singleton, List.cons.injEq] at rows
  obtain ⟨same, -⟩ := rows
  obtain ⟨event, same⟩ := Prod.mk.inj same
  obtain ⟨state, reasons⟩ := Prod.mk.inj same
  have quiet : awaitingPartner ∉ e.pendingReasons := by simp [reasons]
  have agree := agrees e (he ▸ List.mem_cons_self) (by rw [state]; decide)
  refine quiet (agree.partner.mpr ⟨?_, ?_⟩)
  · obtain ⟨row, found, isDoubles⟩ := Option.any_eq_true _ _ |>.mp doubles
    exact ⟨row, event ▸ found, by simpa using isDoubles⟩
  · refine not_hasPartner (fun i hi _ => ?_)
    rw [List.length_eq_zero_iff.mp invitations] at hi
    cases hi

end Entries
