import Mathlib.Data.List.Basic

/-! Work on a store in one database session. Writes are pending until a commit; an exception
ends the work with whatever was committed by then, and what was still pending is rolled back. -/

namespace Lib

/-- What is committed, and the store as the session sees it. -/
structure Session (σ : Type) where
  committed : σ
  working : σ

def Session.opened {σ : Type} (s : σ) : Session σ := ⟨s, s⟩

def Work (σ ε α : Type) : Type := Session σ → Except ε α × Session σ

namespace Work

variable {σ ε α β : Type} {w : Work σ ε α} {f : α → Work σ ε β} {Q Q' : α → Session σ → Prop}
  {E E' : Session σ → Prop} {x : Session σ} {φ : Type}

protected def pure (a : α) : Work σ ε α := fun x => (.ok a, x)

protected def bind (w : Work σ ε α) (f : α → Work σ ε β) : Work σ ε β := fun x =>
  match w x with
  | (.ok a, x') => f a x'
  | (.error e, x') => (.error e, x')

instance : Monad (Work σ ε) where
  pure := Work.pure
  bind := Work.bind

def raise (e : ε) : Work σ ε α := fun x => (.error e, x)

def read : Work σ ε σ := fun x => (.ok x.working, x)

def ofExcept (answer : Except ε α) : Work σ ε α := fun x => (answer, x)

def edit (f : σ → Except ε (α × σ)) : Work σ ε α := fun x =>
  match f x.working with
  | .ok (a, s) => (.ok a, { x with working := s })
  | .error e => (.error e, x)

/-- Send the pending writes; `answer` is the exception the database raises, if it raises one. -/
def flush (answer : Option ε) : Work σ ε Unit := fun x =>
  match answer with
  | none => (.ok (), x)
  | some e => (.error e, x)

def commit (answer : Option ε) : Work σ ε Unit := fun x =>
  match answer with
  | none => (.ok (), ⟨x.working, x.working⟩)
  | some e => (.error e, x)

def execute (w : Work σ ε α) (s : σ) : Except ε α × σ :=
  ((w (.opened s)).1, (w (.opened s)).2.committed)

theorem execute_read_bind (f : σ → Work σ ε β) (s : σ) :
    (read >>= f).execute s = (f s).execute s := by rfl

@[simp] theorem execute_ok_bind (a : α) (f : α → Work σ ε β) (s : σ) :
    (ofExcept (.ok a) >>= f).execute s = (f a).execute s := by rfl

@[simp] theorem execute_error_bind (e : ε) (f : α → Work σ ε β) (s : σ) :
    (ofExcept (.error e) >>= f).execute s = (.error e, s) := by rfl

/-! ## How work can end -/

/-- The work ends with a result where `Q` holds, or with an exception where `E` holds. -/
def Ends (w : Work σ ε α) (Q : α → Session σ → Prop) (E : Session σ → Prop) (x : Session σ) :
    Prop :=
  match w x with
  | (.ok a, x') => Q a x'
  | (.error _, x') => E x'

@[simp] theorem ends_pure {a : α} : (pure a : Work σ ε α).Ends Q E x ↔ Q a x := Iff.rfl

@[simp] theorem ends_read {Q : σ → Session σ → Prop} :
    (read : Work σ ε σ).Ends Q E x ↔ Q x.working x := Iff.rfl

@[simp] theorem ends_ofExcept {answer : Except ε α} :
    (ofExcept answer : Work σ ε α).Ends Q E x ↔ (∀ a, answer = .ok a → Q a x) ∧
      (∀ e, answer = .error e → E x) := by
  unfold Ends ofExcept
  cases answer <;> simp

@[simp] theorem ends_bind {Q : β → Session σ → Prop} :
    (w >>= f).Ends Q E x ↔ w.Ends (fun a => (f a).Ends Q E) E x := by
  show (Work.bind w f).Ends Q E x ↔ _
  unfold Ends Work.bind
  rcases w x with ⟨a | e, x'⟩ <;> rfl

@[simp] theorem ends_edit {g : σ → Except ε (α × σ)} :
    (edit g).Ends Q E x ↔ (∀ a s, g x.working = .ok (a, s) → Q a { x with working := s }) ∧
      (∀ e, g x.working = .error e → E x) := by
  unfold Ends edit
  rcases g x.working with e | ⟨a, s⟩ <;> simp

@[simp] theorem ends_flush {answer : Option ε} {Q : Unit → Session σ → Prop} :
    (flush answer).Ends Q E x ↔ (answer = none → Q () x) ∧ (answer.isSome → E x) := by
  unfold Ends flush
  cases answer <;> simp

@[simp] theorem ends_commit {answer : Option ε} {Q : Unit → Session σ → Prop} :
    (commit answer).Ends Q E x ↔
      (answer = none → Q () ⟨x.working, x.working⟩) ∧ (answer.isSome → E x) := by
  unfold Ends commit
  cases answer <;> simp

/-- **Consequence rule.** -/
theorem Ends.mono (h : w.Ends Q E x) (hQ : ∀ a x', Q a x' → Q' a x') (hE : ∀ x', E x' → E' x') :
    w.Ends Q' E' x := by
  unfold Ends at h ⊢
  split at h
  · exact hQ _ _ h
  · exact hE _ h

theorem Ends.and (h : w.Ends Q E x) (h' : w.Ends Q' E' x) :
    w.Ends (fun a x' => Q a x' ∧ Q' a x') (fun x' => E x' ∧ E' x') x := by
  unfold Ends at h h' ⊢
  split at h <;> simp_all

theorem Ends.of_ok {s : σ} (h : w.Ends Q E (.opened s)) {a : α} (ok : (w.execute s).1 = .ok a) :
    ∃ x', Q a x' ∧ x'.committed = (w.execute s).2 := by
  unfold Ends at h
  unfold Work.execute at ok ⊢
  split at h
  · next b x' found =>
    rw [found] at ok ⊢
    cases ok
    exact ⟨x', h, rfl⟩
  · next e x' found =>
    rw [found] at ok
    cases ok

/-! ## What work keeps -/

/-- What holds of the committed store and of the pending one still does when the work ends. -/
def Keeps (I : σ → Prop) (w : Work σ ε α) : Prop :=
  ∀ x : Session σ, I x.committed → I x.working →
    w.Ends (fun _ x' => I x'.committed ∧ I x'.working) (fun x' => I x'.committed) x

namespace Keeps

variable {I : σ → Prop}

theorem pure (a : α) : Keeps I (Pure.pure a : Work σ ε α) := fun _ h h' => ⟨h, h'⟩

theorem bind (h : Keeps I w) (h' : ∀ a, Keeps I (f a)) : Keeps I (w >>= f) := by
  intro x committed working
  refine ends_bind.mpr ((h x committed working).mono (fun a x' kept => ?_) (fun _ kept => kept))
  exact h' a x' kept.1 kept.2

theorem read : Keeps I (Work.read : Work σ ε σ) := fun _ h h' => ⟨h, h'⟩

theorem flush (answer : Option ε) : Keeps I (Work.flush answer : Work σ ε Unit) :=
  fun _ h h' => ends_flush.mpr ⟨fun _ => ⟨h, h'⟩, fun _ => h⟩

theorem commit (answer : Option ε) : Keeps I (Work.commit answer : Work σ ε Unit) :=
  fun _ h h' => ends_commit.mpr ⟨fun _ => ⟨h', h'⟩, fun _ => h⟩

theorem edit {g : σ → Except ε (α × σ)} (h : ∀ s a s', I s → g s = .ok (a, s') → I s') :
    Keeps I (Work.edit g) :=
  fun x committed working => ends_edit.mpr
    ⟨fun a s' ok => ⟨committed, h x.working a s' working ok⟩, fun _ _ => committed⟩

theorem ite [Decidable c] {v : Work σ ε α} (h : Keeps I w) (h' : Keeps I v) :
    Keeps I (if c then w else v) := by
  split
  · exact h
  · exact h'

theorem execute (h : Keeps I w) {s : σ} (start : I s) : I (w.execute s).2 := by
  have ends := h (.opened s) start start
  unfold Ends at ends
  unfold Work.execute
  split at ends
  · next found => exact found ▸ ends.1
  · next found => exact found ▸ ends

end Keeps

/-! ## What work raises -/

/-- Every exception the work ends with is one of `P`. -/
def Raises (P : ε → Prop) (w : Work σ ε α) : Prop := ∀ x e, (w x).1 = .error e → P e

namespace Raises

variable {P : ε → Prop}

theorem pure (a : α) : Raises P (Pure.pure a : Work σ ε α) := fun _ _ h => nomatch h

theorem read : Raises P (Work.read : Work σ ε σ) := fun _ _ h => nomatch h

theorem raise {e : ε} (h : P e) : Raises P (Work.raise e : Work σ ε α) := by
  intro _ e' raised
  cases raised
  exact h

theorem bind (h : Raises P w) (h' : ∀ a, Raises P (f a)) : Raises P (w >>= f) := by
  intro x e raised
  change (Work.bind w f x).1 = .error e at raised
  unfold Work.bind at raised
  split at raised
  · exact h' _ _ e raised
  · next found =>
    cases raised
    exact h x e (by rw [found])

theorem ofExcept {answer : Except ε α} (h : ∀ e, answer = .error e → P e) :
    Raises P (Work.ofExcept answer : Work σ ε α) := fun _ e raised => h e raised

theorem edit {g : σ → Except ε (α × σ)} (h : ∀ s e, g s = .error e → P e) :
    Raises P (Work.edit g) := by
  intro x e raised
  unfold Work.edit at raised
  split at raised
  · cases raised
  · next found =>
    cases raised
    exact h _ e found

theorem flush {answer : Option ε} (h : ∀ e ∈ answer, P e) :
    Raises P (Work.flush answer : Work σ ε Unit) := by
  intro x e raised
  unfold Work.flush at raised
  cases answer with
  | none => cases raised
  | some e' =>
    cases raised
    exact h e rfl

theorem commit {answer : Option ε} (h : ∀ e ∈ answer, P e) :
    Raises P (Work.commit answer : Work σ ε Unit) := by
  intro x e raised
  unfold Work.commit at raised
  cases answer with
  | none => cases raised
  | some e' =>
    cases raised
    exact h e rfl

theorem ite [Decidable c] {v : Work σ ε α} (h : Raises P w) (h' : Raises P v) :
    Raises P (if c then w else v) := by
  split
  · exact h
  · exact h'

end Raises

/-! ## All or nothing -/

/-- Whatever fails, the work leaves the store as it was, or as it leaves it where nothing fails. -/
def AllOrNothing (work : φ → Work σ ε α) (sound : φ) (s : σ) : Prop :=
  ∀ f, ((work f).execute s).2 = s ∨
    ∃ a, (work sound).execute s = (.ok a, ((work f).execute s).2)

theorem Ends.execute {P : σ → Prop} {s : σ}
    (h : w.Ends (fun _ x => P x.committed) (fun x => P x.committed) (.opened s)) :
    P (w.execute s).2 := by
  unfold Ends at h
  unfold Work.execute
  split at h
  · next found => exact found ▸ h
  · next found => exact found ▸ h

theorem Ends.answers {s : σ} (h : w.Ends Q (fun _ => False) (.opened s)) :
    ∃ a x, w.execute s = (.ok a, x.committed) ∧ Q a x := by
  unfold Ends at h
  unfold Work.execute
  split at h
  · next a x found => exact ⟨a, x, by rw [found], h⟩
  · exact absurd h not_false

theorem allOrNothing_congr {work work' : φ → Work σ ε α} {sound : φ} {s : σ}
    (same : ∀ f, (work f).execute s = (work' f).execute s) :
    AllOrNothing work sound s ↔ AllOrNothing work' sound s := by
  simp only [AllOrNothing, same]

/-- **Every end is the store as it was, or one that the sound work answers with.** -/
theorem AllOrNothing.of_ends {work : φ → Work σ ε α} {sound : φ} {s : σ} (Done : σ → Prop)
    (ends : ∀ f, (work f).Ends (fun _ x => x.committed = s ∨ Done x.committed)
      (fun x => x.committed = s ∨ Done x.committed) (.opened s))
    (done : ∀ t, Done t → ∃ a, (work sound).execute s = (.ok a, t)) :
    AllOrNothing work sound s := by
  intro f
  rcases (ends f).execute (P := fun t => t = s ∨ Done t) with same | left
  · exact .inl same
  · exact .inr (done _ left)

end Work

end Lib
