import Mathlib.Data.List.Basic

/-! Computations that may fail: what a sequence of them that succeeded went through. -/

namespace Lib

variable {ε α β β' ε' : Type}

@[simp] theorem bind_eq_ok {x : Except ε α} {f : α → Except ε β} {b : β} :
    (x >>= f) = .ok b ↔ ∃ a, x = .ok a ∧ f a = .ok b := by
  cases x <;> simp [bind, Except.bind]

theorem ok_bind (a : α) (f : α → Except ε β) : (Except.ok a >>= f) = f a := rfl

theorem bind_map {α' : Type} {x : Except ε α} {y : Except ε α'} {f : α → α'} {g : α → Except ε β}
    {h : α' → Except ε β'} {k : β → β'} (first : y = x.map f)
    (next : ∀ a, x = .ok a → h (f a) = (g a).map k) : (y >>= h) = (x >>= g).map k := by
  subst first
  cases x with
  | error e => rfl
  | ok a => exact next a rfl

theorem bind_map_same {x : Except ε α} {g : α → Except ε β} {h : α → Except ε β'} {k : β → β'}
    (next : ∀ a, x = .ok a → h a = (g a).map k) : (x >>= h) = (x >>= g).map k :=
  bind_map (f := fun a => a) (by cases x <;> rfl) next

@[simp] theorem toOption_eq_some {x : Except ε α} {a : α} : x.toOption = some a ↔ x = .ok a := by
  cases x <;> simp [Except.toOption]

theorem exists_ok_of_toOption {x : Except ε α} (h : x.toOption.isSome) : ∃ a, x = .ok a := by
  cases x with
  | ok a => exact ⟨a, rfl⟩
  | error e => cases h

/-- Fail with `e` when `p` holds. -/
def reject (p : Prop) [Decidable p] (e : ε) : Except ε Unit := if p then .error e else .ok ()

@[simp] theorem reject_eq_ok {p : Prop} [Decidable p] {e : ε} {u : Unit} :
    reject p e = .ok u ↔ ¬ p := by
  unfold reject
  split <;> simp_all

@[simp] theorem mapError_eq_ok {f : ε → ε'} {x : Except ε α} {a : α} :
    x.mapError f = .ok a ↔ x = .ok a := by
  cases x <;> simp [Except.mapError]

theorem foldlM_keeps {f : β → α → Except ε β} {I : β → Prop}
    (step : ∀ b a b', I b → f b a = .ok b' → I b') {l : List α} {b b' : β} (hb : I b)
    (h : l.foldlM f b = .ok b') : I b' := by
  induction l generalizing b with
  | nil =>
    cases h
    exact hb
  | cons a l ih =>
    rw [List.foldlM_cons, bind_eq_ok] at h
    obtain ⟨b₁, h₁, h⟩ := h
    exact ih (step b a b₁ hb h₁) h

theorem foldlM_zipIdx_keeps {f : β → α × Nat → Except ε β} {I : Nat → β → Prop} {l : List α}
    {start : Nat} (step : ∀ i a b b', l[i]? = some a → I (start + i) b →
      f b (a, start + i) = .ok b' → I (start + i + 1) b') {b b' : β} (hb : I start b)
    (h : (l.zipIdx start).foldlM f b = .ok b') : I (start + l.length) b' := by
  induction l generalizing start b with
  | nil =>
    cases h
    exact hb
  | cons a l ih =>
    rw [List.zipIdx_cons, List.foldlM_cons, bind_eq_ok] at h
    obtain ⟨b₁, h₁, h⟩ := h
    have first := step 0 a b b₁ rfl hb h₁
    have shifted : ∀ i a b b', l[i]? = some a → I (start + 1 + i) b →
        f b (a, start + 1 + i) = .ok b' → I (start + 1 + i + 1) b' := by
      intro i a b b' ha hi hs
      have shift : start + 1 + i = start + (i + 1) := by omega
      rw [shift] at hi hs ⊢
      exact step (i + 1) a b b' ha hi hs
    have rest := ih shifted first h
    rwa [List.length_cons, show start + (l.length + 1) = start + 1 + l.length by omega]

theorem foldlM_total {f : β → α → Except ε β} {I : β → Prop} {l : List α}
    (step : ∀ a ∈ l, ∀ b, I b → ∃ b', f b a = .ok b' ∧ I b') {b : β} (hb : I b) :
    ∃ b', l.foldlM f b = .ok b' ∧ I b' := by
  induction l generalizing b with
  | nil => exact ⟨b, rfl, hb⟩
  | cons a l ih =>
    obtain ⟨b₁, h, hb₁⟩ := step a List.mem_cons_self b hb
    obtain ⟨b', h', hb'⟩ := ih (fun a ha => step a (List.mem_cons_of_mem _ ha)) hb₁
    refine ⟨b', ?_, hb'⟩
    rw [List.foldlM_cons, h]
    exact h'

theorem mapM_mem {f : α → Except ε β} {l : List α} {bs : List β} (h : l.mapM f = .ok bs) :
    ∀ b ∈ bs, ∃ a ∈ l, f a = .ok b := by
  induction l generalizing bs with
  | nil =>
    cases h
    exact fun b hb => absurd hb List.not_mem_nil
  | cons a l ih =>
    simp only [List.mapM_cons, bind_eq_ok] at h
    obtain ⟨first, h₁, rest, h₂, h⟩ := h
    cases h
    intro b hb
    rcases List.mem_cons.mp hb with rfl | hb
    · exact ⟨a, List.mem_cons_self, h₁⟩
    · obtain ⟨a', ha', h'⟩ := ih h₂ b hb
      exact ⟨a', List.mem_cons_of_mem _ ha', h'⟩

theorem mapM_mem_of_mem {f : α → Except ε β} {l : List α} {bs : List β} (h : l.mapM f = .ok bs) :
    ∀ a ∈ l, ∃ b ∈ bs, f a = .ok b := by
  induction l generalizing bs with
  | nil => exact fun a ha => absurd ha List.not_mem_nil
  | cons a l ih =>
    simp only [List.mapM_cons, bind_eq_ok] at h
    obtain ⟨first, h₁, rest, h₂, h⟩ := h
    cases h
    intro a' ha'
    rcases List.mem_cons.mp ha' with rfl | ha'
    · exact ⟨first, List.mem_cons_self, h₁⟩
    · obtain ⟨b, hb, h'⟩ := ih h₂ a' ha'
      exact ⟨b, List.mem_cons_of_mem _ hb, h'⟩

theorem mapM_ok {κ : Type} {f : α → Except ε β} {k : α → κ} {k' : β → κ} {P : β → Prop}
    {l : List α} (h : ∀ a ∈ l, ∃ b, f a = .ok b ∧ k' b = k a ∧ P b) :
    ∃ bs, l.mapM f = .ok bs ∧ bs.map k' = l.map k ∧ ∀ b ∈ bs, P b := by
  induction l with
  | nil => exact ⟨[], rfl, rfl, by simp⟩
  | cons a l ih =>
    obtain ⟨b, hb, hk, hP⟩ := h a List.mem_cons_self
    obtain ⟨bs, hbs, hks, hPs⟩ := ih (fun a ha => h a (List.mem_cons_of_mem _ ha))
    refine ⟨b :: bs, ?_, by simp [hk, hks], ?_⟩
    · rw [List.mapM_cons, hb, hbs]
      rfl
    · intro b' hb'
      rcases List.mem_cons.mp hb' with rfl | hb'
      · exact hP
      · exact hPs b' hb'

/-! ## What a computation raises -/

theorem bind_error {x : Except ε α} {f : α → Except ε β} {e : ε} (h : (x >>= f) = .error e) :
    x = .error e ∨ ∃ a, x = .ok a ∧ f a = .error e := by
  cases x with
  | error e' =>
    cases h
    exact .inl rfl
  | ok a => exact .inr ⟨a, rfl, h⟩

theorem mapError_error {f : ε → ε'} {x : Except ε α} {e : ε'} (h : x.mapError f = .error e) :
    ∃ e', x = .error e' ∧ f e' = e := by
  cases x with
  | error e' =>
    cases h
    exact ⟨e', rfl, rfl⟩
  | ok a => cases h

theorem mapM_error {f : α → Except ε β} {l : List α} {e : ε} (h : l.mapM f = .error e) :
    ∃ a ∈ l, f a = .error e := by
  induction l with
  | nil => cases h
  | cons a l ih =>
    rw [List.mapM_cons] at h
    rcases bind_error h with here | ⟨b, -, rest⟩
    · exact ⟨a, List.mem_cons_self, here⟩
    · rcases bind_error rest with rest | ⟨bs, -, done⟩
      · obtain ⟨c, hc, found⟩ := ih rest
        exact ⟨c, List.mem_cons_of_mem a hc, found⟩
      · cases done

end Lib
