import Mathlib.Data.List.Nodup

/-! Dependency order: lists of rows each of which depends only on keys that stand
before it, and the induction such a list carries. -/

namespace Lib

variable {κ ρ : Type} {key : ρ → κ} {deps : ρ → List κ}

/-- Every row depends only on `seen` keys and on rows before it. -/
def Ordered (key : ρ → κ) (deps : ρ → List κ) : List κ → List ρ → Prop
  | _, [] => True
  | seen, r :: l => (∀ d ∈ deps r, d ∈ seen) ∧ Ordered key deps (key r :: seen) l

namespace Ordered

theorem mono {seen seen' : List κ} {l : List ρ} (hs : ∀ k ∈ seen, k ∈ seen')
    (h : Ordered key deps seen l) : Ordered key deps seen' l := by
  induction l generalizing seen seen' with
  | nil => trivial
  | cons r l ih =>
    obtain ⟨hr, hl⟩ := h
    refine ⟨fun d hd => hs d (hr d hd), ih ?_ hl⟩
    intro k hk
    rcases List.mem_cons.mp hk with rfl | hk
    · exact List.mem_cons_self
    · exact List.mem_cons_of_mem _ (hs k hk)

theorem append {seen : List κ} {l m : List ρ} (hl : Ordered key deps seen l)
    (hm : Ordered key deps (l.map key ++ seen) m) : Ordered key deps seen (l ++ m) := by
  induction l generalizing seen with
  | nil => exact hm
  | cons r l ih =>
    obtain ⟨hr, hl⟩ := hl
    refine ⟨hr, ih hl (hm.mono ?_)⟩
    intro k hk
    simp only [List.map_cons, List.cons_append, List.mem_cons, List.mem_append] at hk ⊢
    rcases hk with hk | hk | hk
    · exact Or.inr (Or.inl hk)
    · exact Or.inl hk
    · exact Or.inr (Or.inr hk)

theorem of_append {seen : List κ} {l m : List ρ} (h : Ordered key deps seen (l ++ m)) :
    Ordered key deps seen l ∧ Ordered key deps (l.map key ++ seen) m := by
  induction l generalizing seen with
  | nil => exact ⟨trivial, h⟩
  | cons r l ih =>
    obtain ⟨hr, h⟩ := h
    obtain ⟨hl, hm⟩ := ih h
    refine ⟨⟨hr, hl⟩, hm.mono ?_⟩
    intro k hk
    simp only [List.map_cons, List.cons_append, List.mem_cons, List.mem_append] at hk ⊢
    rcases hk with hk | hk | hk
    · exact Or.inr (Or.inl hk)
    · exact Or.inl hk
    · exact Or.inr (Or.inr hk)

theorem before {seen : List κ} {l : List ρ} (h : Ordered key deps seen l)
    (unique : (l.map key).Nodup) {before after : List κ} {k : κ}
    (split : l.map key = before ++ k :: after) {r : ρ} (hr : r ∈ l) (e : key r = k) {d : κ}
    (hd : d ∈ deps r) : d ∈ seen ∨ d ∈ before := by
  obtain ⟨l₁, l₂, rfl, rfl, rest⟩ := List.map_eq_append_iff.mp split
  obtain ⟨x, l₃, rfl, hx, rfl⟩ := List.map_eq_cons_iff.mp rest
  obtain rfl := List.inj_on_of_nodup_map unique hr (by simp) (e.trans hx.symm)
  rcases List.mem_append.mp (h.of_append.2.1 d hd) with hd | hd
  · exact .inr hd
  · exact .inl hd

theorem idxOf_lt [DecidableEq κ] {l : List ρ} (h : Ordered key deps [] l)
    (unique : (l.map key).Nodup) {r : ρ} (hr : r ∈ l) {d : κ} (hd : d ∈ deps r) :
    d ∈ l.map key ∧ (l.map key).idxOf d < (l.map key).idxOf (key r) := by
  obtain ⟨pre, post, split⟩ := List.append_of_mem (List.mem_map_of_mem (f := key) hr)
  have new : key r ∉ pre := by
    rw [split, List.nodup_append] at unique
    exact fun hm => unique.2.2 _ hm _ List.mem_cons_self rfl
  have hpre := (h.before unique split hr rfl hd).resolve_left List.not_mem_nil
  rw [split]
  refine ⟨List.mem_append_left _ hpre, ?_⟩
  rw [List.idxOf_append_of_mem hpre, List.idxOf_append_of_notMem new, List.idxOf_cons_self]
  exact Nat.lt_of_lt_of_le (List.idxOf_lt_length_iff.mpr hpre) (Nat.le_add_right _ _)

theorem congr {deps' : ρ → List κ} {seen : List κ} {l : List ρ} (h : Ordered key deps seen l)
    (same : ∀ r ∈ l, deps' r = deps r) : Ordered key deps' seen l := by
  induction l generalizing seen with
  | nil => trivial
  | cons r l ih =>
    refine ⟨?_, ih h.2 (fun r' hr' => same r' (List.mem_cons_of_mem _ hr'))⟩
    rw [same r List.mem_cons_self]
    exact h.1

theorem closed {seen : List κ} {l : List ρ} (h : Ordered key deps seen l) {r : ρ} (hr : r ∈ l)
    {d : κ} (hd : d ∈ deps r) : d ∈ seen ∨ d ∈ l.map key := by
  induction l generalizing seen with
  | nil => simp at hr
  | cons r' l ih =>
    obtain ⟨hr', hl⟩ := h
    rcases List.mem_cons.mp hr with rfl | hr
    · exact Or.inl (hr' d hd)
    · rcases ih hl hr with hd | hd
      · rcases List.mem_cons.mp hd with rfl | hd
        · exact Or.inr (by simp)
        · exact Or.inl hd
      · exact Or.inr (List.mem_cons_of_mem _ hd)

/-- **Induction along the dependencies.** What a row has when all it depends on have it,
every row has. -/
theorem induction {P : κ → Prop} {seen : List κ} {l : List ρ} (h : Ordered key deps seen l)
    (base : ∀ k ∈ seen, P k) (step : ∀ r ∈ l, (∀ d ∈ deps r, P d) → P (key r)) :
    ∀ r ∈ l, P (key r) := by
  induction l generalizing seen with
  | nil => simp
  | cons r l ih =>
    obtain ⟨hr, hl⟩ := h
    have head : P (key r) := step r List.mem_cons_self (fun d hd => base d (hr d hd))
    intro r' hr'
    rcases List.mem_cons.mp hr' with rfl | hr'
    · exact head
    · refine ih hl ?_ (fun r hr => step r (List.mem_cons_of_mem _ hr)) r' hr'
      intro k hk
      rcases List.mem_cons.mp hk with rfl | hk
      · exact head
      · exact base k hk

theorem not_mem_self {seen : List κ} {l : List ρ} (h : Ordered key deps seen l)
    (unique : (l.map key).Nodup) (new : ∀ r ∈ l, key r ∉ seen) {r : ρ} (hr : r ∈ l) :
    key r ∉ deps r := by
  induction l generalizing seen with
  | nil => simp at hr
  | cons r' l ih =>
    obtain ⟨hr', hl⟩ := h
    simp only [List.map_cons, List.nodup_cons] at unique
    rcases List.mem_cons.mp hr with rfl | hr
    · intro hd
      exact new r List.mem_cons_self (hr' _ hd)
    · refine ih hl unique.2 ?_ hr
      intro r'' hr'' hk
      rcases List.mem_cons.mp hk with hk | hk
      · exact unique.1 (hk ▸ List.mem_map_of_mem hr'')
      · exact new r'' (List.mem_cons_of_mem _ hr'') hk

end Ordered

end Lib
