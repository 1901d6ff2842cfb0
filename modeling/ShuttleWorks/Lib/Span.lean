import Mathlib.Algebra.Order.Ring.Int
import Mathlib.Data.List.Pairwise

/-! Spans of consecutive slots. A span holds its first slot and stops before its end;
two spans are apart when one stops before the other starts. -/

namespace Lib

structure Span where
  start : Int
  stop : Int
  deriving DecidableEq, Repr

namespace Span

def Holds (a : Span) (t : Int) : Prop := a.start ≤ t ∧ t < a.stop

def Apart (a b : Span) : Prop := a.stop ≤ b.start ∨ b.stop ≤ a.start

instance (a : Span) (t : Int) : Decidable (a.Holds t) := inferInstanceAs (Decidable (_ ∧ _))

instance (a b : Span) : Decidable (a.Apart b) := inferInstanceAs (Decidable (_ ∨ _))

variable {a b : Span}

theorem Apart.symm (h : a.Apart b) : b.Apart a := Or.symm h

theorem Apart.not_both (h : a.Apart b) {t : Int} (ha : a.Holds t) : ¬ b.Holds t := by
  unfold Apart at h
  unfold Holds at ha ⊢
  omega

theorem exists_both (ha : a.start < a.stop) (hb : b.start < b.stop) (h : ¬ a.Apart b) :
    ∃ t, a.Holds t ∧ b.Holds t := by
  unfold Apart at h
  refine ⟨max a.start b.start, ?_, ?_⟩
  · unfold Holds
    omega
  · unfold Holds
    omega

theorem Apart.shorten {a' b' : Span} (h : a.Apart b) (ha : a'.start = a.start)
    (ha' : a'.stop ≤ a.stop) (hb : b'.start = b.start) (hb' : b'.stop ≤ b.stop) : a'.Apart b' := by
  unfold Apart at h ⊢
  omega

end Span

/-! ## Timetables

A timetable is clear when two entries that may not meet are apart, and ordered when nobody starts
before what it needs is over. -/

/-- A place and the time it is taken for. -/
structure Booking (ρ : Type) where
  place : ρ
  span : Span

abbrev Timetable (ι ρ : Type) := ι → Option (Booking ρ)

namespace Timetable

variable {ι ρ : Type}

def Clear (meets : ι → ι → Prop) (t : Timetable ι ρ) : Prop := ∀ u v, u ≠ v → ∀ a ∈ t u, ∀ b ∈ t v,
  a.place = b.place ∨ meets u v → a.span.Apart b.span

def InOrder (needs : ι → ι → Prop) (t : Timetable ι ρ) : Prop := ∀ u d, needs u d → ∀ a ∈ t u,
  ∀ b ∈ t d, b.span.stop ≤ a.span.start

/-- Every entry was there before, at the same place from the same time, and ends no later. -/
def Shortens (t t' : Timetable ι ρ) : Prop := ∀ u, ∀ b ∈ t' u, ∃ a ∈ t u,
  b.place = a.place ∧ b.span.start = a.span.start ∧ b.span.stop ≤ a.span.stop

theorem Shortens.of_sub {t t' : Timetable ι ρ} (h : ∀ u, ∀ b ∈ t' u, t u = some b) : Shortens t t' :=
  fun u b hb => ⟨b, h u b hb, rfl, rfl, le_refl _⟩

theorem Clear.shorten {meets meets' : ι → ι → Prop} {t t' : Timetable ι ρ} (h : t.Clear meets)
    (short : Shortens t t') (same : ∀ u v, (t' u).isSome → (t' v).isSome → meets' u v → meets u v) :
    t'.Clear meets' := by
  intro u v ne a ha b hb met
  obtain ⟨a', ha', place, start, stop⟩ := short u a ha
  obtain ⟨b', hb', place', start', stop'⟩ := short v b hb
  refine (h u v ne a' ha' b' hb' ?_).shorten start stop start' stop'
  rw [← place, ← place']
  exact met.imp_right (same u v (Option.isSome_of_mem ha) (Option.isSome_of_mem hb))

theorem InOrder.shorten {needs needs' : ι → ι → Prop} {t t' : Timetable ι ρ} (h : t.InOrder needs)
    (short : Shortens t t') (same : ∀ u d, (t' u).isSome → needs' u d → needs u d) :
    t'.InOrder needs' := by
  intro u d need a ha b hb
  obtain ⟨a', ha', -, start, -⟩ := short u a ha
  obtain ⟨b', hb', -, -, stop⟩ := short d b hb
  have := h u d (same u d (Option.isSome_of_mem ha) need) a' ha' b' hb'
  omega

/-- Every entry was there before, or is a new one that starts no earlier than the old ones end. -/
structure Extends (limit : Int) (new : ι → Prop) (t t' : Timetable ι ρ) : Prop where
  old : ∀ u, ¬ new u → ∀ a ∈ t' u, t u = some a ∧ a.span.stop ≤ limit
  late : ∀ u, new u → ∀ a ∈ t' u, limit ≤ a.span.start

section Extends

variable {limit : Int} {new : ι → Prop} {t t' : Timetable ι ρ}

theorem Clear.extend {meets : ι → ι → Prop} (h : t.Clear meets) (later : Extends limit new t t')
    (batch : ∀ u v, new u → new v → u ≠ v → ∀ a ∈ t' u, ∀ b ∈ t' v,
      a.place = b.place ∨ meets u v → a.span.Apart b.span) : t'.Clear meets := by
  intro u v ne a ha b hb met
  by_cases nu : new u
  · by_cases nv : new v
    · exact batch u v nu nv ne a ha b hb met
    · exact .inr ((later.old v nv b hb).2.trans (later.late u nu a ha))
  · by_cases nv : new v
    · exact .inl ((later.old u nu a ha).2.trans (later.late v nv b hb))
    · exact h u v ne a (later.old u nu a ha).1 b (later.old v nv b hb).1 met

theorem InOrder.extend {needs : ι → ι → Prop} (h : t.InOrder needs) (later : Extends limit new t t')
    (batch : ∀ u d, needs u d → new d → t' u = none) : t'.InOrder needs := by
  intro u d need a ha b hb
  by_cases nd : new d
  · rw [batch u d need nd] at ha
    cases ha
  by_cases nu : new u
  · exact (later.old d nd b hb).2.trans (later.late u nu a ha)
  · exact h u d need a (later.old u nu a ha).1 b (later.old d nd b hb).1

end Extends

end Timetable

end Lib
