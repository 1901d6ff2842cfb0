import Mathlib.Data.List.Pairwise
import ShuttleWorks.Competition.Roster

/-! The groups that the rows of one code form: what every declaration has to meet in
whatever order the rows are read, and the one thing that depends on the order. -/

namespace Competition
open Lib Entries

variable {code : String} {rows rest done : List (String × JsonObject)} {visited : List String}
  {groups : List (List String)} {k q x y : String} {rows' : List (String × JsonObject)}

def Declares (code : String) (rows : List (String × JsonObject)) (key partner : String) : Prop :=
  ∃ row, (key, row) ∈ rows ∧ partnerOf code row = some partner

def Matched (code : String) (rows : List (String × JsonObject)) (x y : String) : Prop :=
  x ∈ Assoc.keys rows ∧ y ∈ Assoc.keys rows ∧
    (x = y ∨ Declares code rows x y ∨ Declares code rows y x)

/-- What the declarations have to meet in any order of the rows. -/
structure Paired (code : String) (rows : List (String × JsonObject)) : Prop where
  other : ∀ k q, Declares code rows k q → q ≠ k
  answered : ∀ k q, Declares code rows k q →
    ∃ peer, (q, peer) ∈ rows ∧ partnerText code peer ∈ [none, some k]
  alone : ∀ k k' q, Declares code rows k q → Declares code rows k' q → k = k'

/-- A partner that declares nobody stands behind the row that declares it. -/
def InTurn (code : String) (rows : List (String × JsonObject)) : Prop :=
  ∀ k row q peer, (k, row) ∈ rows → (q, peer) ∈ rows → partnerOf code row = some q →
    partnerOf code peer = none → [(k, row), (q, peer)].Sublist rows

theorem partnerText_of_partnerOf {row : JsonObject} {partner : String}
    (h : partnerOf code row = some partner) : partnerText code row = some partner :=
  (Option.filter_eq_some_iff.mp h).1

theorem row_unique (unique : (Assoc.keys rows).Nodup) {row row' : JsonObject} (h : (k, row) ∈ rows)
    (h' : (k, row') ∈ rows) : row = row' :=
  Option.some.inj ((Assoc.get_eq_some_of_mem unique h).symm.trans
    (Assoc.get_eq_some_of_mem unique h'))

theorem mem_keys_of_mem {row : JsonObject} (h : (k, row) ∈ rows) :
    k ∈ Assoc.keys rows :=
  List.mem_map_of_mem (f := Prod.fst) h

theorem row_of_mem_keys (h : k ∈ Assoc.keys rows) : ∃ row, (k, row) ∈ rows := by
  obtain ⟨⟨_, row⟩, hx, rfl⟩ := List.mem_map.mp h
  exact ⟨row, hx⟩

/-! ## The groups formed -/

/-- A group formed from rows that are still to come. -/
inductive Group (code : String) (rest : List (String × JsonObject)) : List String → Prop
  | single {k : String} {row : JsonObject} : (k, row) ∈ rest → partnerOf code row = none →
      Group code rest [k]
  | pair {k q : String} {row peer : JsonObject} : [(k, row), (q, peer)].Sublist rest →
      partnerOf code row = some q → partnerText code peer ∈ [none, some k] →
      Group code rest [k, q]

theorem Group.cons {g : List String} (x : String × JsonObject) (h : Group code rest g) :
    Group code (x :: rest) g := by
  cases h with
  | single mem none => exact .single (List.mem_cons_of_mem _ mem) none
  | pair sub declared answer => exact .pair (sub.cons _) declared answer

/-- What the groups of the remaining rows are, beside the keys taken before. -/
structure Formed (code : String) (rest : List (String × JsonObject)) (visited : List String)
    (groups : List (List String)) : Prop where
  shape : ∀ g ∈ groups, Group code rest g
  covers : ∀ x ∈ rest, x.1 ∈ visited ∨ x.1 ∈ groups.flatten
  nodup : groups.flatten.Nodup
  apart : ∀ k ∈ groups.flatten, k ∉ visited

theorem groupsOf_formed (left : ∀ x ∈ rows, x ∈ rest ∨ x.1 ∈ visited)
    (ok : groupsOf code rows rest visited = .ok groups) : Formed code rest visited groups := by
  induction rest generalizing visited groups with
  | nil =>
    cases ok
    exact ⟨by simp, by simp, by simp, by simp⟩
  | cons x rest ih =>
    obtain ⟨key, row⟩ := x
    unfold groupsOf at ok
    split at ok
    · next seen =>
      have tail := ih (fun x hx => ?_) ok
      · refine ⟨fun g hg => (tail.shape g hg).cons _, ?_, tail.nodup, tail.apart⟩
        intro x hx
        rcases List.mem_cons.mp hx with rfl | hx
        · exact Or.inl seen
        · exact tail.covers x hx
      · rcases left x hx with here | past
        · rcases List.mem_cons.mp here with rfl | here
          · exact Or.inr seen
          · exact Or.inl here
        · exact Or.inr past
    · next fresh =>
      split at ok
      · next silent =>
        simp only [bind_eq_ok] at ok
        obtain ⟨tail, ok, h⟩ := ok
        cases h
        have formed := ih (fun x hx => ?_) ok
        · refine ⟨?_, ?_, ?_, ?_⟩
          · intro g hg
            rcases List.mem_cons.mp hg with rfl | hg
            · exact .single List.mem_cons_self silent
            · exact (formed.shape g hg).cons _
          · intro x hx
            rcases List.mem_cons.mp hx with rfl | hx
            · simp
            · have := formed.covers x hx
              simp only [List.mem_cons, List.flatten_cons, List.singleton_append] at this ⊢
              tauto
          · simp only [List.flatten_cons, List.singleton_append, List.nodup_cons]
            exact ⟨fun h => formed.apart _ h List.mem_cons_self, formed.nodup⟩
          · intro k hk
            simp only [List.flatten_cons, List.singleton_append, List.mem_cons] at hk
            rcases hk with rfl | hk
            · exact fresh
            · exact fun h => formed.apart k hk (List.mem_cons_of_mem _ h)
        · rcases left x hx with here | past
          · rcases List.mem_cons.mp here with rfl | here
            · exact Or.inr List.mem_cons_self
            · exact Or.inl here
          · exact Or.inr (List.mem_cons_of_mem _ past)
      · next partner declared =>
        simp only [bind_eq_ok, found_eq_ok, require_eq_ok] at ok
        obtain ⟨peer, entered, ⟨⟩, answer, tail, ok, h⟩ := ok
        cases h
        split at entered
        · cases entered
        next free =>
        push Not at free
        have other : (partner, peer) ∈ rest := by
          rcases left _ (Assoc.mem_of_get entered) with here | past
          · rcases List.mem_cons.mp here with same | here
            · exact absurd (congrArg Prod.fst same) free.1
            · exact here
          · exact absurd past free.2
        have formed := ih (fun x hx => ?_) ok
        · refine ⟨?_, ?_, ?_, ?_⟩
          · intro g hg
            rcases List.mem_cons.mp hg with rfl | hg
            · exact .pair ((List.singleton_sublist.mpr other).cons_cons _) declared answer
            · exact (formed.shape g hg).cons _
          · intro x hx
            rcases List.mem_cons.mp hx with rfl | hx
            · simp
            · have := formed.covers x hx
              simp only [List.mem_cons, List.flatten_cons, List.cons_append, List.nil_append]
                at this ⊢
              tauto
          · simp only [List.flatten_cons, List.cons_append, List.nil_append, List.nodup_cons,
              List.mem_cons, not_or]
            refine ⟨⟨Ne.symm free.1, fun h => formed.apart _ h List.mem_cons_self⟩, fun h => ?_,
              formed.nodup⟩
            exact formed.apart _ h (List.mem_cons_of_mem _ List.mem_cons_self)
          · intro k hk
            simp only [List.flatten_cons, List.cons_append, List.nil_append, List.mem_cons] at hk
            rcases hk with rfl | rfl | hk
            · exact fresh
            · exact free.2
            · exact fun h => formed.apart k hk
                (List.mem_cons_of_mem _ (List.mem_cons_of_mem _ h))
        · rcases left x hx with here | past
          · rcases List.mem_cons.mp here with rfl | here
            · exact Or.inr List.mem_cons_self
            · exact Or.inl here
          · exact Or.inr (List.mem_cons_of_mem _ (List.mem_cons_of_mem _ past))

namespace Formed

theorem mem_keys (h : Formed code rows [] groups) (hk : k ∈ groups.flatten) :
    k ∈ Assoc.keys rows := by
  obtain ⟨g, hg, hk⟩ := List.mem_flatten.mp hk
  cases h.shape g hg with
  | single mem _ =>
    obtain rfl := List.mem_singleton.mp hk
    exact mem_keys_of_mem mem
  | pair sub _ _ =>
    rcases List.mem_cons.mp hk with rfl | hk
    · exact mem_keys_of_mem (sub.subset List.mem_cons_self)
    · obtain rfl := List.mem_singleton.mp hk
      exact mem_keys_of_mem (sub.subset (List.mem_cons_of_mem _ List.mem_cons_self))

variable {g : List String}

theorem unique (h : Formed code rest visited groups) {g' : List String} (hg : g ∈ groups)
    (hg' : g' ∈ groups) (hk : k ∈ g) (hk' : k ∈ g') : g = g' := by
  by_contra ne
  have : Std.Symm (List.Disjoint (α := String)) := ⟨fun _ _ d _ ha hb => d hb ha⟩
  exact (List.nodup_flatten.mp h.nodup).2.forall hg hg' ne hk hk'

theorem nodup_group (h : Formed code rest visited groups) (hg : g ∈ groups) :
    g.Nodup :=
  (List.nodup_flatten.mp h.nodup).1 g hg

theorem declared (h : Formed code rows [] groups) (keys : (Assoc.keys rows).Nodup)
    (d : Declares code rows k q) : [k, q] ∈ groups ∨ [q, k] ∈ groups ∧ Declares code rows q k := by
  obtain ⟨row, hrow, declared⟩ := d
  obtain ⟨g, hg, hk⟩ := List.mem_flatten.mp
    ((h.covers _ hrow).resolve_left List.not_mem_nil)
  cases h.shape g hg with
  | single mem silent =>
    obtain rfl := List.mem_singleton.mp hk
    rw [row_unique keys mem hrow, declared] at silent
    cases silent
  | @pair k' q' row' peer sub theirs answer =>
    have first : (k', row') ∈ rows := sub.subset List.mem_cons_self
    have second : (q', peer) ∈ rows := sub.subset (List.mem_cons_of_mem _ List.mem_cons_self)
    rcases List.mem_cons.mp hk with rfl | hk
    · rw [row_unique keys first hrow, declared, Option.some.injEq] at theirs
      exact Or.inl (theirs ▸ hg)
    · obtain rfl := List.mem_singleton.mp hk
      rw [row_unique keys second hrow, partnerText_of_partnerOf declared] at answer
      simp only [List.mem_cons, reduceCtorEq, Option.some.injEq, List.not_mem_nil, or_false,
        false_or] at answer
      subst answer
      exact Or.inr ⟨hg, row', first, theirs⟩

theorem paired (h : Formed code rows [] groups) (keys : (Assoc.keys rows).Nodup) :
    Paired code rows := by
  have other : ∀ k q, Declares code rows k q → q ≠ k := by
    rintro k q d rfl
    rcases h.declared keys d with hg | ⟨hg, -⟩ <;> simpa using h.nodup_group hg
  refine ⟨other, ?_, ?_⟩
  · intro k q d
    rcases h.declared keys d with hg | ⟨hg, peer, hpeer, back⟩
    · cases h.shape _ hg with
      | pair sub _ answer =>
        exact ⟨_, sub.subset (List.mem_cons_of_mem _ List.mem_cons_self), answer⟩
    · exact ⟨peer, hpeer, by simp [partnerText_of_partnerOf back]⟩
  · intro k k' q d d'
    have ne := other k q d
    have ne' := other k' q d'
    rcases h.declared keys d with hg | ⟨hg, -⟩ <;> rcases h.declared keys d' with hg' | ⟨hg', -⟩
    all_goals
      have same := h.unique (k := q) hg hg' (by simp) (by simp)
      simp only [List.cons.injEq, and_true, true_and] at same
      grind

theorem inTurn (h : Formed code rows [] groups) (keys : (Assoc.keys rows).Nodup) :
    InTurn code rows := by
  intro k row q peer hrow hpeer declared silent
  rcases h.declared keys ⟨row, hrow, declared⟩ with hg | ⟨-, peer', hpeer', back⟩
  · cases h.shape _ hg with
    | pair sub _ _ =>
      rw [row_unique keys hrow (sub.subset List.mem_cons_self),
        row_unique keys hpeer (sub.subset (List.mem_cons_of_mem _ List.mem_cons_self))]
      exact sub
  · rw [row_unique keys hpeer hpeer', back] at silent
    cases silent

/-- **Who is in one group does not depend on the order of the rows.** -/
theorem joined (h : Formed code rows [] groups) (keys : (Assoc.keys rows).Nodup) :
    (∃ g ∈ groups, x ∈ g ∧ y ∈ g) ↔ Matched code rows x y := by
  constructor
  · rintro ⟨g, hg, hx, hy⟩
    refine ⟨h.mem_keys (List.mem_flatten.mpr ⟨g, hg, hx⟩),
      h.mem_keys (List.mem_flatten.mpr ⟨g, hg, hy⟩), ?_⟩
    cases h.shape g hg with
    | single =>
      exact Or.inl ((List.mem_singleton.mp hx).trans (List.mem_singleton.mp hy).symm)
    | @pair k q row peer sub declared _ =>
      have d : Declares code rows k q := ⟨row, sub.subset List.mem_cons_self, declared⟩
      simp only [List.mem_cons, List.not_mem_nil, or_false] at hx hy
      rcases hx with rfl | rfl <;> rcases hy with rfl | rfl
      · exact Or.inl rfl
      · exact Or.inr (Or.inl d)
      · exact Or.inr (Or.inr d)
      · exact Or.inl rfl
  · rintro ⟨hx, -, rfl | d | d⟩
    · obtain ⟨row, hrow⟩ := row_of_mem_keys hx
      obtain ⟨g, hg, hx⟩ := List.mem_flatten.mp
        ((h.covers _ hrow).resolve_left List.not_mem_nil)
      exact ⟨g, hg, hx, hx⟩
    · rcases h.declared keys d with hg | ⟨hg, -⟩ <;> exact ⟨_, hg, by simp, by simp⟩
    · rcases h.declared keys d with hg | ⟨hg, -⟩ <;> exact ⟨_, hg, by simp, by simp⟩

/-- Groups are short enough where every declared pair, and every key alone, is. -/
theorem lengths (h : Formed code rows [] groups) (keys : (Assoc.keys rows).Nodup)
    {Few : Nat → Prop} (less : ∀ m n, m ≤ n → Few n → Few m) :
    (∀ g ∈ groups, Few g.length) ↔
      ∀ k l, Matched code rows k l → Few (if k = l then 1 else 2) := by
  constructor
  · intro all k l m
    obtain ⟨g, hg, hk, hl⟩ := (h.joined keys).mpr m
    refine less _ _ ?_ (all g hg)
    split
    · exact List.length_pos_of_mem hk
    · next ne =>
      cases h.shape g hg with
      | single =>
        exact absurd ((List.mem_singleton.mp hk).trans (List.mem_singleton.mp hl).symm) ne
      | pair => exact Nat.le_refl 2
  · intro all g hg
    have nodup := h.nodup_group hg
    cases h.shape g hg with
    | @single k =>
      have m : Matched code rows k k := (h.joined keys).mp ⟨_, hg, by simp, by simp⟩
      simpa using all k k m
    | @pair k q =>
      have ne : k ≠ q := by simpa using nodup
      have m : Matched code rows k q := (h.joined keys).mp ⟨_, hg, by simp, by simp⟩
      simpa [ne] using all k q m

end Formed

/-! ## When they can be formed -/

theorem mem_left_of_sublist {α : Type} {a b : α} {l₁ l₂ : List α} (nodup : (l₁ ++ b :: l₂).Nodup)
    (sub : [a, b].Sublist (l₁ ++ b :: l₂)) : a ∈ l₁ := by
  have apart : b ∉ l₁ ∧ b ∉ l₂ := by
    simp only [List.nodup_append, List.nodup_cons] at nodup
    exact ⟨fun h => nodup.2.2 b h b List.mem_cons_self rfl, nodup.2.1.1⟩
  obtain ⟨s, t, same, left, right⟩ := List.sublist_append_iff.mp sub
  cases s with
  | nil =>
    obtain rfl : [a, b] = t := same
    cases right with
    | cons _ tail => exact absurd (tail.subset (by simp)) apart.2
    | cons_cons _ tail => exact absurd (tail.subset (by simp)) apart.2
  | cons c s =>
    obtain ⟨rfl, -⟩ := List.cons.inj same
    exact left.subset List.mem_cons_self

theorem groupsOf_total (keys : (Assoc.keys rows).Nodup) (paired : Paired code rows)
    (turn : InTurn code rows) (here : rows = done ++ rest) (past : ∀ x ∈ done, x.1 ∈ visited)
    (closed : ∀ k q, Declares code rows k q → (k ∈ visited ↔ q ∈ visited)) :
    ∃ groups, groupsOf code rows rest visited = .ok groups := by
  induction rest generalizing done visited with
  | nil => exact ⟨[], rfl⟩
  | cons x rest ih =>
    obtain ⟨key, row⟩ := x
    have mem : (key, row) ∈ rows := by simp [here]
    have next : rows = (done ++ [(key, row)]) ++ rest := by simp [here]
    have passed : ∀ now : List String, key ∈ now → (∀ k ∈ visited, k ∈ now) →
        ∀ x ∈ done ++ [(key, row)], x.1 ∈ now := by
      intro now own more x hx
      rcases List.mem_append.mp hx with hx | hx
      · exact more _ (past x hx)
      · obtain rfl := List.mem_singleton.mp hx
        exact own
    unfold groupsOf
    by_cases seen : key ∈ visited
    · rw [if_pos seen]
      exact ih next (passed visited seen fun _ h => h) closed
    · rw [if_neg seen]
      cases declared : partnerOf code row with
      | none =>
        -- whoever declares it stands before it, so it would have been visited
        have undeclared : ∀ k, ¬ Declares code rows k key := by
          intro k d
          obtain ⟨row', hrow', theirs⟩ := id d
          have sub := turn k row' key row hrow' mem theirs declared
          have nodup : rows.Nodup := List.Nodup.of_map Prod.fst keys
          rw [here] at sub nodup
          exact seen ((closed k key d).mp (past _ (mem_left_of_sublist nodup sub)))
        have closed' : ∀ k q, Declares code rows k q →
            (k ∈ key :: visited ↔ q ∈ key :: visited) := by
          intro k q d
          have ne : k ≠ key := by
            rintro rfl
            obtain ⟨row', hrow', theirs⟩ := d
            rw [row_unique keys hrow' mem, declared] at theirs
            cases theirs
          have ne' : q ≠ key := by
            rintro rfl
            exact undeclared k d
          simp only [List.mem_cons, ne, ne', false_or]
          exact closed k q d
        obtain ⟨groups, ok⟩ := ih next (passed _ (by simp) (by simp +contextual)) closed'
        exact ⟨[key] :: groups, by simp [ok]⟩
      | some partner =>
        have d : Declares code rows key partner := ⟨row, mem, declared⟩
        obtain ⟨peer, hpeer, answer⟩ := paired.answered key partner d
        have free : ¬ (partner = key ∨ partner ∈ visited) := by
          rintro (same | taken)
          · exact paired.other key partner d same
          · exact seen ((closed key partner d).mpr taken)
        have entered := Assoc.get_eq_some_of_mem keys hpeer
        have closed' : ∀ k q, Declares code rows k q →
            (k ∈ key :: partner :: visited ↔ q ∈ key :: partner :: visited) := by
          intro k q e
          have fore : k = key → q = partner := by
            rintro rfl
            obtain ⟨row', hrow', theirs⟩ := e
            rw [row_unique keys hrow' mem, declared, Option.some.injEq] at theirs
            exact theirs.symm
          have back : k = partner → q = key := by
            rintro rfl
            obtain ⟨row', hrow', theirs⟩ := e
            rw [row_unique keys hpeer hrow', partnerText_of_partnerOf theirs] at answer
            simpa using answer
          have answered : q = partner → k = key := by
            rintro rfl
            exact paired.alone k key q e d
          have returned : q = key → k = partner := by
            rintro rfl
            obtain ⟨row', hrow', theirs⟩ := paired.answered k q e
            rw [row_unique keys hrow' mem, partnerText_of_partnerOf declared] at theirs
            simpa [eq_comm] using theirs
          simp only [List.mem_cons, closed k q e]
          tauto
        obtain ⟨groups, ok⟩ := ih next (passed _ (by simp) (by simp +contextual)) closed'
        refine ⟨[key, partner] :: groups, ?_⟩
        simp only [if_neg free, entered, bind_eq_ok, found_eq_ok, require_eq_ok]
        exact ⟨peer, rfl, (), answer, groups, ok, rfl⟩

/-- **The rows of a code form groups exactly where their declarations agree and every partner
that declares nobody stands behind the row that declares it.** -/
theorem groupsOf_isOk_iff (keys : (Assoc.keys rows).Nodup) :
    (∃ groups, groupsOf code rows rows [] = .ok groups) ↔ Paired code rows ∧ InTurn code rows := by
  constructor
  · rintro ⟨groups, ok⟩
    have formed := groupsOf_formed (fun x hx => Or.inl hx) ok
    exact ⟨formed.paired keys, formed.inTurn keys⟩
  · rintro ⟨paired, turn⟩
    refine @groupsOf_total _ _ _ [] _ keys paired turn rfl ?_ ?_ <;> simp

/-! ## Rows in another order -/

theorem Declares.perm (same : rows.Perm rows') :
    Declares code rows k q ↔ Declares code rows' k q := by
  simp only [Declares, same.mem_iff]

theorem Matched.perm (same : rows.Perm rows') :
    Matched code rows x y ↔ Matched code rows' x y := by
  have keys : (Assoc.keys rows).Perm (Assoc.keys rows') := same.map _
  simp only [Matched, Declares.perm same, keys.mem_iff]

theorem Paired.perm (same : rows.Perm rows') (h : Paired code rows) : Paired code rows' where
  other k q d := h.other k q ((Declares.perm same).mpr d)
  answered k q d := by
    obtain ⟨peer, hpeer, answer⟩ := h.answered k q ((Declares.perm same).mpr d)
    exact ⟨peer, same.mem_iff.mp hpeer, answer⟩
  alone k k' q d d' := h.alone k k' q ((Declares.perm same).mpr d) ((Declares.perm same).mpr d')

end Competition
