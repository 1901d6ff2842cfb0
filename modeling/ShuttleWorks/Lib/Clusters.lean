import Mathlib.Data.List.Sort
import Mathlib.Data.Multiset.Basic
import ShuttleWorks.Lib.Assoc
import ShuttleWorks.Lib.Span

/-! The connected components of a list under a symmetric relation, and a sweep that finds those of
spans that overlap. Components are unique up to the order of their members. -/

namespace Lib

variable {α κ : Type}

/-! ## Components -/

section components

def Joined (r : α → α → Prop) (l : List α) : α → α → Prop :=
  Relation.ReflTransGen fun a b => a ∈ l ∧ b ∈ l ∧ r a b

/-- The list falls apart into lists of joined members, with no chain from one to another. -/
structure Components (r : α → α → Prop) (l : List α) (cs : List (List α)) : Prop where
  perm : cs.flatten.Perm l
  inhabited : ∀ c ∈ cs, c ≠ []
  joined : ∀ c ∈ cs, ∀ a ∈ c, ∀ b ∈ c, Joined r l a b
  apart : cs.Pairwise fun c c' => ∀ a ∈ c, ∀ b ∈ c', ¬ Joined r l a b

variable {r : α → α → Prop} {l l' : List α} {cs cs' : List (List α)}

theorem Joined.symm (symm : ∀ a b, r a b → r b a) {a b : α} (h : Joined r l a b) : Joined r l b a := by
  induction h with
  | refl => exact .refl
  | tail _ step ih =>
    obtain ⟨ha, hb, edge⟩ := step
    exact .head ⟨hb, ha, symm _ _ edge⟩ ih

theorem Joined.mono {r' : α → α → Prop} (sub : ∀ a ∈ l, a ∈ l') (weaken : ∀ a ∈ l, ∀ b ∈ l, r a b → r' a b)
    {a b : α} (h : Joined r l a b) : Joined r' l' a b :=
  Relation.ReflTransGen.mono (fun _ _ e => ⟨sub _ e.1, sub _ e.2.1, weaken _ e.1 _ e.2.1 e.2.2⟩) _ _ h

theorem Components.of_edges (perm : cs.flatten.Perm l) (inhabited : ∀ c ∈ cs, c ≠ [])
    (joined : ∀ c ∈ cs, ∀ a ∈ c, ∀ b ∈ c, Joined r c a b)
    (symm : ∀ a b, r a b → r b a) (refl : ∀ a ∈ l, r a a)
    (apart : cs.Pairwise fun c c' => ∀ a ∈ c, ∀ b ∈ c', ¬ r a b) : Components r l cs := by
  have within : ∀ c ∈ cs, ∀ a ∈ c, a ∈ l := fun c hc a ha =>
    perm.mem_iff.mp (List.mem_flatten.mpr ⟨c, hc, ha⟩)
  -- an edge does not leave its part
  have closed : ∀ c ∈ cs, ∀ a ∈ c, ∀ b ∈ l, r a b → b ∈ c := by
    intro c hc a ha b hb edge
    obtain ⟨c', hc', hb⟩ := List.mem_flatten.mp (perm.mem_iff.mpr hb)
    let Off (c c' : List α) : Prop := ∀ a ∈ c, ∀ b ∈ c', ¬ r a b
    have : Std.Symm Off := ⟨fun _ _ h a ha b hb e => h b hb a ha (symm _ _ e)⟩
    by_contra out
    have ne : c ≠ c' := fun e => out (e ▸ hb)
    exact List.Pairwise.forall (R := Off) apart hc hc' ne a ha b hb edge
  have stays : ∀ c ∈ cs, ∀ a ∈ c, ∀ b, Joined r l a b → b ∈ c := by
    intro c hc a ha b h
    induction h with
    | refl => exact ha
    | tail _ step ih => exact closed c hc _ ih _ step.2.1 step.2.2
  refine ⟨perm, inhabited, fun c hc a ha b hb => ?_, ?_⟩
  · exact (joined c hc a ha b hb).mono (within c hc) fun _ _ _ _ => id
  · refine apart.imp_of_mem fun {c c'} hc hc' off a ha b hb chain => ?_
    have both := stays c hc a ha b chain
    exact off b both b hb (refl b (within c hc b both))

theorem Components.eq_filter (h : Components r l cs) (symm : ∀ a b, r a b → r b a) {c : List α}
    (hc : c ∈ cs) {a : α} (ha : a ∈ c) [DecidablePred (Joined r l a)] :
    c = cs.flatten.filter (Joined r l a) := by
  obtain ⟨before, after, rfl⟩ := List.append_of_mem hc
  have apart := h.apart
  rw [List.pairwise_append, List.pairwise_cons] at apart
  obtain ⟨-, ⟨later, -⟩, earlier⟩ := apart
  have own : c.filter (Joined r l a) = c :=
    List.filter_eq_self.mpr fun b hb => decide_eq_true (h.joined c hc a ha b hb)
  have none_before : before.flatten.filter (Joined r l a) = [] := by
    refine List.filter_eq_nil_iff.mpr fun b hb chain => ?_
    obtain ⟨c', hc', hb⟩ := List.mem_flatten.mp hb
    exact earlier c' hc' c List.mem_cons_self b hb a ha ((of_decide_eq_true chain).symm symm)
  have none_after : after.flatten.filter (Joined r l a) = [] := by
    refine List.filter_eq_nil_iff.mpr fun b hb chain => ?_
    obtain ⟨c', hc', hb⟩ := List.mem_flatten.mp hb
    exact later c' hc' a ha b hb (of_decide_eq_true chain)
  rw [List.flatten_append, List.flatten_cons, List.filter_append, List.filter_append, none_before,
    none_after, own, List.nil_append, List.append_nil]

/-- **Components are unique**, whatever the order of the list. -/
theorem Components.unique (h : Components r l cs) (h' : Components r l' cs') (perm : l.Perm l')
    (symm : ∀ a b, r a b → r b a) :
    (cs.map Multiset.ofList).Perm (cs'.map Multiset.ofList) := by
  classical
  have chain : ∀ a, Joined r l a = Joined r l' a := by
    intro a
    unfold Joined
    simp only [perm.mem_iff]
  have flat : cs.flatten.Perm cs'.flatten := h.perm.trans (perm.trans h'.perm.symm)
  -- both lists have no part twice, and the same ones
  have nodup : ∀ {m : List α} {ds : List (List α)}, Components r m ds →
      (ds.map Multiset.ofList).Nodup := by
    intro m ds hd
    refine List.pairwise_map.mpr (hd.apart.imp_of_mem fun {c c'} hc _ off e => ?_)
    obtain ⟨a, ha⟩ := List.exists_mem_of_ne_nil c (hd.inhabited c hc)
    exact off a ha a ((Multiset.coe_eq_coe.mp e).mem_iff.mp ha) .refl
  have part : ∀ {m m' : List α} {ds ds' : List (List α)}, Components r m ds → Components r m' ds' →
      (∀ a, Joined r m a = Joined r m' a) → ds.flatten.Perm ds'.flatten →
      ∀ c ∈ ds, ∃ c' ∈ ds', Multiset.ofList c' = Multiset.ofList c := by
    intro m m' ds ds' hd hd' chain flat c hc
    obtain ⟨a, ha⟩ := List.exists_mem_of_ne_nil c (hd.inhabited c hc)
    obtain ⟨c', hc', ha'⟩ :=
      List.mem_flatten.mp (flat.mem_iff.mp (List.mem_flatten.mpr ⟨c, hc, ha⟩))
    refine ⟨c', hc', Multiset.coe_eq_coe.mpr ?_⟩
    rw [hd.eq_filter symm hc ha, hd'.eq_filter symm hc' ha']
    simp only [chain]
    exact (flat.filter _).symm
  refine (List.perm_ext_iff_of_nodup (nodup h) (nodup h')).mpr fun m => ⟨fun hm => ?_, fun hm => ?_⟩
  · obtain ⟨c, hc, rfl⟩ := List.mem_map.mp hm
    obtain ⟨c', hc', e⟩ := part h h' chain flat c hc
    exact List.mem_map.mpr ⟨c', hc', e⟩
  · obtain ⟨c, hc, rfl⟩ := List.mem_map.mp hm
    obtain ⟨c', hc', e⟩ := part h' h (fun a => (chain a).symm) flat.symm c hc
    exact List.mem_map.mpr ⟨c', hc', e⟩

theorem Components.unique_order (h : Components r l cs) (h' : Components r l' cs') (perm : l.Perm l')
    (symm : ∀ a b, r a b → r b a) {before : α → α → Prop} (asymm : ∀ a b, before a b → ¬ before b a)
    (sorted : cs.Pairwise fun c c' => ∀ a ∈ c, ∀ b ∈ c', before a b)
    (sorted' : cs'.Pairwise fun c c' => ∀ a ∈ c, ∀ b ∈ c', before a b) :
    List.Forall₂ List.Perm cs cs' := by
  let Precedes (m m' : Multiset α) : Prop := ∀ a ∈ m, ∀ b ∈ m', before a b
  have inhabited : ∀ m ∈ cs.map Multiset.ofList, ∃ a, a ∈ m := by
    intro m hm
    obtain ⟨c, hc, rfl⟩ := List.mem_map.mp hm
    exact List.exists_mem_of_ne_nil c (h.inhabited c hc)
  have unique := h.unique h' perm symm
  have same : cs.map Multiset.ofList = cs'.map Multiset.ofList := by
    have one : (cs.map Multiset.ofList).Pairwise Precedes := List.pairwise_map.mpr sorted
    have other : (cs'.map Multiset.ofList).Pairwise Precedes := List.pairwise_map.mpr sorted'
    refine List.Perm.eq_of_pairwise ?_ one other unique
    intro m m' hm hm' one other
    obtain ⟨a, ha⟩ := inhabited m hm
    obtain ⟨b, hb⟩ := inhabited m' (unique.mem_iff.mpr hm')
    exact absurd (other b hb a ha) (asymm _ _ (one a ha b hb))
  have equal := List.forall₂_eq_eq_eq.symm ▸ same
  rw [List.forall₂_map_left_iff, List.forall₂_map_right_iff] at equal
  exact equal.imp fun _ _ e => Multiset.coe_eq_coe.mp e

end components

/-! ## Grouping -/

namespace Assoc

variable [DecidableEq κ] {β : Type}

def push (k : κ) (a : α) (l : List (κ × List α)) : List (κ × List α) :=
  set k ((get k l).getD [] ++ [a]) l

theorem push_flatten (k : κ) (a : α) (l : List (κ × List α)) :
    ((push k a l).flatMap Prod.snd).Perm (a :: l.flatMap Prod.snd) := by
  induction l with
  | nil => exact .refl _
  | cons p l ih =>
    obtain ⟨k', v⟩ := p
    unfold push at ih ⊢
    by_cases h : k' = k
    · subst h
      simp only [get_cons, set_cons, if_true, Option.getD_some, List.flatMap_cons, List.append_assoc]
      exact List.perm_middle
    · simp only [get_cons, set_cons, if_neg h, List.flatMap_cons]
      exact (ih.append_left v).trans List.perm_middle

theorem get_push (k k' : κ) (a : α) (l : List (κ × List α)) :
    (get k' (push k a l)).getD [] = (get k' l).getD [] ++ if k = k' then [a] else [] := by
  unfold push
  rw [get_set]
  split
  · next e =>
    subst e
    simp
  · simp

theorem get_foldl_push (ps : List (κ × α)) (l : List (κ × List α)) (k : κ) :
    (get k (ps.foldl (fun groups p => push p.1 p.2 groups) l)).getD [] =
      (get k l).getD [] ++ (ps.filter (·.1 = k)).map Prod.snd := by
  induction ps generalizing l with
  | nil => simp
  | cons p ps ih =>
    rw [List.foldl_cons, ih, get_push]
    by_cases h : p.1 = k
    · simp [h]
    · simp [h]

theorem mem_keys_foldl_push {ps : List (κ × α)} {l : List (κ × List α)} {k : κ} :
    k ∈ keys (ps.foldl (fun groups p => push p.1 p.2 groups) l) ↔
      k ∈ keys l ∨ ∃ p ∈ ps, p.1 = k := by
  induction ps generalizing l with
  | nil => simp
  | cons p ps ih =>
    rw [List.foldl_cons, ih, push, mem_keys_set]
    simp only [List.mem_cons, exists_eq_or_imp]
    rw [or_assoc, or_left_comm, eq_comm]

theorem nodup_keys_foldl_push (ps : List (κ × α)) {l : List (κ × List α)} (h : (keys l).Nodup) :
    (keys (ps.foldl (fun groups p => push p.1 p.2 groups) l)).Nodup := by
  induction ps generalizing l with
  | nil => exact h
  | cons p ps ih => exact ih (nodup_keys_set h)

theorem mem_push {k : κ} {a : α} {l : List (κ × List α)} {p : κ × List α} (h : p ∈ push k a l) :
    p ∈ l ∨ (p.1 = k ∧ ∀ b ∈ p.2, b = a ∨ (k, (get k l).getD []) ∈ l ∧ b ∈ (get k l).getD []) := by
  rcases mem_of_mem_set h with rfl | h
  · refine .inr ⟨rfl, fun b hb => ?_⟩
    rcases List.mem_append.mp hb with hb | hb
    · cases hk : get k l with
      | none => simp [hk] at hb
      | some v => exact .inr ⟨by simpa [hk] using mem_of_get hk, by simpa [hk] using hb⟩
    · exact .inl (List.mem_singleton.mp hb)
  · exact .inl h

theorem get_map (f : α → β) (k : κ) (l : List (κ × α)) :
    get k (l.map fun p => (p.1, f p.2)) = (get k l).map f := by
  induction l with
  | nil => rfl
  | cons p l ih =>
    obtain ⟨k', v⟩ := p
    by_cases h : k' = k <;> simp [h, ih]

theorem set_map (f : α → β) (k : κ) (v : α) (l : List (κ × α)) :
    set k (f v) (l.map fun p => (p.1, f p.2)) = (set k v l).map fun p => (p.1, f p.2) := by
  induction l with
  | nil => rfl
  | cons p l ih =>
    obtain ⟨k', v'⟩ := p
    by_cases h : k' = k <;> simp [h, ih]

theorem push_map (f : α → β) (k : κ) (a : α) (l : List (κ × List α)) :
    push k (f a) (l.map fun p => (p.1, p.2.map f)) = (push k a l).map fun p => (p.1, p.2.map f) := by
  have held : ((get k l).map (List.map f)).getD [] ++ [f a] = (((get k l).getD []) ++ [a]).map f := by
    cases get k l <;> simp
  rw [push, get_map (List.map f), held, set_map (List.map f)]
  rfl

theorem filterMap_get_perm {d : List (κ × α)} (distinct : (keys d).Nodup) {ks : List κ}
    (nodup : ks.Nodup) (sub : ∀ k ∈ keys d, k ∈ ks) :
    (ks.filterMap (get · d)).Perm (d.map Prod.snd) := by
  induction d generalizing ks with
  | nil => simp
  | cons p d ih =>
    obtain ⟨k, v⟩ := p
    obtain ⟨other, distinct⟩ := List.nodup_cons.mp distinct
    have perm := List.perm_cons_erase (sub k List.mem_cons_self)
    have others : (ks.erase k).filterMap (get · ((k, v) :: d)) = (ks.erase k).filterMap (get · d) := by
      refine List.filterMap_congr fun k' hk' => ?_
      have ne : k ≠ k' := fun e => nodup.not_mem_erase (e ▸ hk')
      rw [get_cons, if_neg ne]
    refine (perm.filterMap _).trans ?_
    rw [List.filterMap_cons, get_cons, if_pos rfl, others]
    refine (ih distinct (nodup.erase k) fun k' hk' => ?_).cons v
    have ne : k' ≠ k := by
      rintro rfl
      exact other hk'
    exact (List.mem_erase_of_ne ne).mpr (sub k' (List.mem_cons_of_mem _ hk'))

end Assoc

/-! ## The sweep -/

section sweep

variable (span : α → Span)

def Meets (a b : α) : Prop := ¬ (span a).Apart (span b)

def clustersFrom : List α → List α → Int → List (List α)
  | [], cluster, _ => [cluster]
  | p :: rest, cluster, stop =>
    if (span p).start < stop then clustersFrom rest (cluster ++ [p]) (max stop (span p).stop)
    else cluster :: clustersFrom rest [p] (span p).stop

def clusters : List α → List (List α)
  | [] => []
  | p :: rest => clustersFrom span rest [p] (span p).stop

variable {span}

theorem Meets.symm {a b : α} (h : Meets span a b) : Meets span b a := fun apart => h apart.symm

theorem Meets.refl {a : α} (h : (span a).start < (span a).stop) : Meets span a a := by
  unfold Meets Span.Apart
  omega

theorem clustersFrom_spec {l : List α} (cluster : List α) (stop : Int) (inhabited : cluster ≠ [])
    (sorted : (cluster ++ l).Pairwise fun a b => (span a).start ≤ (span b).start)
    (solid : ∀ a ∈ cluster ++ l, (span a).start < (span a).stop)
    (joined : ∀ a ∈ cluster, ∀ b ∈ cluster, Joined (Meets span) cluster a b)
    (bound : ∀ a ∈ cluster, (span a).stop ≤ stop) (last : ∃ a ∈ cluster, (span a).stop = stop) :
    (clustersFrom span l cluster stop).flatten = cluster ++ l ∧
      (∀ c ∈ clustersFrom span l cluster stop, c ≠ [] ∧
        ∀ a ∈ c, ∀ b ∈ c, Joined (Meets span) c a b) ∧
      (clustersFrom span l cluster stop).Pairwise fun c c' =>
        ∀ a ∈ c, ∀ b ∈ c', (span a).stop ≤ (span b).start := by
  induction l generalizing cluster stop with
  | nil =>
    refine ⟨by simp [clustersFrom], fun c hc => ?_, List.pairwise_singleton _ _⟩
    obtain rfl := List.mem_singleton.mp hc
    exact ⟨inhabited, joined⟩
  | cons p rest ih =>
    have started : ∀ a ∈ cluster, (span a).start ≤ (span p).start := fun a ha =>
      (List.pairwise_append.mp sorted).2.2 a ha p List.mem_cons_self
    have solid_p := solid p (List.mem_append_right _ List.mem_cons_self)
    rw [clustersFrom]
    split
    · next early =>
      -- the match that lasts longest is still on, so that the next one is joined to it
      obtain ⟨a₀, ha₀, longest⟩ := last
      have meets : Meets span a₀ p := by
        have := started a₀ ha₀
        have := solid a₀ (List.mem_append_left _ ha₀)
        unfold Meets Span.Apart
        omega
      have old : ∀ a ∈ cluster, Joined (Meets span) (cluster ++ [p]) a a₀ := fun a ha =>
        (joined a ha a₀ ha₀).mono (fun _ => List.mem_append_left _) fun _ _ _ _ => id
      have new : Joined (Meets span) (cluster ++ [p]) a₀ p :=
        .single ⟨List.mem_append_left _ ha₀, List.mem_append_right _ (List.mem_singleton_self p), meets⟩
      have centre : ∀ a ∈ cluster ++ [p], Joined (Meets span) (cluster ++ [p]) a a₀ := by
        intro a ha
        rcases List.mem_append.mp ha with ha | ha
        · exact old a ha
        · obtain rfl := List.mem_singleton.mp ha
          exact new.symm fun _ _ => Meets.symm
      have step := ih (cluster ++ [p]) (max stop (span p).stop)
        (by simp) (by rwa [← List.append_cons]) (by rwa [← List.append_cons])
        (fun a ha b hb => (centre a ha).trans ((centre b hb).symm fun _ _ => Meets.symm))
        (by
          intro a ha
          rcases List.mem_append.mp ha with ha | ha
          · exact (bound a ha).trans (le_max_left _ _)
          · obtain rfl := List.mem_singleton.mp ha
            exact le_max_right _ _)
        (by
          rcases le_total (span p).stop stop with le | le
          · exact ⟨a₀, List.mem_append_left _ ha₀, longest.trans (max_eq_left le).symm⟩
          · exact ⟨p, List.mem_append_right _ (List.mem_singleton_self p), (max_eq_right le).symm⟩)
      rwa [← List.append_cons] at step
    · next late =>
      have rest_sorted := (List.pairwise_append.mp sorted).2.1
      obtain ⟨flat, parts, apart⟩ := ih [p] (span p).stop (by simp) rest_sorted
        (fun a ha => solid a (List.mem_append_right _ ha))
        (fun a ha b hb => by
          obtain rfl := List.mem_singleton.mp ha
          obtain rfl := List.mem_singleton.mp hb
          exact .refl)
        (fun a ha => by rw [List.mem_singleton.mp ha]) ⟨p, List.mem_singleton_self p, rfl⟩
      refine ⟨by simp [flat], fun c hc => ?_, List.pairwise_cons.mpr ⟨fun c hc a ha b hb => ?_, apart⟩⟩
      · rcases List.mem_cons.mp hc with rfl | hc
        · exact ⟨inhabited, joined⟩
        · exact parts c hc
      · have hb : b ∈ [p] ++ rest := flat ▸ List.mem_flatten.mpr ⟨c, hc, hb⟩
        have first : (span p).start ≤ (span b).start := by
          rcases List.mem_cons.mp hb with rfl | hb
          · exact le_refl _
          · exact (List.pairwise_cons.mp rest_sorted).1 b hb
        exact (bound a ha).trans ((not_lt.mp late).trans first)

/-- **The sweep finds the clusters.** Over spans that are not empty, in the order of their starts, it
splits the list into joined parts that stop before the later ones start. -/
theorem clusters_spec {l : List α}
    (sorted : l.Pairwise fun a b => (span a).start ≤ (span b).start)
    (solid : ∀ a ∈ l, (span a).start < (span a).stop) :
    (clusters span l).flatten = l ∧
      (∀ c ∈ clusters span l, c ≠ [] ∧ ∀ a ∈ c, ∀ b ∈ c, Joined (Meets span) c a b) ∧
      (clusters span l).Pairwise fun c c' => ∀ a ∈ c, ∀ b ∈ c', (span a).stop ≤ (span b).start := by
  cases l with
  | nil => exact ⟨rfl, fun _ h => absurd h List.not_mem_nil, .nil⟩
  | cons p rest =>
    refine clustersFrom_spec [p] _ (by simp) sorted solid (fun a ha b hb => ?_) (fun a ha => ?_)
      ⟨p, List.mem_singleton_self p, rfl⟩
    · obtain rfl := List.mem_singleton.mp ha
      obtain rfl := List.mem_singleton.mp hb
      exact .refl
    · rw [List.mem_singleton.mp ha]

end sweep

end Lib
