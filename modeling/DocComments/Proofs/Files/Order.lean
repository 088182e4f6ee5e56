import DocComments.Files.Path
import Mathlib.Data.List.Forall2
import Mathlib.Data.List.TakeWhile

/-!
# The order of paths

Two spellings of one path stand at the same place in the order of paths, and no others do. Sorting
keeps the order of such spellings, and of neighbours at one place only the first is kept, so of all
spellings of a path the one that comes first stays, and all that stay are in strict order.

* `Path.compare_eq_eq_iff` says what stands at the same place, and the instance of `Std.TransCmp`
  that the places are in a line.
* `Path.pairwise_sortDistinct` and `Path.find?_sortDistinct`: what is kept is in strict order, and
  is what comes first among its spellings.
* `Path.forall₂_same_sortDistinct`: what is kept depends on the set of paths only, up to spelling.
-/

namespace DocComments

/-! ## Texts and components -/

/-- Things can be put in the order of something that is known of them. -/
theorem transCmp_of_key {α β : Type} (cmp : β → β → Ordering) [Std.TransCmp cmp] (key : α → β) :
    Std.TransCmp fun a b => cmp (key a) (key b) where
  eq_swap := by
    intro a b
    exact Std.OrientedCmp.eq_swap
  isLE_trans := by
    intro a b c
    exact Std.TransCmp.isLE_trans

instance transCmp_text : Std.TransCmp Text.compare :=
  inferInstanceAs (Std.TransCmp (List.compareLex (compareOn Char.toNat)))

instance lawfulEqCmp_toNat : Std.LawfulEqCmp (compareOn Char.toNat) where
  eq_of_compare h := Char.toNat_inj.1 (Nat.compare_eq_eq.1 h)

instance lawfulEqCmp_text : Std.LawfulEqCmp Text.compare :=
  inferInstanceAs (Std.LawfulEqCmp (List.compareLex (compareOn Char.toNat)))

namespace Path

instance transCmp_label : Std.TransCmp fun a b : Component => Text.compare a.label b.label :=
  transCmp_of_key Text.compare Component.label

instance transCmp_component : Std.TransCmp Component.compare :=
  inferInstanceAs (Std.TransCmp (compareLex (compareOn Component.rank)
    fun a b => Text.compare a.label b.label))

instance lawfulEqCmp_component : Std.LawfulEqCmp Component.compare where
  eq_of_compare {a b} h := by
    obtain ⟨hrank, hlabel⟩ := Ordering.then_eq_eq.1 h
    have hrank := Nat.compare_eq_eq.1 hrank
    have hlabel := Std.LawfulEqCmp.eq_of_compare hlabel
    cases a <;> cases b <;> simp_all [Component.rank, Component.label]

/-! ## Paths -/

variable {p q : Path} {ps qs : List Path}

instance transCmp_compare : Std.TransCmp Path.compare :=
  transCmp_of_key (List.compareLex Component.compare) components

theorem same_iff : p.same q = true ↔ p.components = q.components := by
  rw [same, decide_eq_true_eq]

theorem same_self (p : Path) : p.same p = true :=
  same_iff.2 rfl

/-- **Paths stand at the same place if they have the same components.** -/
theorem compare_eq_eq_iff : Path.compare p q = .eq ↔ p.same q = true := by
  rw [same_iff]
  exact @Std.LawfulEqCmp.compare_eq_iff_eq _ (List.compareLex Component.compare) _ _ _

theorem same_comm (p q : Path) : p.same q = q.same p := by
  rw [Bool.eq_iff_iff, same_iff, same_iff, eq_comm]

/-- Where a path has the same components as one, it stands for it among all others. -/
theorem same_eq_of_same (h : p.same q = true) : p.same = q.same := by
  funext r
  rw [Bool.eq_iff_iff, same_iff, same_iff, same_iff.1 h]

/-! ## Firsts of neighbours -/

/-- Of the spellings of a path, the first is kept. -/
theorem find?_keepFirsts (q : Path) (ps : List Path) :
    (keepFirsts ps).find? q.same = ps.find? q.same := by
  induction ps with
  | nil => rfl
  | cons p ps ih =>
    rw [keepFirsts, List.find?_cons, List.find?_cons]
    cases hq : q.same p with
    | true => rfl
    | false =>
      -- What is dropped are spellings of `p`, and these are none of `q`.
      have hdropped : ((keepFirsts ps).takeWhile p.same).find? q.same = none := by
        rw [List.find?_eq_none]
        intro r hr
        rw [same_comm, ← same_eq_of_same (List.mem_takeWhile_imp hr), same_comm, hq]
        exact Bool.false_ne_true
      dsimp only
      rw [← ih]
      conv_rhs => rw [← List.takeWhile_append_dropWhile (p := p.same) (l := keepFirsts ps)]
      rw [List.find?_append, hdropped, Option.none_or]

/-- Among paths in order, the first that are kept are in strict order. -/
theorem pairwise_keepFirsts (h : ps.Pairwise fun p q => (Path.compare p q).isLE = true) :
    (keepFirsts ps).Pairwise fun p q => Path.compare p q = .lt := by
  induction ps with
  | nil => exact .nil
  | cons p ps ih =>
    obtain ⟨hp, hps⟩ := List.pairwise_cons.1 h
    have hstrict := (ih hps).sublist (List.dropWhile_sublist p.same)
    refine List.pairwise_cons.2 ⟨fun q hq => ?_, hstrict⟩
    cases hrest : (keepFirsts ps).dropWhile p.same with
    | nil => simp [hrest] at hq
    | cons r rest =>
      rw [hrest] at hq hstrict
      -- The first that is left is no spelling of `p`, so `p` stands before it.
      have hne : ¬ p.same r = true := by
        simpa [hrest] using List.head?_dropWhile_not p.same (keepFirsts ps)
      have hr : r ∈ ps := mem_of_mem_keepFirsts ((List.dropWhile_sublist p.same).subset
        (hrest ▸ List.mem_cons_self))
      have hlt : Path.compare p r = .lt := by
        have hle := hp r hr
        rw [← compare_eq_eq_iff] at hne
        cases hcompare : Path.compare p r <;> simp_all
      rcases List.mem_cons.1 hq with rfl | hq
      · exact hlt
      · exact Std.TransCmp.lt_trans hlt ((List.pairwise_cons.1 hstrict).1 q hq)

/-! ## Sorted paths, each once -/

theorem compare_isLE_total (p q : Path) :
    ((Path.compare p q).isLE || (Path.compare q p).isLE) = true := by
  rw [@Std.OrientedCmp.eq_swap _ Path.compare _ q p]
  cases Path.compare p q <;> rfl

theorem compare_isLE_trans (p q r : Path) (hpq : (Path.compare p q).isLE = true)
    (hqr : (Path.compare q r).isLE = true) : (Path.compare p r).isLE = true :=
  Std.TransCmp.isLE_trans hpq hqr

/-- **What is kept is in strict order.** -/
theorem pairwise_sortDistinct (ps : List Path) :
    (sortDistinct ps).Pairwise fun p q => Path.compare p q = .lt :=
  pairwise_keepFirsts (List.pairwise_mergeSort compare_isLE_trans compare_isLE_total ps)

/-- Sorting does not change the order of the spellings of a path. -/
theorem filter_mergeSort (q : Path) (ps : List Path) :
    (ps.mergeSort fun p r => (Path.compare p r).isLE).filter q.same = ps.filter q.same := by
  have hperm := (List.mergeSort_perm ps fun p r => (Path.compare p r).isLE).filter q.same
  have hequal : (ps.filter q.same).Pairwise fun p r => (Path.compare p r).isLE = true := by
    refine List.pairwise_of_forall_mem_list fun p hp r hr => ?_
    have hpr : p.same r = true := by
      rw [← same_eq_of_same (List.mem_filter.1 hp).2]
      exact (List.mem_filter.1 hr).2
    rw [compare_eq_eq_iff.2 hpr]
    rfl
  have hsub := (List.sublist_mergeSort compare_isLE_trans compare_isLE_total hequal
    List.filter_sublist).filter q.same
  rw [List.filter_filter] at hsub
  simp only [Bool.and_self] at hsub
  exact (hsub.eq_of_length hperm.length_eq.symm).symm

/-- **Of the spellings of a path, what is kept is the first.** -/
theorem find?_sortDistinct (q : Path) (ps : List Path) :
    (sortDistinct ps).find? q.same = ps.find? q.same := by
  rw [sortDistinct, find?_keepFirsts, ← List.head?_filter, filter_mergeSort, List.head?_filter]

theorem mem_of_mem_sortDistinct (h : p ∈ sortDistinct ps) : p ∈ ps :=
  List.mem_mergeSort.1 (mem_of_mem_keepFirsts h)

/-! ## Lists in strict order -/

/-- No two paths in strict order are spellings of one path. -/
theorem nodup_map_components (h : ps.Pairwise fun p q => Path.compare p q = .lt) :
    (ps.map components).Nodup := by
  refine List.pairwise_map.2 (h.imp fun {p q} hlt heq => ?_)
  rw [compare_eq_eq_iff.2 (same_iff.2 heq)] at hlt
  cases hlt

/-- **Two lists in strict order that have the same paths have the same paths at each position.** -/
theorem forall₂_same_of_pairwise (hps : ps.Pairwise fun p q => Path.compare p q = .lt)
    (hqs : qs.Pairwise fun p q => Path.compare p q = .lt)
    (h : ∀ cs, cs ∈ ps.map components ↔ cs ∈ qs.map components) :
    List.Forall₂ (fun p q => p.same q = true) ps qs := by
  have hperm : (ps.map components).Perm (qs.map components) :=
    (List.perm_ext_iff_of_nodup (nodup_map_components hps) (nodup_map_components hqs)).2 h
  have hlists : ps.map components = qs.map components := by
    have hasymm : ∀ cs ds : List Component, List.compareLex Component.compare cs ds = .lt →
        List.compareLex Component.compare ds cs = .lt → cs = ds := by
      intro cs ds hlt hgt
      rw [Std.OrientedCmp.gt_of_lt hlt] at hgt
      cases hgt
    exact hperm.eq_of_pairwise (fun cs ds _ _ => hasymm cs ds) (List.pairwise_map.2 hps)
      (List.pairwise_map.2 hqs)
  rw [← List.forall₂_eq_eq_eq, List.forall₂_map_left_iff, List.forall₂_map_right_iff] at hlists
  exact hlists.imp fun p q => same_iff.2

theorem mem_map_components_sortDistinct {cs : List Component} :
    cs ∈ (sortDistinct ps).map components ↔ cs ∈ ps.map components := by
  constructor
  · intro h
    obtain ⟨p, hp, rfl⟩ := List.mem_map.1 h
    exact List.mem_map_of_mem (mem_of_mem_sortDistinct hp)
  · intro h
    obtain ⟨p, hp, rfl⟩ := List.mem_map.1 h
    have hsome : ((sortDistinct ps).find? p.same).isSome = true := by
      rw [find?_sortDistinct, List.find?_isSome]
      exact ⟨p, hp, same_self p⟩
    obtain ⟨q, hq⟩ := Option.isSome_iff_exists.1 hsome
    rw [same_iff.1 (List.find?_some hq)]
    exact List.mem_map_of_mem (List.mem_of_find?_eq_some hq)

/-- **What is kept depends on the set of paths only**, up to spelling. -/
theorem forall₂_same_sortDistinct
    (h : ∀ cs, cs ∈ ps.map components ↔ cs ∈ qs.map components) :
    List.Forall₂ (fun p q => p.same q = true) (sortDistinct ps) (sortDistinct qs) :=
  forall₂_same_of_pairwise (pairwise_sortDistinct ps) (pairwise_sortDistinct qs) fun cs => by
    rw [mem_map_components_sortDistinct, mem_map_components_sortDistinct, h]

end Path

end DocComments
