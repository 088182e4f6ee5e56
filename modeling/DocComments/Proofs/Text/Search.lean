import DocComments.Text.Search
import Mathlib.Data.List.Infix

/-!
# Occurrences in a text

An occurrence of one text in another is the relation `<:+:` of lists. `cut?` finds the first one:
none begins earlier, so the text before it, with all but the last character of the pattern added,
holds none.

* `cut?_eq_some_iff` and `cut?_eq_none_iff` say what `cut?` finds.
* `infix_append_cons_iff`: an occurrence does not reach over a character that the pattern lacks.
* `OccursAt pat t i` gives an occurrence its position; `infix_drop_iff` goes from one to the other.
-/

namespace DocComments.Text

variable {pat t before after a b : Text} {c : Char}

/-! ## Occurrences and separators -/

theorem prefix_of_prefix_append_cons (hc : c ∉ pat) (h : pat <+: a ++ c :: b) : pat <+: a := by
  rcases List.prefix_or_prefix_of_prefix h (List.prefix_append a _) with h' | ⟨r, rfl⟩
  · exact h'
  · cases r with
    | nil => simp
    | cons d r =>
      have hd : d = c ∧ r <+: b := by
        simpa [List.cons_prefix_cons] using (List.prefix_append_right_inj a).1 h
      exact absurd (by simp [hd.1]) hc

/-- **An occurrence lies on one side of a character that the pattern lacks.** -/
theorem infix_append_cons_iff (hpat : pat ≠ []) (hc : c ∉ pat) :
    pat <:+: a ++ c :: b ↔ pat <:+: a ∨ pat <:+: b := by
  constructor
  · induction a with
    | nil =>
      intro h
      rcases List.infix_cons_iff.1 h with h | h
      · exact absurd (List.prefix_nil.1 (prefix_of_prefix_append_cons (a := []) hc h)) hpat
      · exact .inr h
    | cons d a ih =>
      intro h
      rcases List.infix_cons_iff.1 h with h | h
      · exact .inl (prefix_of_prefix_append_cons (a := d :: a) hc h).isInfix
      · exact (ih h).imp_left fun h => h.trans (List.suffix_cons d a).isInfix
  · rintro (h | h)
    · exact h.trans (List.prefix_append ..).isInfix
    · exact h.trans ((List.suffix_cons c b).trans (List.suffix_append ..)).isInfix

theorem infix_append_singleton_iff (hpat : pat ≠ []) (hc : c ∉ pat) :
    pat <:+: a ++ [c] ↔ pat <:+: a := by
  rw [infix_append_cons_iff hpat hc, List.infix_nil, or_iff_left hpat]

theorem infix_cons_iff_of_not_mem (hpat : pat ≠ []) (hc : c ∉ pat) :
    pat <:+: c :: b ↔ pat <:+: b := by
  rw [← List.nil_append (c :: b), infix_append_cons_iff hpat hc, List.infix_nil,
    or_iff_right hpat]

/-! ## The first occurrence -/

theorem append_dropLast_prefix_append (before pat after : Text) :
    before ++ pat.dropLast <+: before ++ pat ++ after := by
  rw [List.append_assoc, List.prefix_append_right_inj]
  exact (List.dropLast_prefix pat).trans (List.prefix_append ..)

theorem not_infix_of_cut? (hpat : pat ≠ []) (h : cut? pat t = some (before, after)) :
    ¬ pat <:+: before ++ pat.dropLast := by
  have hpos := List.length_pos_iff.2 hpat
  induction t generalizing before after with
  | nil => simp [cut?, hpat] at h
  | cons c t ih =>
    simp only [cut?] at h
    split at h
    · cases h
      intro hin
      have := hin.length_le
      rw [List.nil_append, List.length_dropLast] at this
      omega
    · next hp =>
      obtain ⟨⟨b, r⟩, hcut, heq⟩ := Option.map_eq_some_iff.1 h
      cases heq
      intro hin
      rcases List.infix_cons_iff.1 hin with hin | hin
      · -- the occurrence would begin at `c`, where the search did not stop
        refine hp (List.isPrefixOf_iff_prefix.2 (hin.trans ?_))
        rw [eq_append_of_cut? hcut]
        exact append_dropLast_prefix_append (c :: b) pat r
      · exact ih hcut hin

theorem cut?_append (hpat : pat ≠ []) (h : ¬ pat <:+: before ++ pat.dropLast) :
    cut? pat (before ++ pat ++ after) = some (before, after) := by
  induction before with
  | nil =>
    obtain ⟨p, ps, rfl⟩ := List.exists_cons_of_ne_nil hpat
    simp [cut?]
  | cons c before ih =>
    have hp : ¬ pat <+: c :: (before ++ pat ++ after) := by
      intro hp
      refine h (List.prefix_of_prefix_length_le hp
        (append_dropLast_prefix_append (c :: before) pat after) ?_).isInfix
      simp only [List.cons_append, List.length_cons, List.length_append, List.length_dropLast]
      omega
    rw [List.cons_append, List.cons_append, cut?,
      if_neg fun hc => hp (List.isPrefixOf_iff_prefix.1 hc),
      ih fun hin => h (hin.trans (List.suffix_cons c _).isInfix)]
    rfl

/-- **What a search finds.** -/
theorem cut?_eq_some_iff (hpat : pat ≠ []) :
    cut? pat t = some (before, after) ↔
      t = before ++ pat ++ after ∧ ¬ pat <:+: before ++ pat.dropLast := by
  constructor
  · intro h
    exact ⟨eq_append_of_cut? h, not_infix_of_cut? hpat h⟩
  · rintro ⟨rfl, h⟩
    exact cut?_append hpat h

/-- **A search finds nothing exactly where the pattern does not occur.** -/
theorem cut?_eq_none_iff (hpat : pat ≠ []) : cut? pat t = none ↔ ¬ pat <:+: t := by
  induction t with
  | nil => simp [cut?, hpat]
  | cons c t ih =>
    rw [cut?, List.infix_cons_iff, not_or, ← ih]
    split
    · next hp => simp [List.isPrefixOf_iff_prefix.1 hp]
    · next hp =>
      have hp : ¬ pat <+: c :: t := fun h => hp (List.isPrefixOf_iff_prefix.2 h)
      simp [hp]

/-! ## Searching two texts put together -/

/-- The first occurrence in a text is the first also where the text goes on. -/
theorem cut?_append_right (hpat : pat ≠ []) (h : cut? pat t = some (before, after)) (u : Text) :
    cut? pat (t ++ u) = some (before, after ++ u) := by
  obtain ⟨rfl, hfirst⟩ := (cut?_eq_some_iff hpat).1 h
  rw [List.append_assoc]
  exact cut?_append hpat hfirst

/-- A text without an occurrence is passed over, and so is a character that the pattern lacks. -/
theorem cut?_append_cons (hpat : pat ≠ []) (hc : c ∉ pat) (ha : ¬ pat <:+: a) (b : Text) :
    cut? pat (a ++ c :: b) = (cut? pat b).map fun (before, after) => (a ++ c :: before, after) := by
  cases hcut : cut? pat b with
  | none =>
    have hb := (cut?_eq_none_iff hpat).1 hcut
    rw [Option.map_none, cut?_eq_none_iff hpat, infix_append_cons_iff hpat hc, not_or]
    exact ⟨ha, hb⟩
  | some r =>
    obtain ⟨before, after⟩ := r
    obtain ⟨rfl, hfirst⟩ := (cut?_eq_some_iff hpat).1 hcut
    rw [Option.map_some, cut?_eq_some_iff hpat]
    refine ⟨by simp, ?_⟩
    rw [List.append_assoc, List.cons_append, infix_append_cons_iff hpat hc, not_or]
    exact ⟨ha, hfirst⟩

/-- An occurrence does not begin before the first one. -/
theorem suffix_of_prefix_of_first {u : Text} (hu : u <:+ before ++ pat ++ after)
    (hp : pat <+: u) (h : ¬ pat <:+: before ++ pat.dropLast) : u <:+ pat ++ after := by
  have hu' : u <:+ before ++ (pat ++ after) := by rwa [← List.append_assoc]
  refine List.suffix_of_suffix_length_le hu' (List.suffix_append ..) ?_
  by_contra hlen
  have hle := hu.length_le
  have hdrop := List.suffix_iff_eq_drop.1 hu
  generalize hi : (before ++ pat ++ after).length - u.length = i at hdrop
  have hprefix : (before ++ pat.dropLast).drop i <+: u := by
    rw [hdrop]
    exact (append_dropLast_prefix_append before pat after).drop i
  have hlong : pat.length ≤ ((before ++ pat.dropLast).drop i).length := by
    simp only [List.length_drop, List.length_append, List.length_dropLast] at hi hle hlen ⊢
    omega
  exact h <| (List.prefix_of_prefix_length_le hp hprefix hlong).isInfix.trans
    (List.drop_suffix i _).isInfix

theorem suffix_of_cut?_of_prefix (hpat : pat ≠ []) (h : cut? pat t = some (before, after))
    {u : Text} (hu : u <:+ t) (hp : pat <+: u) : u <:+ pat ++ after := by
  obtain ⟨rfl, hfirst⟩ := (cut?_eq_some_iff hpat).1 h
  exact suffix_of_prefix_of_first hu hp hfirst

/-! ## Positions -/

/-- The pattern stands in the text at position `i`. -/
def OccursAt (pat t : Text) (i : ℕ) : Prop :=
  pat <+: t.drop i

instance (pat t : Text) : DecidablePred (OccursAt pat t) :=
  fun _ => inferInstanceAs (Decidable (_ <+: _))

theorem occursAt_append_length : OccursAt pat (a ++ b) a.length ↔ pat <+: b := by
  rw [OccursAt, List.drop_left]

theorem occursAt_append_add {i : ℕ} : OccursAt pat (a ++ b) (a.length + i) ↔ OccursAt pat b i := by
  rw [OccursAt, List.drop_length_add_append, OccursAt]

/-- What occurs from a position on, occurs at a position from there on. -/
theorem infix_drop_iff {i : ℕ} : pat <:+: t.drop i ↔ ∃ j, i ≤ j ∧ OccursAt pat t j := by
  rw [List.infix_iff_prefix_suffix]
  constructor
  · rintro ⟨u, hp, hu⟩
    rw [List.suffix_iff_eq_drop, List.drop_drop] at hu
    exact ⟨_, Nat.le_add_right i _, hu ▸ hp⟩
  · rintro ⟨j, hij, hp⟩
    obtain ⟨k, rfl⟩ := Nat.exists_eq_add_of_le hij
    refine ⟨_, hp, ?_⟩
    rw [← List.drop_drop]
    exact List.drop_suffix k _

/-- The first occurrence of the pattern is at the end of `before`. -/
theorem not_occursAt_of_lt {i : ℕ} (h : ¬ pat <:+: before ++ pat.dropLast)
    (hi : i < before.length) : ¬ OccursAt pat (before ++ pat ++ after) i := by
  intro hp
  have hlen := (suffix_of_prefix_of_first (List.drop_suffix i _) hp h).length_le
  simp only [List.length_drop, List.length_append] at hlen
  omega

end DocComments.Text
