import DocComments.Comment.Scan
import DocComments.Proofs.Text.Lines
import DocComments.Proofs.Text.Search
import DocComments.Proofs.Text.Trim

/-!
# What the scan of a source finds

Between the delimiters of a comment there is no closing delimiter, and what stands there does not
start with a slash. Where such a text stands between delimiters, and no opening delimiter comes
before it, the scan finds it.

* `Span.WellFormed` says what stands between delimiters; `wellFormed_of_mem_spans` that the scan
  finds nothing else.
* `spans_eq_cons` and `spans_eq_nil` say what the scan makes of a comment and of a text without one.
* `target?_eq_some` reads the line after a comment.
-/

namespace DocComments

open Text

variable {s : Span} {line : ℕ} {source before inner rest : Text}

theorem openDelimiter_ne_nil : openDelimiter ≠ [] := List.cons_ne_nil _ _

theorem closeDelimiter_ne_nil : closeDelimiter ≠ [] := List.cons_ne_nil _ _

theorem newline_not_mem_openDelimiter : '\n' ∉ openDelimiter := by decide

theorem newline_not_mem_closeDelimiter : '\n' ∉ closeDelimiter := by decide

/-! ## Between the delimiters -/

/-- What stands between the delimiters of a doc comment. -/
structure Span.WellFormed (s : Span) : Prop where
  /-- The comment ends at the first closing delimiter. -/
  close_not_infix : ¬ closeDelimiter <:+: s.inner
  /-- An empty comment is no doc comment. -/
  head?_ne : s.inner.head? ≠ some '/'

/-- The stars of the opening delimiter close nothing. -/
theorem Span.WellFormed.close_not_infix_body (h : s.WellFormed) :
    ¬ closeDelimiter <:+: s.body := by
  have hstar : ¬ closeDelimiter <+: '*' :: s.inner := by
    intro hp
    refine h.head?_ne ?_
    obtain ⟨r, hr⟩ := (List.cons_prefix_cons.1 hp).2
    rw [← hr]
    rfl
  simp [Span.body, openDelimiter, List.infix_cons_iff, hstar, h.close_not_infix]
  simp [closeDelimiter]

/-- No slash follows the opening delimiter, whatever stands after the comment. -/
theorem Span.WellFormed.head?_append_ne (h : s.WellFormed) (u : Text) :
    (s.inner ++ closeDelimiter ++ u).head? ≠ some '/' := by
  have hhead := h.head?_ne
  cases hinner : s.inner with
  | nil => simp [closeDelimiter]
  | cons c inner =>
    rw [hinner] at hhead
    exact hhead

/-- One more star after what stands between the delimiters closes nothing either. -/
theorem Span.WellFormed.close_not_infix_dropLast (h : s.WellFormed) :
    ¬ closeDelimiter <:+: s.inner ++ closeDelimiter.dropLast := by
  intro hin
  rcases List.infix_concat_iff.1 hin with hin | hin
  · obtain ⟨t, ht, -⟩ := (List.suffix_concat_iff.1 hin).resolve_left closeDelimiter_ne_nil
    have hlast := congrArg List.getLast? ht
    simp [closeDelimiter] at hlast
  · exact h.close_not_infix hin

/-- More stars after what stands between the delimiters keep the comment one. -/
theorem Span.WellFormed.append_stars (h : (Span.mk line inner rest).WellFormed) (n : ℕ) :
    (Span.mk line (inner ++ List.replicate n '*') rest).WellFormed := by
  induction n with
  | zero => simpa using h
  | succ n ih =>
    rw [List.replicate_succ', ← List.append_assoc]
    refine ⟨ih.close_not_infix_dropLast, ?_⟩
    cases hinner : inner ++ List.replicate n '*' with
    | nil => simp
    | cons c t =>
      have hhead := ih.head?_ne
      simp only [hinner] at hhead
      exact hhead

theorem wellFormed_of_mem_spans (h : s ∈ spans line source) : s.WellFormed := by
  fun_induction spans line source with
  | case1 => cases h
  | case2 _ _ _ _ _ _ ih => exact ih h
  | case3 => cases h
  | case4 line source before after hslash hopen inner rest hclose _ _ start ih =>
    rcases List.mem_cons.1 h with rfl | h
    · obtain ⟨hafter, hfirst⟩ := (cut?_eq_some_iff closeDelimiter_ne_nil).1 hclose
      refine ⟨fun hin => hfirst (hin.trans (List.prefix_append ..).isInfix), ?_⟩
      intro hhead
      obtain ⟨inner', hinner⟩ := List.head?_eq_some_iff.1 hhead
      rw [show inner = '/' :: inner' from hinner] at hafter
      exact hslash _ hafter
    · exact ih h

/-! ## One comment -/

theorem spans_eq_nil (h : ¬ openDelimiter <:+: source) : spans line source = [] := by
  have hcut := (cut?_eq_none_iff openDelimiter_ne_nil).2 h
  rw [spans]
  split <;> simp_all

theorem spans_eq_cons_of_cut? {after : Text}
    (hopen : cut? openDelimiter source = some (before, after)) (hslash : after.head? ≠ some '/')
    (hclose : cut? closeDelimiter after = some (inner, rest)) :
    spans line source = ⟨line + before.count '\n', inner, rest⟩ ::
      spans (line + before.count '\n' + inner.count '\n') rest := by
  rw [spans]
  split
  · next hnone => cases hopen.symm.trans hnone
  · next before' after' hsome =>
    cases hopen.symm.trans hsome
    exact absurd rfl hslash
  · next before' after' _ hsome =>
    cases hopen.symm.trans hsome
    split
    · next hnone => cases hclose.symm.trans hnone
    · next inner' rest' hsome =>
      cases hclose.symm.trans hsome
      rfl

/-- An empty comment is passed over. -/
theorem spans_of_cut?_slash {after : Text}
    (hopen : cut? openDelimiter source = some (before, '/' :: after)) :
    spans line source = spans (line + before.count '\n') after := by
  rw [spans]
  split
  · next hnone => cases hopen.symm.trans hnone
  · next before' after' hsome =>
    cases hopen.symm.trans hsome
    rfl
  · next before' after' hslash hsome =>
    cases hopen.symm.trans hsome
    exact absurd rfl (hslash after)

/-- A comment that nothing closes ends the search. -/
theorem spans_eq_nil_of_cut? {after : Text}
    (hopen : cut? openDelimiter source = some (before, after)) (hslash : after.head? ≠ some '/')
    (hclose : cut? closeDelimiter after = none) : spans line source = [] := by
  rw [spans]
  split
  · rfl
  · next before' after' hsome =>
    cases hopen.symm.trans hsome
    exact absurd rfl hslash
  · next before' after' _ hsome =>
    cases hopen.symm.trans hsome
    split
    · rfl
    · next inner' rest' hsome => cases hclose.symm.trans hsome

/-- **The scan finds a comment that no opening delimiter comes before.** -/
theorem spans_eq_cons (hbefore : ¬ openDelimiter <:+: before ++ openDelimiter.dropLast)
    (h : (Span.mk line inner rest).WellFormed) :
    spans line (before ++ openDelimiter ++ (inner ++ closeDelimiter ++ rest)) =
      ⟨line + before.count '\n', inner, rest⟩ ::
        spans (line + before.count '\n' + inner.count '\n') rest :=
  spans_eq_cons_of_cut? (cut?_append openDelimiter_ne_nil hbefore) (h.head?_append_ne rest)
    (cut?_append closeDelimiter_ne_nil h.close_not_infix_dropLast)

/-! ## What follows a comment -/

/-- The line after a comment is what it documents. -/
theorem target?_eq_some {target more : Text} (hrest : s.rest = '\n' :: (target ++ '\n' :: more))
    (hne : target ≠ []) (htrim : trim target = target) (hn : '\n' ∉ target)
    (hstart : Span.startsComment target = false) : s.target? = some target := by
  have hlast : target.getLast? ≠ some '\r' :=
    getLast?_ne_of_trimEnd_eq (trim_eq_self_iff.1 htrim).2 (by decide)
  have hlines : lines s.rest = [] :: target :: lines more := by
    rw [hrest, lines, lines_line hn hlast]
  simp [Span.target?, findLine?_eq_find?, hlines, htrim, hne, hstart]

end DocComments
