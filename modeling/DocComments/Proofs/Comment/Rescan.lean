import DocComments.Proofs.Comment.Settle

/-!
# Scanning a settled comment

The text of a comment is a source of its own, which holds this comment and nothing else. Settling
keeps the closing delimiter the only one and the opening delimiter in front, and it leaves nothing
but blanks or stars on the last line, so that the comment is not settled again.

* `Span.rescanned` is the comment as it stands in its settled text, `spans_settle` says that the
  scan finds it there, and it alone.
* `Comment.scan_text` states this for the comments of a source.
-/

namespace DocComments

open Text

namespace Span

variable {s : Span}

/-- What stands between the delimiters of the settled comment. -/
def settledInner (s : Span) : Text :=
  if OnlyStars (lastLine s.body) then s.inner else trimEnd s.inner ++ ['\n', ' ']

theorem settledInner_of_onlyStars (h : OnlyStars (lastLine s.body)) : s.settledInner = s.inner :=
  if_pos h

theorem settledInner_of_not_onlyStars (h : ¬ OnlyStars (lastLine s.body)) :
    s.settledInner = trimEnd s.inner ++ ['\n', ' '] :=
  if_neg h

/-- The comment in its settled text. -/
def rescanned (s : Span) : Span :=
  ⟨1, s.settledInner, []⟩

/-- Settling does not touch the opening delimiter. -/
theorem raw_rescanned (s : Span) : s.rescanned.raw = s.settle := by
  by_cases h : OnlyStars (lastLine s.body)
  · rw [settle_of_onlyStars h, raw, body, rescanned, settledInner_of_onlyStars h, body]
  · have htrim : trimEnd s.body = openDelimiter ++ trimEnd s.inner :=
      trimEnd_append_left (by decide) s.inner
    rw [settle_of_not_onlyStars h, htrim, raw, body, rescanned, settledInner_of_not_onlyStars h]
    simp [closeDelimiter]

/-- **A settled comment is well-formed**: no delimiter comes to stand inside it, and no slash
behind the opening one. -/
theorem WellFormed.rescanned (hs : s.WellFormed) : s.rescanned.WellFormed := by
  by_cases h : OnlyStars (lastLine s.body)
  · rw [Span.rescanned, settledInner_of_onlyStars h]
    exact ⟨hs.close_not_infix, hs.head?_ne⟩
  · rw [Span.rescanned, settledInner_of_not_onlyStars h]
    constructor
    · have hprefix := trimEnd_prefix_self s.inner
      rw [infix_append_cons_iff closeDelimiter_ne_nil newline_not_mem_closeDelimiter, not_or]
      exact ⟨fun hin => hs.close_not_infix (hin.trans hprefix.isInfix), by decide⟩
    · by_cases hnil : trimEnd s.inner = []
      · simp [hnil]
      · have hhead := hs.head?_ne
        obtain ⟨w, hw⟩ := trimEnd_prefix_self s.inner
        rw [← hw, List.head?_append_of_ne_nil _ hnil] at hhead
        rwa [List.head?_append_of_ne_nil _ hnil]

/-- The line of its closing delimiter has no more to settle. -/
theorem onlyStars_rescanned (s : Span) : OnlyStars (lastLine s.rescanned.body) := by
  by_cases h : OnlyStars (lastLine s.body)
  · rw [body, rescanned, settledInner_of_onlyStars h, ← body]
    exact h
  · have hbody : s.rescanned.body = openDelimiter ++ trimEnd s.inner ++ ['\n'] ++ [' '] := by
      rw [body, rescanned, settledInner_of_not_onlyStars h]
      simp
    rw [hbody, lastLine_append (endsLine_append_newline _) (by decide)]
    decide

theorem settle_rescanned (s : Span) : s.rescanned.settle = s.settle := by
  rw [settle_of_onlyStars s.onlyStars_rescanned, ← raw_rescanned, raw]

theorem toComment_rescanned (s : Span) : s.rescanned.toComment = ⟨1, s.settle, none⟩ := by
  have htarget : s.rescanned.target? = none := by simp [target?, rescanned, findLine?]
  rw [toComment, settle_rescanned, htarget]
  rfl

/-- **The scan of a settled comment finds it**, and it alone. -/
theorem WellFormed.spans_settle (hs : s.WellFormed) : spans 1 s.settle = [s.rescanned] := by
  have hscan : spans 1 ([] ++ openDelimiter ++ (s.settledInner ++ closeDelimiter ++ [])) = _ :=
    spans_eq_cons (by decide) hs.rescanned
  have hend : spans (1 + [].count '\n' + s.settledInner.count '\n') [] = [] :=
    spans_eq_nil (by decide)
  rw [hend] at hscan
  rw [← raw_rescanned, ← List.append_nil s.rescanned.raw, raw_append]
  exact hscan

end Span

/-- **The text of a comment holds this comment and nothing else**: it goes from the opening delimiter
to the first closing one, is settled already, and is followed by nothing. -/
theorem Comment.scan_text (source : Text) (c : Comment) (hc : c ∈ scan source) :
    scan c.text = [⟨1, c.text, none⟩] ∧ Stands c.text 0 c.text.length ∧
      settled c.text = c.text := by
  obtain ⟨s, hs, rfl⟩ := List.mem_map.1 hc
  have hwf := wellFormed_of_mem_spans hs
  change scan s.settle = [⟨1, s.settle, none⟩] ∧ Stands s.settle 0 s.settle.length ∧
    settled s.settle = s.settle
  refine ⟨?_, ?_, ?_⟩
  · rw [scan, hwf.spans_settle, List.map_singleton, Span.toComment_rescanned]
  · have hsource : s.settle = [] ++ (s.rescanned.raw ++ s.rescanned.rest) := by
      rw [List.nil_append, Span.raw_rescanned]
      exact (List.append_nil _).symm
    have hstands := hwf.rescanned.stands hsource
    rw [List.length_nil, Nat.zero_add, Span.raw_rescanned] at hstands
    exact hstands
  · conv_lhs => rw [← Span.raw_rescanned s]
    rw [← Span.settle_eq_settled, Span.settle_rescanned]

/-- Two comments that are settled, one with nothing between its delimiters and one with a carriage
return before the closing delimiter. -/
theorem Comment.scan_text_stars :
    let source := "/***/ a\n/** b\r*/".toList
    let c : Comment := ⟨2, "/** b\n */".toList, none⟩
    scan source = [⟨1, "/**\n */".toList, some ['a']⟩, c] ∧
      scan c.text = [⟨1, c.text, none⟩] ∧ Stands c.text 0 c.text.length ∧
      settled c.text = c.text := by
  intro source c
  have hscan : scan source = [⟨1, "/**\n */".toList, some ['a']⟩, c] := by decide +kernel
  exact ⟨hscan, scan_text source c (by simp [hscan])⟩

end DocComments
