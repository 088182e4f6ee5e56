import DocComments.Proofs.Comment.Scan
import DocComments.Proofs.Entry.Grouping

/-!
# The closing delimiter and the entries

Settling a comment gives its closing delimiter a line of its own, unless nothing but stars and
blanks stands before it. Such a line closes the comment too, with one exception: where blanks stand
between the stars and the delimiter, the stars are read as the start of the line and the delimiter
as its content.

* `StarsThenBlanks` is the exception.
* `exists_infix_value_settle_iff`: a closing delimiter comes into a value in this case only.
-/

namespace DocComments

open Text Line

variable {s : Span} {u : Text}

/-! ## Stars and blanks -/

/-- The line has stars and blanks after them, and before them nothing but blanks. -/
def StarsThenBlanks (u : Text) : Prop :=
  ∃ w₁ n w₂, AllBlank w₁ ∧ AllBlank w₂ ∧ w₂ ≠ [] ∧ u = w₁ ++ (List.replicate (n + 1) '*' ++ w₂)

/-- Nothing but stars stands on the line, blanks aside. -/
def OnlyStars (u : Text) : Prop :=
  (trim u).all (· == '*') = true

instance : DecidablePred OnlyStars :=
  fun _ => inferInstanceAs (Decidable (_ = true))

theorem onlyStars_iff :
    OnlyStars u ↔
      ∃ w₁ n w₂, AllBlank w₁ ∧ AllBlank w₂ ∧ u = w₁ ++ (List.replicate n '*' ++ w₂) := by
  constructor
  · intro h
    obtain ⟨w₁, w₂, hw₁, hw₂, hu⟩ := exists_eq_append_trim_append u
    have hstars : trim u = List.replicate (trim u).length '*' :=
      List.eq_replicate_of_mem fun c hc => by simpa using List.all_eq_true.1 h c hc
    exact ⟨w₁, (trim u).length, w₂, hw₁, hw₂, by rw [← hstars, ← List.append_assoc, ← hu]⟩
  · rintro ⟨w₁, n, w₂, hw₁, hw₂, rfl⟩
    rw [OnlyStars, trim_append_left hw₁, trim_append_right _ hw₂, List.all_eq_true]
    intro c hc
    simpa using List.eq_of_mem_replicate ((trim_infix_self _).subset hc)

theorem StarsThenBlanks.onlyStars (h : StarsThenBlanks u) : OnlyStars u := by
  obtain ⟨w₁, n, w₂, hw₁, hw₂, -, rfl⟩ := h
  exact onlyStars_iff.2 ⟨w₁, n + 1, w₂, hw₁, hw₂, rfl⟩

/-- Stars without a delimiter are the start of a line and no content. -/
theorem OnlyStars.isBlank (h : OnlyStars u) (hn : '\n' ∉ u) : IsBlank u := by
  obtain ⟨w₁, n, w₂, hw₁, hw₂, rfl⟩ := onlyStars_iff.1 h
  have hn₂ : '\n' ∉ w₂ := fun hmem => hn (by simp [hmem])
  rw [← ofText_eq_blank_iff, ← List.append_assoc, ofText_append hw₂ hn₂, ofText_eq_blank_iff]
  cases n with
  | zero =>
    have hleft : content? w₁ = content? [] := by
      rw [← List.nil_append w₁, content?_append hw₁ fun hmem => hn (by simp [hmem])]
    left
    rw [List.replicate_zero, List.append_nil, hleft]
    decide
  | succ n =>
    have hdec : Decorated (w₁ ++ List.replicate (n + 1) '*') [] :=
      ⟨w₁, [], n, [], hw₁, .inl rfl, allBlank_nil, by simp, rfl, by simp⟩
    right
    exact content?_of_decorated hdec (by decide) (by decide)

/-! ## The line of the closing delimiter -/

/-- Behind stars and blanks the closing delimiter is read as a content. -/
theorem StarsThenBlanks.ofText (h : StarsThenBlanks u) :
    Line.ofText (u ++ closeDelimiter) = .prose closeDelimiter := by
  obtain ⟨w₁, n, w₂, hw₁, hw₂, hne, rfl⟩ := h
  have hdec : Decorated (w₁ ++ (List.replicate (n + 1) '*' ++ w₂) ++ closeDelimiter)
      closeDelimiter :=
    ⟨w₁, [], n, w₂, hw₁, .inl rfl, hw₂, fun h => absurd h hne, by decide, by simp⟩
  rw [ofText_decorated hdec (by decide) (by decide) (by decide)]
  decide

/-- Behind blanks, or behind stars without blanks after them, it closes the comment. -/
theorem OnlyStars.ofText (h : OnlyStars u) (hu : ¬ StarsThenBlanks u) :
    Line.ofText (u ++ closeDelimiter) = .blank := by
  obtain ⟨w₁, n, w₂, hw₁, hw₂, rfl⟩ := onlyStars_iff.1 h
  have hdec : Decorated (w₁ ++ (List.replicate n '*' ++ w₂) ++ closeDelimiter) ['/'] := by
    cases n with
    | zero =>
      have hw : AllBlank (w₁ ++ w₂) := List.forall_mem_append.2 ⟨hw₁, hw₂⟩
      exact ⟨w₁ ++ w₂, [], 0, [], hw, .inl rfl, allBlank_nil, by simp, by decide,
        by simp [closeDelimiter]⟩
    | succ n =>
      obtain rfl : w₂ = [] := by
        by_contra hne
        exact hu ⟨w₁, n, w₂, hw₁, hw₂, hne, rfl⟩
      refine ⟨w₁, [], n + 1, [], hw₁, .inl rfl, allBlank_nil, by simp, by decide, ?_⟩
      simp [closeDelimiter, List.replicate_succ' (n := n + 1)]
  rw [Line.ofText, content?_eq_none_of_decorated hdec (by decide)]

/-! ## Settled comments -/

namespace Span

/-- A settled comment has its closing delimiter on a line with nothing but stars before it, and the
lines above it come from the comment. -/
theorem exists_settle_eq (s : Span) :
    ∃ t v, EndsLine t ∧ '\n' ∉ v ∧ OnlyStars v ∧
      (closeDelimiter <:+: t → closeDelimiter <:+: s.body) ∧
      s.settle = t ++ (v ++ closeDelimiter) := by
  by_cases h : OnlyStars (lastLine s.body)
  · refine ⟨beforeLastLine s.body, lastLine s.body, endsLine_beforeLastLine _,
      newline_not_mem_lastLine _, h, ?_, ?_⟩
    · exact fun hin => hin.trans (List.rdropWhile_prefix (· != '\n') s.body).isInfix
    · rw [← List.append_assoc, beforeLastLine_append_lastLine]
      exact if_pos h
  · refine ⟨trimEnd s.body ++ ['\n'], [' '], endsLine_append_newline _, by decide, by decide, ?_,
      ?_⟩
    · rw [infix_append_singleton_iff closeDelimiter_ne_nil newline_not_mem_closeDelimiter]
      exact fun hin => hin.trans (trimEnd_prefix_self _).isInfix
    · refine (if_neg h).trans ?_
      simp

end Span

/-- **A closing delimiter comes into a value only from a line where it stands behind stars and
blanks.** -/
theorem exists_infix_value_settle_iff (hs : s.WellFormed) :
    (∃ e ∈ s.toComment.entries, ∃ value ∈ e.value, closeDelimiter <:+: value) ↔
      ∃ u, StarsThenBlanks u ∧ lastLine s.settle = u ++ closeDelimiter := by
  obtain ⟨t, v, ht, hnv, hstars, hclose, heq⟩ := s.exists_settle_eq
  have hn : '\n' ∉ v ++ closeDelimiter := by
    rw [List.mem_append, not_or]
    exact ⟨hnv, newline_not_mem_closeDelimiter⟩
  have hne : v ++ closeDelimiter ≠ [] := by simp [closeDelimiter]
  have hlines : lines s.settle = lines t ++ [v ++ closeDelimiter] := by
    rw [heq, lines_append ht, lines_of_not_mem hn hne]
  have habove : ∀ l ∈ lines t, ∀ piece ∈ (Line.ofText l).pieces, ¬ closeDelimiter <:+: piece :=
    fun l hl piece hp hin => hs.close_not_infix_body <| hclose <|
      (hin.trans (infix_of_mem_pieces_ofText hp)).trans (infix_of_mem_lines hl)
  rw [Span.toComment, Comment.entries, Entry.exists_infix_value_iff closeDelimiter_ne_nil
    newline_not_mem_closeDelimiter, hlines, heq, lastLine_append ht hn]
  constructor
  · rintro ⟨l, hl, piece, hp, hin⟩
    rcases List.mem_append.1 hl with hl | hl
    · exact absurd hin (habove l hl piece hp)
    · rw [List.mem_singleton.1 hl] at hp
      refine ⟨v, ?_, rfl⟩
      by_contra hv
      rw [hstars.ofText hv] at hp
      cases hp
  · rintro ⟨u, hu, heq⟩
    rw [List.append_cancel_right_eq] at heq
    subst heq
    refine ⟨v ++ closeDelimiter, by simp, closeDelimiter, ?_, List.infix_refl _⟩
    rw [hu.ofText]
    exact List.mem_singleton_self _

/-- **When a comment of a source keeps its closing delimiter in a value**: exactly when on its last
line stars and blanks stand before the delimiter, and nothing else but blanks. -/
theorem closeDelimiter_infix_value_iff (source : Text) (c : Comment)
    (hc : c ∈ Comment.scan source) :
    (∃ e ∈ c.entries, ∃ value ∈ e.value, closeDelimiter <:+: value) ↔
      ∃ u, StarsThenBlanks u ∧ lastLine c.text = u ++ closeDelimiter := by
  obtain ⟨s, hs, rfl⟩ := List.mem_map.1 hc
  exact exists_infix_value_settle_iff (wellFormed_of_mem_spans hs)

/-- A comment with prose, and a star and a blank before its closing delimiter. -/
theorem closeDelimiter_infix_value_iff_starred :
    (⟨1, "/**\n * a\n * */".toList, none⟩ : Comment) ∈ Comment.scan "/**\n * a\n * */".toList ∧
      ((∃ e ∈ Comment.entries ⟨1, "/**\n * a\n * */".toList, none⟩, ∃ value ∈ e.value,
        closeDelimiter <:+: value) ↔
      ∃ u, StarsThenBlanks u ∧ lastLine "/**\n * a\n * */".toList = u ++ closeDelimiter) := by
  have hc : (⟨1, "/**\n * a\n * */".toList, none⟩ : Comment) ∈
      Comment.scan "/**\n * a\n * */".toList := by decide +kernel
  exact ⟨hc, closeDelimiter_infix_value_iff _ _ hc⟩

/-- A comment whose last line is a star, a blank and the closing delimiter has the delimiter for its
only value. -/
theorem not_forall_closeDelimiter_not_infix_value :
    ¬ ∀ source : Text, ∀ c ∈ Comment.scan source, ∀ e ∈ c.entries, ∀ value ∈ e.value,
      ¬ closeDelimiter <:+: value := by
  intro h
  have hc : (⟨1, "/**\n * */".toList, none⟩ : Comment) ∈ Comment.scan "/**\n * */".toList := by
    decide +kernel
  have he : (⟨none, some closeDelimiter⟩ : Entry) ∈
      Comment.entries ⟨1, "/**\n * */".toList, none⟩ := by
    decide +kernel
  exact h _ _ hc _ he _ rfl (List.infix_refl _)

end DocComments
