import DocComments.Proofs.Comment.Closing
import DocComments.Proofs.Comment.Positions
import DocComments.Proofs.Entry.Concat

/-!
# The entries of a settled comment

Settling a comment moves its closing delimiter and cuts blanks off before it. The entries are those
of the comment without the delimiter, with the one exception that the delimiter is read as a content
behind stars and blanks: then it comes into a value, and a comment without it has no such value.

* `parse_settle` is the case without the exception, `parse_settle_ne` the exception.
* `Comment.forall₂_entries_eq_parse_iff` states both for the comments of a source, each cut out of
  the source by its positions.
-/

namespace DocComments

open Text Line

variable {s : Span} {source : Text}

namespace Span

theorem settle_of_onlyStars (h : OnlyStars (lastLine s.body)) :
    s.settle = s.body ++ closeDelimiter :=
  if_pos h

theorem settle_of_not_onlyStars (h : ¬ OnlyStars (lastLine s.body)) :
    s.settle = trimEnd s.body ++ "\n */".toList :=
  (if_neg h).trans (List.append_assoc ..)

/-- **Settling a comment keeps its entries**: the closing delimiter adds nothing to them, wherever
it is put. -/
theorem parse_settle (h : ¬ StarsThenBlanks (lastLine s.body)) :
    Entry.parse s.settle = Entry.parse s.body := by
  have hends := endsLine_beforeLastLine s.body
  have hn := newline_not_mem_lastLine s.body
  by_cases hstars : OnlyStars (lastLine s.body)
  · have hclose : '\n' ∉ lastLine s.body ++ closeDelimiter := by
      rw [List.mem_append, not_or]
      exact ⟨hn, newline_not_mem_closeDelimiter⟩
    calc Entry.parse s.settle
        = Entry.parse (beforeLastLine s.body ++ (lastLine s.body ++ closeDelimiter)) := by
          rw [settle_of_onlyStars hstars, ← List.append_assoc, beforeLastLine_append_lastLine]
      _ = Entry.parse (beforeLastLine s.body) :=
          Entry.parse_append_of_isBlank hends hclose (ofText_eq_blank_iff.1 (hstars.ofText h))
      _ = Entry.parse (beforeLastLine s.body ++ lastLine s.body) :=
          (Entry.parse_append_of_isBlank hends hn (hstars.isBlank hn)).symm
      _ = Entry.parse s.body := by rw [beforeLastLine_append_lastLine]
  · calc Entry.parse s.settle
        = Entry.parse (trimEnd s.body ++ "\n */".toList) := by rw [settle_of_not_onlyStars hstars]
      _ = Entry.parse (trimEnd s.body) := Entry.parse_append_close _
      _ = Entry.parse s.body := Entry.parse_trimEnd _

/-- Without its closing delimiter a comment has it in no value. -/
theorem WellFormed.not_infix_value_body (hs : s.WellFormed) :
    ¬ ∃ e ∈ Entry.parse s.body, ∃ value ∈ e.value, closeDelimiter <:+: value := by
  rw [Entry.exists_infix_value_iff closeDelimiter_ne_nil newline_not_mem_closeDelimiter]
  rintro ⟨l, hl, piece, hpiece, hin⟩
  exact hs.close_not_infix_body
    ((hin.trans (infix_of_mem_pieces_ofText hpiece)).trans (infix_of_mem_lines hl))

/-- **Behind stars and blanks the delimiter changes the entries.** -/
theorem WellFormed.parse_settle_ne (hs : s.WellFormed) (h : StarsThenBlanks (lastLine s.body)) :
    Entry.parse s.settle ≠ Entry.parse s.body := by
  intro heq
  have hlast : lastLine s.settle = lastLine s.body ++ closeDelimiter := by
    rw [settle_of_onlyStars h.onlyStars, lastLine_append_of_not_mem newline_not_mem_closeDelimiter]
  have hvalue := (exists_infix_value_settle_iff hs).2 ⟨_, h, hlast⟩
  rw [toComment, Comment.entries, heq] at hvalue
  exact hs.not_infix_value_body hvalue

end Span

/-- The comment without its closing delimiter, cut out of the source. -/
theorem Span.extract_eq_body (hs : s ∈ spans 1 source) :
    source.extract (s.start source) (s.stop source - closeDelimiter.length) = s.body := by
  obtain ⟨before, hsource, -⟩ := exists_eq_append_of_mem_spans hs
  have hlen : s.raw.length = s.body.length + closeDelimiter.length := List.length_append
  rw [s.start_eq hsource, s.stop_eq hsource, hlen, ← Nat.add_assoc, Nat.add_sub_cancel, hsource,
    Span.raw, List.append_assoc]
  simp

/-- **The delimiter that closes a comment does not change its entries**, unless it stands behind
stars and blanks on a line without anything else but blanks: each comment of a source has the
entries of the text from its opening delimiter to its closing one in all other cases, and in none
of these. -/
theorem Comment.forall₂_entries_eq_parse_iff (source : Text) :
    List.Forall₂ (fun r c =>
        let body := source.extract r.1 (r.2 - closeDelimiter.length)
        Stands source r.1 r.2 ∧
          (c.entries = Entry.parse body ↔ ¬ StarsThenBlanks (lastLine body)))
      (ranges source) (scan source) := by
  rw [ranges, scan, List.forall₂_map_left_iff, List.forall₂_map_right_iff, List.forall₂_same]
  intro s hs
  obtain ⟨before, hsource, -⟩ := exists_eq_append_of_mem_spans hs
  have hwf := wellFormed_of_mem_spans hs
  dsimp only
  rw [Span.extract_eq_body hs]
  refine ⟨?_, fun heq hstars => hwf.parse_settle_ne hstars heq, Span.parse_settle⟩
  rw [s.start_eq hsource, s.stop_eq hsource]
  exact hwf.stands hsource

/-- A carriage return and an ideographic space before the delimiter, and the opening delimiter on
its line. -/
example : (Comment.scan "/** a\n * b\r\u3000*/ /** c */".toList).map Comment.entries =
    ["/** a\n * b", "/** c"].map fun body => Entry.parse body.toList := by decide +kernel

end DocComments
