import DocComments.Proofs.Comment.Positions
import DocComments.Proofs.Comment.Target

/-!
# Comments of sources put together

Where a source ends, with a line feed after it, another source can follow: the comments are those
of the one and then those of the other, on later lines. Only a comment that nothing but blanks
follows sees the seam, for it documents what comes first behind it. And the scan of the first source
must go through to its end: where it has stopped at an opening delimiter that nothing closes, the
second source may close it.

* `stopsOpen` says whether a scan stops there.
* `spans_append_newline` follows the scan over the seam, and `Comment.scan_append_newline` states
  what becomes of the comments.
-/

namespace DocComments

open Text

variable {a b : Text} {line : ℕ} {s : Span}

/-- Does the scan of the source stop at an opening delimiter that nothing closes? -/
def stopsOpen (source : Text) : Bool :=
  match hopen : cut? openDelimiter source with
  | none => false
  | some (_, '/' :: after) =>
    have := length_lt_of_cut? (by decide) hopen
    stopsOpen after
  | some (_, after) =>
    match hclose : cut? closeDelimiter after with
    | none => true
    | some (_, rest) =>
      have := length_lt_of_cut? (by decide) hopen
      have := length_lt_of_cut? (by decide) hclose
      stopsOpen rest
termination_by source.length
decreasing_by
  · simp_all only [List.length_cons]; omega
  · omega

theorem head?_ne_of_forall_ne {c : Char} {t : Text} (h : ∀ t', t = c :: t' → False) :
    t.head? ≠ some c := by
  intro hhead
  obtain ⟨t', ht⟩ := List.head?_eq_some_iff.1 hhead
  exact h t' ht

/-! ## The seam -/

/-- What holds no opening delimiter is passed over, up to the end of its last line. -/
theorem spans_append_of_not_open (ha : ¬ openDelimiter <:+: a) (line : ℕ) (b : Text) :
    spans line (a ++ '\n' :: b) = spans (line + a.count '\n' + 1) b := by
  have hcut := cut?_append_cons openDelimiter_ne_nil newline_not_mem_openDelimiter ha b
  have hcount : ∀ before : Text, line + (a ++ '\n' :: before).count '\n' =
      line + a.count '\n' + 1 + before.count '\n' := by
    intro before
    rw [List.count_append, List.count_cons_self]
    omega
  cases hb : cut? openDelimiter b with
  | none =>
    rw [hb, Option.map_none, cut?_eq_none_iff openDelimiter_ne_nil] at hcut
    rw [cut?_eq_none_iff openDelimiter_ne_nil] at hb
    rw [spans_eq_nil hcut, spans_eq_nil hb]
  | some r =>
    obtain ⟨before, after⟩ := r
    rw [hb, Option.map_some] at hcut
    by_cases hslash : after.head? = some '/'
    · obtain ⟨after, rfl⟩ := List.head?_eq_some_iff.1 hslash
      rw [spans_of_cut?_slash hcut, spans_of_cut?_slash hb, hcount]
    cases hclose : cut? closeDelimiter after with
    | none => rw [spans_eq_nil_of_cut? hcut hslash hclose, spans_eq_nil_of_cut? hb hslash hclose]
    | some r =>
      rw [spans_eq_cons_of_cut? hcut hslash hclose, spans_eq_cons_of_cut? hb hslash hclose, hcount]

/-- The comment where more text follows. -/
def Span.before (u : Text) (s : Span) : Span :=
  { s with rest := s.rest ++ u }

/-- **The scan of two sources with a line feed between them** goes through the first and then
through the second. -/
theorem spans_append_newline (ha : stopsOpen a = false) (line : ℕ) (b : Text) :
    spans line (a ++ '\n' :: b) =
      (spans line a).map (Span.before ('\n' :: b)) ++ spans (line + a.count '\n' + 1) b := by
  fun_induction stopsOpen a generalizing line with
  | case1 a hopen =>
    have hnone := (cut?_eq_none_iff openDelimiter_ne_nil).1 hopen
    rw [spans_append_of_not_open hnone, spans_eq_nil hnone, List.map_nil, List.nil_append]
  | case2 a before after hopen _ ih =>
    have hcut : cut? openDelimiter (a ++ '\n' :: b) = some (before, '/' :: (after ++ '\n' :: b)) :=
      cut?_append_right openDelimiter_ne_nil hopen _
    have hcount : a.count '\n' = before.count '\n' + after.count '\n' := by
      simp [eq_append_of_cut? hopen, openDelimiter]
    rw [spans_of_cut?_slash hcut, spans_of_cut?_slash hopen, ih ha, hcount, Nat.add_assoc line]
  | case3 => cases ha
  | case4 a before after hslash hopen inner rest hclose _ _ ih =>
    have hcut := cut?_append_right openDelimiter_ne_nil hopen ('\n' :: b)
    have hcut' := cut?_append_right closeDelimiter_ne_nil hclose ('\n' :: b)
    have hhead := head?_ne_of_forall_ne hslash
    have hhead' : (after ++ '\n' :: b).head? ≠ some '/' := by
      cases after with
      | nil => simp
      | cons c after => exact hhead
    have hcount : line + a.count '\n' + 1 =
        line + before.count '\n' + inner.count '\n' + rest.count '\n' + 1 := by
      simp [eq_append_of_cut? hopen, eq_append_of_cut? hclose, openDelimiter, closeDelimiter,
        Nat.add_assoc]
    rw [spans_eq_cons_of_cut? hcut hhead' hcut', spans_eq_cons_of_cut? hopen hhead hclose, ih ha,
      hcount]
    rfl

/-! ## The comments -/

/-- The line that a source starts on shows in nothing but the lines of its comments. -/
theorem spans_add (line n : ℕ) (source : Text) :
    spans (line + n) source = (spans line source).map fun s => { s with line := s.line + n } := by
  fun_induction spans line source with
  | case1 line source hopen =>
    exact spans_eq_nil ((cut?_eq_none_iff openDelimiter_ne_nil).1 hopen)
  | case2 line source before after hopen _ ih =>
    rw [spans_of_cut?_slash hopen, ← ih, Nat.add_right_comm]
  | case3 line source before after hslash hopen hclose =>
    exact spans_eq_nil_of_cut? hopen (head?_ne_of_forall_ne hslash) hclose
  | case4 line source before after hslash hopen inner rest hclose _ _ start ih =>
    rw [spans_eq_cons_of_cut? hopen (head?_ne_of_forall_ne hslash) hclose, List.map_cons, ← ih,
      Nat.add_right_comm line, Nat.add_right_comm _ n]

theorem Span.toComment_before (b : Text) (s : Span) :
    (s.before ('\n' :: b)).toComment =
      if AllBlank s.rest then { s.toComment with target := targetAfter? b } else s.toComment := by
  have htarget : (s.before ('\n' :: b)).target? =
      if AllBlank s.rest then targetAfter? b else s.target? := by
    rw [target?_eq_targetAfter?, target?_eq_targetAfter?, targetAfter?, before,
      headline?_append_newline]
    split <;> rfl
  rw [toComment, htarget]
  split <;> rfl

/-- **The comments of two sources with a line feed between them** are those of the first and those
of the second, which stand on later lines. A comment of the first keeps its target unless nothing
but blanks follows it there; then it has the one that it would have before the second. -/
theorem Comment.scan_append_newline (a b : Text) (ha : stopsOpen a = false) :
    scan (a ++ '\n' :: b) =
      (spans 1 a).map (fun s =>
        if AllBlank s.rest then { s.toComment with target := targetAfter? b } else s.toComment) ++
      (scan b).map fun c => { c with line := c.line + (a.count '\n' + 1) } := by
  rw [scan, spans_append_newline ha, List.map_append, List.map_map, Nat.add_assoc, spans_add,
    scan, List.map_map, List.map_map]
  congr 1
  exact List.map_congr_left fun s _ => s.toComment_before b

/-- Two comments with an empty one between them, the second before nothing but a blank, and a line
that it documents in the second source. -/
theorem Comment.scan_append_newline_three :
    let a := "/** a */ f\n/**/ /** b\n*/\u3000".toList
    let b := "\t\n g()\r\n/** c */".toList
    stopsOpen a = false ∧
      scan (a ++ '\n' :: b) =
        [⟨1, "/** a\n */".toList, some ['f']⟩, ⟨2, "/** b\n*/".toList, some "g()".toList⟩,
          ⟨6, "/** c\n */".toList, none⟩] := by
  intro a b
  have ha : stopsOpen a = false := by decide +kernel
  refine ⟨ha, (scan_append_newline a b ha).trans ?_⟩
  decide +kernel

/-- A comment that is open at the end of the first source is closed by the second. -/
example : stopsOpen "/** a".toList = true ∧
    Comment.scan "/** a\n*/".toList = [⟨1, "/** a\n*/".toList, none⟩] := by decide +kernel

end DocComments
