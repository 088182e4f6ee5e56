import DocComments.Comment.Cursor
import DocComments.Proofs.Comment.Positions

/-!
# Every offset is a place in the source

A search gives the offset of what it finds in the text that it searches, and this text begins where
the cursor or an opening delimiter stands. So an offset in the source is the length of a text that
the source begins with: what has been read before, and the parts that the search cuts off. Hence no
slice fails, and the comments that a run finds are those of the scan.

* `Cursor.round?_of_cut?` and the three lemmas on `Cursor.enter?` are the outcomes of a round.
* `Cursor.Follows` is what rounds keep: the comments found so far, with those ahead, are the
  comments of the source. `Cursor.Follows.step` says what one round comes to, and
  `Cursor.Follows.run?_eq` what a run does.
* `Cursor.rounds_in_bounds` states it for every cursor that a run goes through.
-/

namespace DocComments

open Text

variable {source read ahead pat t before after : Text} {line : ℕ} {found : List Comment}

/-! ## Searching and settling -/

theorem offsetOf?_eq_none (h : cut? pat t = none) : offsetOf? pat t = none := by
  rw [offsetOf?, h]
  rfl

theorem offsetOf?_eq_some (h : cut? pat t = some (before, after)) :
    offsetOf? pat t = some (byteLength before) := by
  rw [offsetOf?, h]
  rfl

theorem byteLength_raw (s : Span) : byteLength s.raw = 3 + byteLength s.inner + 2 := by
  rw [Span.raw, Span.body, byteLength_append, byteLength_append]
  rfl

/-- The closing delimiter can be cut off, and what is left is the rest of the comment. -/
theorem settle?_raw (s : Span) : settle? s.raw = some s.settle := by
  have hbody : slice? s.raw 0 (byteLength s.raw - 2) = some s.body := by
    refine slice?_eq_some_iff.2 ⟨[], closeDelimiter, rfl, rfl, ?_⟩
    rw [byteLength_raw, Nat.add_sub_cancel, Nat.zero_add, Span.body, byteLength_append]
    rfl
  have hguard : guard (2 ≤ byteLength s.raw) = some () := by
    rw [byteLength_raw]
    exact if_pos (Nat.le_add_left ..)
  rw [settle?, hguard, hbody]
  rfl

namespace Cursor

/-! ## One round -/

theorem round?_eq_stop (hopen : cut? openDelimiter ahead = none) :
    round? (read ++ ahead) ⟨byteLength read, line, found⟩ = some .stop := by
  rw [round?, sliceFrom?_append, Option.bind_eq_bind, Option.bind_some, offsetOf?_eq_none hopen]
  rfl

/-- The search leads to the first opening delimiter. -/
theorem round?_of_cut? (hopen : cut? openDelimiter ahead = some (before, after)) :
    round? (read ++ ahead) ⟨byteLength read, line, found⟩ =
      enter? (read ++ before ++ openDelimiter ++ after)
        ⟨byteLength (read ++ before), line + before.count '\n', found⟩ := by
  have hbetween : slice? (read ++ before ++ (openDelimiter ++ after)) (byteLength read)
      (byteLength read + byteLength before) = some before := slice?_append ..
  have hsource : read ++ ahead = read ++ before ++ (openDelimiter ++ after) := by
    rw [eq_append_of_cut? hopen]
    simp only [List.append_assoc]
  rw [round?, sliceFrom?_append, Option.bind_eq_bind, Option.bind_some, offsetOf?_eq_some hopen]
  dsimp only
  rw [hsource, hbetween, byteLength_append, List.append_assoc (read ++ before)]
  rfl

/-- What stands behind an opening delimiter. -/
theorem sliceFrom?_openDelimiter (read after : Text) :
    sliceFrom? (read ++ openDelimiter ++ after) (byteLength read + 3) = some after :=
  sliceFrom?_eq_some_iff.2 ⟨read ++ openDelimiter, rfl, byteLength_append ..⟩

theorem enter?_slash :
    enter? (read ++ openDelimiter ++ '/' :: after) ⟨byteLength read, line, found⟩ =
      some (.next ⟨byteLength (read ++ emptyComment), line, found⟩) := by
  rw [enter?, sliceFrom?_openDelimiter, byteLength_append]
  rfl

theorem not_isPrefixOf_slash (hslash : after.head? ≠ some '/') : ¬ ['/'].isPrefixOf after := by
  intro h
  obtain ⟨t, rfl⟩ := List.isPrefixOf_iff_prefix.1 h
  exact hslash rfl

theorem enter?_eq_stop (hslash : after.head? ≠ some '/')
    (hclose : cut? closeDelimiter after = none) :
    enter? (read ++ openDelimiter ++ after) ⟨byteLength read, line, found⟩ = some .stop := by
  rw [enter?, sliceFrom?_openDelimiter, Option.bind_eq_bind, Option.bind_some,
    if_neg (not_isPrefixOf_slash hslash), offsetOf?_eq_none hclose]
  rfl

/-- A comment is added, and the cursor moves behind it. -/
theorem enter?_comment (s : Span) (hslash : after.head? ≠ some '/')
    (hclose : cut? closeDelimiter after = some (s.inner, s.rest)) :
    enter? (read ++ openDelimiter ++ after) ⟨byteLength read, s.line, found⟩ =
      some (.next ⟨byteLength (read ++ s.raw), s.line + s.inner.count '\n',
        found ++ [s.toComment]⟩) := by
  have hsource : read ++ openDelimiter ++ after = read ++ s.raw ++ s.rest := by
    rw [eq_append_of_cut? hclose]
    simp only [Span.raw, Span.body, List.append_assoc]
  have hstop : byteLength read + 3 + byteLength s.inner + 2 = byteLength (read ++ s.raw) := by
    rw [byteLength_append, byteLength_raw]
    omega
  have hraw : slice? (read ++ s.raw ++ s.rest) (byteLength read) (byteLength (read ++ s.raw)) =
      some s.raw := by
    rw [byteLength_append]
    exact slice?_append ..
  rw [enter?, sliceFrom?_openDelimiter, Option.bind_eq_bind, Option.bind_some,
    if_neg (not_isPrefixOf_slash hslash), offsetOf?_eq_some hclose]
  dsimp only
  rw [hstop, hsource, hraw, Option.bind_some, settle?_raw, Option.bind_some, sliceFrom?_append,
    Option.bind_some, Span.count_raw, ← Span.target?_eq_targetAfter?]
  rfl

/-! ## All rounds -/

/-- The cursor stands between what has been read and what lies ahead, and the comments found so far,
with those ahead, are the comments of the source. -/
structure Follows (source read ahead : Text) (c : Cursor) : Prop where
  source_eq : source = read ++ ahead
  offset_eq : c.offset = byteLength read
  found_append : c.found ++ (spans c.line ahead).map Span.toComment = Comment.scan source

variable {c c' : Cursor}

theorem Follows.isBoundary (h : Follows source read ahead c) : IsBoundary source c.offset :=
  ⟨read, ahead, h.source_eq, h.offset_eq.symm⟩

theorem follows_start (source : Text) : Follows source [] source start :=
  ⟨rfl, rfl, rfl⟩

/-- **What a round comes to**: it stops with all comments found, or it goes on to a cursor of the
same kind. -/
theorem Follows.step (h : Follows source read ahead c) :
    (round? source c = some .stop ∧ c.found = Comment.scan source) ∨
      ∃ c' read' ahead', round? source c = some (.next c') ∧ Follows source read' ahead' c' := by
  obtain ⟨offset, line, found⟩ := c
  obtain ⟨hsource, hoffset, hfound⟩ := h
  dsimp only at hoffset hfound
  subst hsource hoffset
  cases hopen : cut? openDelimiter ahead with
  | none =>
    rw [spans_eq_nil ((cut?_eq_none_iff openDelimiter_ne_nil).1 hopen), List.map_nil,
      List.append_nil] at hfound
    exact .inl ⟨round?_eq_stop hopen, hfound⟩
  | some r =>
    obtain ⟨before, after⟩ := r
    by_cases hslash : after.head? = some '/'
    · obtain ⟨after, rfl⟩ := List.head?_eq_some_iff.1 hslash
      rw [spans_of_cut?_slash hopen] at hfound
      refine .inr ⟨_, read ++ before ++ emptyComment, after,
        (round?_of_cut? hopen).trans enter?_slash, ?_, rfl, hfound⟩
      rw [eq_append_of_cut? hopen]
      simp [emptyComment]
    · cases hclose : cut? closeDelimiter after with
      | none =>
        rw [spans_eq_nil_of_cut? hopen hslash hclose, List.map_nil, List.append_nil] at hfound
        exact .inl ⟨(round?_of_cut? hopen).trans (enter?_eq_stop hslash hclose), hfound⟩
      | some r =>
        obtain ⟨inner, rest⟩ := r
        rw [spans_eq_cons_of_cut? hopen hslash hclose, List.map_cons, List.append_cons] at hfound
        have hround : round? (read ++ ahead) ⟨byteLength read, line, found⟩ = _ :=
          (round?_of_cut? hopen).trans
            (enter?_comment ⟨line + before.count '\n', inner, rest⟩ hslash hclose)
        refine .inr ⟨_, _, rest, hround, ?_, rfl, hfound⟩
        rw [eq_append_of_cut? hopen, eq_append_of_cut? hclose]
        simp [Span.raw, Span.body]

theorem Follows.isSome_round? (h : Follows source read ahead c) : (round? source c).isSome := by
  obtain ⟨hstop, -⟩ | ⟨c', _, _, hnext, -⟩ := h.step
  · exact Option.isSome_of_eq_some hstop
  · exact Option.isSome_of_eq_some hnext

theorem Follows.found_eq (h : Follows source read ahead c) (hround : round? source c = some .stop) :
    c.found = Comment.scan source := by
  obtain ⟨-, hfound⟩ | ⟨c', _, _, hnext, -⟩ := h.step
  · exact hfound
  · cases hround.symm.trans hnext

theorem Follows.next (h : Follows source read ahead c)
    (hround : round? source c = some (.next c')) :
    ∃ read' ahead', Follows source read' ahead' c' := by
  obtain ⟨hstop, -⟩ | ⟨c', read', ahead', hnext, hc'⟩ := h.step
  · cases hround.symm.trans hstop
  · cases hround.symm.trans hnext
    exact ⟨read', ahead', hc'⟩

theorem Reached.exists_follows (h : Reached source c) :
    ∃ read ahead, Follows source read ahead c := by
  induction h with
  | start => exact ⟨[], source, follows_start source⟩
  | next _ hround ih =>
    obtain ⟨read, ahead, hc⟩ := ih
    exact hc.next hround

/-- A run finds what the scan finds. -/
theorem Follows.run?_eq (h : Follows source read ahead c) :
    run? source c = some (Comment.scan source) := by
  fun_induction run? source c generalizing read ahead with
  | case1 c hround =>
    have hsome := h.isSome_round?
    rw [hround] at hsome
    cases hsome
  | case2 c hround => rw [h.found_eq hround]
  | case3 c c' hround _ ih =>
    obtain ⟨read', ahead', hc'⟩ := h.next hround
    exact ih hc'

/-- **Reading by offsets never fails.** A run goes through boundaries of the source only, and none
of the slices that a round takes fails. A round that goes on moves to a later offset, and not past
the end of the source. So the run ends, and it finds the comments of the source. -/
theorem rounds_in_bounds (source : Text) :
    (∀ c, Reached source c → IsBoundary source c.offset ∧ c.offset ≤ byteLength source ∧
      ∃ r, round? source c = some r ∧
        ∀ c', r = .next c' → c.offset < c'.offset ∧ c'.offset ≤ byteLength source) ∧
      run? source start = some (Comment.scan source) := by
  refine ⟨fun c hc => ?_, (follows_start source).run?_eq⟩
  obtain ⟨read, ahead, h⟩ := hc.exists_follows
  obtain ⟨r, hround⟩ := Option.isSome_iff_exists.1 h.isSome_round?
  refine ⟨h.isBoundary, h.isBoundary.le_byteLength, r, hround, ?_⟩
  rintro c' rfl
  exact offset_lt_of_round? hround

/-- Characters of two, three and four bytes next to the delimiters, the last of which ends the
source. The second cursor stands behind the first comment, after seven characters and nine
bytes. -/
theorem rounds_in_bounds_wide :
    let source := "é/**ü*/€\n/**/ß/**𝄞*/".toList
    let c : Cursor := ⟨9, 1, [⟨1, "/**ü\n */".toList, some ['€']⟩]⟩
    (Reached source c ∧ IsBoundary source c.offset ∧ c.offset ≤ byteLength source ∧
        ∃ r, round? source c = some r ∧
          ∀ c', r = .next c' → c.offset < c'.offset ∧ c'.offset ≤ byteLength source) ∧
      run? source start =
        some [⟨1, "/**ü\n */".toList, some ['€']⟩, ⟨2, "/**𝄞\n */".toList, none⟩] := by
  intro source c
  have hc : Reached source c := .next .start (by decide +kernel)
  refine ⟨⟨hc, (rounds_in_bounds source).1 c hc⟩, (rounds_in_bounds source).2.trans ?_⟩
  decide +kernel

/-- An offset in the middle of a character, and one behind the end, are no places in a source. -/
example : round? ['é'] ⟨1, 1, []⟩ = none ∧ round? ['é'] ⟨3, 1, []⟩ = none := by decide

end Cursor

end DocComments
