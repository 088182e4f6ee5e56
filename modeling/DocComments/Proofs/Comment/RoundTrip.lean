import DocComments.Document.Basic
import DocComments.Proofs.Comment.Scan
import DocComments.Proofs.Entry.RoundTrip

/-!
# Reading a written source

A source that is written comment by comment, each before the line that it documents, is scanned into
these comments. Between the delimiters of a written comment there is no closing delimiter unless a
value has one, and the line after it has no opening delimiter, so the scan finds the next comment
where it was written, and no other.

* `Written es target` says which entries and which line can be written one after the other.
* `spans_canonicalSource` follows the scan through a source; the gap is what it has not read yet of
  the line before.
* `extract_canonicalSource` reads the comments, their targets and their line numbers.
-/

namespace DocComments

open Text Entry

variable {es : Entries} {e : Entry} {target gap : Text} {line : ℕ}

/-! ## Between the delimiters of a written comment -/

/-- What stands between the delimiters of a written comment. -/
def Entry.canonicalInner (es : Entries) : Text :=
  ['\n'] ++ es.flatMap (fun e => e.contents.flatMap decorate ++ emptyLine) ++ [' ']

theorem Entry.canonical_eq (es : Entries) :
    canonical es = openDelimiter ++ (canonicalInner es ++ closeDelimiter) := by
  simp [canonical, canonicalInner]

theorem not_closeDelimiter_infix {t : Text} (h : '*' ∉ t) : ¬ closeDelimiter <:+: t :=
  fun hin => h (hin.subset (List.mem_cons_self ..))

/-- What occurs in a line of the value occurs in the value. -/
theorem Entry.not_infix_of_mem_valueLines (h : ∀ value ∈ e.value, ¬ closeDelimiter <:+: value)
    {l : Text} (hl : l ∈ e.valueLines) : ¬ closeDelimiter <:+: l := by
  intro hin
  have he : e.toGroup.entry.value = e.value := congrArg Entry.value e.entry_toGroup
  have hne : e.valueLines ≠ [] := List.ne_nil_of_mem hl
  have hvalue : e.value = some (joinLines e.valueLines) := by
    rw [← he]
    simp [Group.entry, Entry.toGroup, hne]
  refine h _ hvalue ?_
  rw [infix_joinLines_iff closeDelimiter_ne_nil newline_not_mem_closeDelimiter]
  exact ⟨l, hl, hin⟩

theorem Entry.not_infix_of_mem_contents (he : e.WellFormed)
    (h : ∀ value ∈ e.value, ¬ closeDelimiter <:+: value) {content : Text}
    (hc : content ∈ e.contents) : ¬ closeDelimiter <:+: content := by
  have hlines := fun l => e.not_infix_of_mem_valueLines h (l := l)
  have htag : ∀ key ∈ e.key, ¬ closeDelimiter <:+: '@' :: key := by
    intro key hk
    refine not_closeDelimiter_infix fun hm => ?_
    have := (he.isKey key hk).2 '*' (by simpa using hm)
    rw [isWord_star] at this
    cases this
  cases hk : e.key with
  | none =>
    rw [Entry.contents, hk] at hc
    exact hlines content hc
  | some key =>
    cases hv : e.valueLines with
    | nil =>
      simp only [Entry.contents, hk, hv, List.mem_singleton] at hc
      exact hc ▸ htag key hk
    | cons l ls =>
      simp only [Entry.contents, hk, hv, List.mem_cons] at hc
      rcases hc with rfl | hc
      · rw [infix_append_cons_iff closeDelimiter_ne_nil (by decide), not_or]
        exact ⟨htag key hk, hlines l (hv ▸ List.mem_cons_self ..)⟩
      · exact hlines content (hv ▸ List.mem_cons_of_mem _ hc)

theorem Entry.not_infix_decorate {content : Text} (h : ¬ closeDelimiter <:+: content) :
    ¬ closeDelimiter <:+: decorate content := by
  have hmark : ¬ closeDelimiter <:+: [' ', '*'] := by decide
  rw [decorate_eq, infix_append_singleton_iff closeDelimiter_ne_nil newline_not_mem_closeDelimiter]
  change ¬ closeDelimiter <:+: [' ', '*'] ++ ' ' :: content
  rw [infix_append_cons_iff closeDelimiter_ne_nil (by decide), not_or]
  exact ⟨hmark, h⟩

/-- **A written comment ends where it was written to end.** -/
theorem wellFormed_canonicalInner (hes : ∀ e ∈ es, e.WellFormed)
    (h : ∀ e ∈ es, ∀ value ∈ e.value, ¬ closeDelimiter <:+: value) (line : ℕ) (rest : Text) :
    (Span.mk line (canonicalInner es) rest).WellFormed := by
  refine ⟨?_, by simp [canonicalInner]⟩
  have hempty : ¬ closeDelimiter <:+: emptyLine := by decide
  have hwritten : ∀ e ∈ es, ¬ closeDelimiter <:+: e.contents.flatMap decorate ++ emptyLine := by
    intro e he
    have hends : ∀ content ∈ e.contents, EndsLine (decorate content) :=
      fun content _ => endsLine_decorate content
    rw [infix_append_iff_of_endsLine (endsLine_flatMap hends) closeDelimiter_ne_nil
      newline_not_mem_closeDelimiter, infix_flatMap_iff hends closeDelimiter_ne_nil
      newline_not_mem_closeDelimiter, not_or]
    refine ⟨?_, hempty⟩
    rintro ⟨content, hc, hin⟩
    exact not_infix_decorate (not_infix_of_mem_contents (hes e he) (h e he) hc) hin
  rw [canonicalInner, infix_append_singleton_iff closeDelimiter_ne_nil (by decide),
    List.singleton_append, infix_cons_iff_of_not_mem closeDelimiter_ne_nil
    newline_not_mem_closeDelimiter, infix_flatMap_iff (fun e _ => endsLine_written e)
    closeDelimiter_ne_nil newline_not_mem_closeDelimiter]
  rintro ⟨e, he, hin⟩
  exact hwritten e he hin

/-! ## Written sources -/

/-- The entries can be written as a comment before the line, so that both are found again. -/
structure Comment.Written (es : Entries) (target : Text) : Prop where
  /-- The entries can be entries of a comment. -/
  wellFormed : ∀ e ∈ es, e.WellFormed
  /-- No value closes the comment. -/
  close_not_infix : ∀ e ∈ es, ∀ value ∈ e.value, ¬ closeDelimiter <:+: value
  /-- The line is not empty. -/
  target_ne_nil : target ≠ []
  /-- No blanks stand around the line. -/
  trim_target : trim target = target
  /-- The line is one line. -/
  newline_not_mem : '\n' ∉ target
  /-- The line opens no doc comment. -/
  open_not_infix : ¬ openDelimiter <:+: target
  /-- The line does not start with a comment. -/
  startsComment : ¬ ['/', '*'] <+: target ∧ ¬ ['/', '/'] <+: target

namespace Comment

theorem canonicalSource_cons (es : Entries) (target : Text) (parts : List (Entries × Text)) :
    canonicalSource ((es, target) :: parts) =
      openDelimiter ++ (canonicalInner es ++ closeDelimiter ++
        ('\n' :: (target ++ '\n' :: canonicalSource parts))) := by
  simp [canonicalSource, canonical_eq]

theorem Written.endsLine_gap (target : Text) : EndsLine ('\n' :: (target ++ ['\n'])) :=
  endsLine_append_newline ('\n' :: target)

theorem Written.open_not_infix_gap (h : Written es target) :
    ¬ openDelimiter <:+: '\n' :: (target ++ ['\n']) := by
  rw [infix_cons_iff_of_not_mem openDelimiter_ne_nil newline_not_mem_openDelimiter,
    infix_append_singleton_iff openDelimiter_ne_nil newline_not_mem_openDelimiter]
  exact h.open_not_infix

/-- The span of a written comment. -/
def writtenSpan (line : ℕ) (es : Entries) (target : Text) (more : List (Entries × Text)) : Span :=
  ⟨line, canonicalInner es, '\n' :: (target ++ '\n' :: canonicalSource more)⟩

/-- **The scan of a written source**: each comment is found, on the line that it was written on. -/
theorem spans_canonicalSource {parts : List (Entries × Text)}
    (h : ∀ part ∈ parts, Written part.1 part.2) (hgap : EndsLine gap)
    (hopen : ¬ openDelimiter <:+: gap) :
    spans line (gap ++ canonicalSource parts) = parts.mapIdx fun i part =>
      writtenSpan (line + (gap ++ canonicalSource (parts.take i)).count '\n') part.1 part.2
        (parts.drop (i + 1)) := by
  induction parts generalizing line gap with
  | nil => simp [canonicalSource, spans_eq_nil hopen]
  | cons part parts ih =>
    obtain ⟨es, target⟩ := part
    obtain ⟨hpart, hparts⟩ := List.forall_mem_cons.1 h
    have hbefore : ¬ openDelimiter <:+: gap ++ openDelimiter.dropLast := by
      rw [infix_append_iff_of_endsLine hgap openDelimiter_ne_nil newline_not_mem_openDelimiter,
        not_or]
      exact ⟨hopen, by decide⟩
    have hrest : '\n' :: (target ++ '\n' :: canonicalSource parts) =
        '\n' :: (target ++ ['\n']) ++ canonicalSource parts := by simp
    have hcount : ∀ i, line + gap.count '\n' + (canonicalInner es).count '\n' +
        ('\n' :: (target ++ ['\n']) ++ canonicalSource (parts.take i)).count '\n' =
          line + (gap ++ canonicalSource ((es, target) :: parts.take i)).count '\n' := by
      intro i
      simp [canonicalSource_cons, openDelimiter, closeDelimiter]
      omega
    rw [canonicalSource_cons, ← List.append_assoc, spans_eq_cons hbefore
      (wellFormed_canonicalInner hpart.wellFormed hpart.close_not_infix line _), List.mapIdx_cons]
    congr 1
    · simp [writtenSpan, canonicalSource]
    · rw [hrest, ih hparts (Written.endsLine_gap target) hpart.open_not_infix_gap]
      simp only [hcount, List.take_succ_cons, List.drop_succ_cons]

/-- A written comment is settled already. -/
theorem settle_writtenSpan (line : ℕ) (es : Entries) (target : Text)
    (more : List (Entries × Text)) : (writtenSpan line es target more).settle = canonical es := by
  have hends : EndsLine
      (openDelimiter ++ ['\n'] ++ es.flatMap fun e => e.contents.flatMap decorate ++ emptyLine) :=
    (endsLine_append_newline openDelimiter).append (endsLine_flatMap_written es)
  have hbody : (writtenSpan line es target more).body =
      openDelimiter ++ ['\n'] ++ (es.flatMap fun e => e.contents.flatMap decorate ++ emptyLine) ++
        [' '] := by
    simp [Span.body, writtenSpan, canonicalInner]
  rw [Span.settle, hbody, lastLine_append hends (by decide), if_pos (by decide)]
  rfl

theorem Written.target?_writtenSpan (h : Written es target) (line : ℕ)
    (more : List (Entries × Text)) : (writtenSpan line es target more).target? = some target := by
  refine target?_eq_some rfl h.target_ne_nil h.trim_target h.newline_not_mem ?_
  simpa [Span.startsComment, ← List.isPrefixOf_iff_prefix] using h.startsComment

/-- The comment that was written is the comment that is found. -/
theorem Written.toComment_writtenSpan (h : Written es target) (line : ℕ)
    (more : List (Entries × Text)) :
    (writtenSpan line es target more).toComment = ⟨line, canonical es, some target⟩ := by
  rw [Span.toComment, settle_writtenSpan, h.target?_writtenSpan]
  rfl

theorem scan_canonicalSource {parts : List (Entries × Text)}
    (h : ∀ part ∈ parts, Written part.1 part.2) :
    scan (canonicalSource parts) = parts.mapIdx fun i part =>
      ⟨1 + (canonicalSource (parts.take i)).count '\n', canonical part.1, some part.2⟩ := by
  have hspans : spans 1 ([] ++ canonicalSource parts) = _ :=
    spans_canonicalSource h (.inl rfl) (by decide)
  simp only [List.nil_append] at hspans
  rw [scan, hspans]
  refine List.ext_getElem (by simp) fun i hi _ => ?_
  simp only [List.length_map, List.length_mapIdx] at hi
  simp only [List.getElem_map, List.getElem_mapIdx]
  exact (h _ (List.getElem_mem hi)).toComment_writtenSpan _ _

end Comment

/-- **A written source is read back**: there is one comment for each part, in order, with its
entries, its target, and the number of the line that its opening delimiter was written on. -/
theorem Document.extract_canonicalSource (name : Text) (parts : List (Entries × Text))
    (h : ∀ part ∈ parts, Comment.Written part.1 part.2) :
    extract name (Comment.canonicalSource parts) =
        ⟨name, parts.mapIdx fun i part =>
          ⟨1 + (Comment.canonicalSource (parts.take i)).count '\n', canonical part.1,
            some part.2⟩⟩ ∧
      (extract name (Comment.canonicalSource parts)).comments.map Comment.entries =
        parts.map Prod.fst := by
  have hscan := Comment.scan_canonicalSource h
  refine ⟨congrArg (Document.mk name) hscan, ?_⟩
  rw [extract, hscan]
  refine List.ext_getElem (by simp) fun i _ hi => ?_
  rw [List.length_map] at hi
  simp only [List.getElem_map, List.getElem_mapIdx]
  exact parse_canonical (h _ (List.getElem_mem hi)).wellFormed

/-- Two functions, one with a star in its prose and a slash beside a key, one with an empty
comment. -/
theorem Document.extract_canonicalSource_add_sub :
    let es : Entries :=
      [⟨none, some "* Adds.\nTwo.".toList⟩, ⟨some ['x'], some "/\nof it".toList⟩]
    let parts := [(es, "int add();".toList), ([], "int sub();".toList)]
    (∀ part ∈ parts, Comment.Written part.1 part.2) ∧
      (extract ['f'] (Comment.canonicalSource parts)).comments =
        [⟨1, canonical es, some "int add();".toList⟩,
          ⟨10, canonical [], some "int sub();".toList⟩] ∧
      (extract ['f'] (Comment.canonicalSource parts)).comments.map Comment.entries = [es, []] := by
  intro es parts
  have hwritten : ∀ part ∈ parts, Comment.Written part.1 part.2 := by
    refine List.forall_mem_cons.2 ⟨?_, List.forall_mem_cons.2 ⟨?_, List.forall_mem_nil _⟩⟩
    · constructor <;> decide +kernel
    · constructor <;> decide +kernel
  obtain ⟨hextract, hentries⟩ := Document.extract_canonicalSource ['f'] parts hwritten
  refine ⟨hwritten, ?_, hentries⟩
  rw [hextract]
  decide +kernel

end DocComments
