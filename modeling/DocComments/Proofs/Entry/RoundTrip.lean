import DocComments.Proofs.Entry.Grouping

/-!
# Reading what is written

A comment that is written line by line from well-formed entries is read as these entries, and
nothing but well-formed entries is ever read. So the well-formed lists of entries are what reading
can give, each from the comment that it is written as.

* `kinds` are the kinds of the lines that an entry is written on, and `groups_kinds_append` finds
  the entry as the first group of them.
* `parse_canonical`: a written comment is read back.
* `parse_canonical_image` adds that reading gives nothing else.
-/

namespace DocComments.Entry

open Text Line

variable {e : Entry} {key line content : Text}

/-! ## Entries as groups -/

/-- The key and the lines of the value. -/
def toGroup (e : Entry) : Group :=
  ⟨e.key, e.valueLines⟩

theorem newline_not_mem_of_mem_valueLines (h : line ∈ e.valueLines) : '\n' ∉ line := by
  unfold valueLines at h
  split at h
  · exact not_mem_of_mem_splitOn h
  · cases h

theorem WellFormed.valueLines_ne_nil (h : e.WellFormed) (hkey : e.key = none) :
    e.valueLines ≠ [] := by
  obtain ⟨value, hvalue⟩ := Option.isSome_iff_exists.1 (h.isSome_value hkey)
  simp [valueLines, hvalue, List.splitOn_ne_nil]

/-- An entry is what its lines make together. -/
theorem entry_toGroup (e : Entry) : e.toGroup.entry = e := by
  obtain ⟨key, value⟩ := e
  cases value with
  | none => rfl
  | some value =>
    simp [toGroup, Group.entry, valueLines, List.splitOn_ne_nil, joinLines_splitOn]

/-! ## Written lines -/

/-- The line that a content is written on, without its ending. -/
def lineOf (content : Text) : Text :=
  [' ', '*', ' '] ++ content

theorem decorate_eq (content : Text) : decorate content = lineOf content ++ ['\n'] :=
  rfl

theorem endsLine_decorate (content : Text) : EndsLine (decorate content) :=
  endsLine_append_newline (lineOf content)

/-- The content stands on a line of its own and is read from there. -/
def IsContent (content : Text) : Prop :=
  IsValueLine content ∧ '\n' ∉ content ∧ content ≠ ['/']

theorem IsContent.lines_decorate (h : IsContent content) :
    lines (decorate content) = [lineOf content] := by
  have hlast : (lineOf content).getLast? ≠ some '\r' := by
    rw [lineOf, List.getLast?_append_of_ne_nil _ h.1.1]
    exact getLast?_ne_of_trimEnd_eq (trim_eq_self_iff.1 h.1.2).2 (by decide)
  have hn : '\n' ∉ lineOf content := by simpa [lineOf] using h.2.1
  rw [decorate_eq, lines_line hn hlast, lines]

theorem IsContent.ofText_lineOf (h : IsContent content) :
    ofText (lineOf content) = ofContent content := by
  have hdec : Decorated (lineOf content) content :=
    ⟨[' '], [], 0, [' '], allBlank_space, .inl rfl, allBlank_space, by simp,
      (trim_eq_self_iff.1 h.1.2).1, rfl⟩
  exact ofText_decorated hdec h.1 h.2.1 h.2.2

theorem isContent_of_isProseLine (hline : IsValueLine line) (hn : '\n' ∉ line)
    (hprose : IsProseLine line) : IsContent line :=
  ⟨hline, hn, hprose.1⟩

theorem ofContent_prose (hline : IsValueLine line) (hprose : IsProseLine line) :
    ofContent line = .prose line := by
  simp [ofContent, hline.1, hprose.2]

theorem newline_not_mem_key (hkey : IsKey key) : '\n' ∉ key := by
  intro hn
  have := isBlank_of_isWord (hkey.2 _ hn)
  revert this
  decide

/-- A tag is read from its key and what stands beside it. -/
theorem isContent_tag (hkey : IsKey key) (rest : Text) (hn : '\n' ∉ rest)
    (hend : trimEnd rest = rest) : IsContent ('@' :: key ++ rest) := by
  have htrim : trimEnd ('@' :: key ++ rest) = '@' :: key ++ rest := by
    by_cases hrest : rest = []
    · rw [hrest, List.append_nil]
      exact trimEnd_append_of_ne_nil ['@'] hkey.1 (trim_eq_self_iff.1 (trim_of_isWord hkey.2)).2
    · exact trimEnd_append_of_ne_nil _ hrest hend
  refine ⟨⟨by simp, trim_eq_self_iff.2 ⟨?_, htrim⟩⟩, ?_, by simp⟩
  · exact trimStart_cons_of_not_isBlank (by decide) _
  · simpa [newline_not_mem_key hkey] using hn

theorem ofContent_tag_nil (hkey : IsKey key) : ofContent ('@' :: key) = .tag key [] := by
  have hread := readTag?_at hkey [] (by simp) (by simp)
  rw [List.append_nil] at hread
  rw [ofContent, if_neg (by simp), hread]
  rfl

theorem ofContent_tag (hkey : IsKey key) (hline : IsValueLine line) (hn : '\n' ∉ line) :
    ofContent ('@' :: key ++ ' ' :: line) = .tag key line := by
  have hread := readTag?_at hkey (' ' :: line) (by simpa using isWord_space) (by simpa using hn)
  have htrim : trim (' ' :: line) = line := by
    rw [trim, ← List.singleton_append, trimStart_append allBlank_space]
    exact hline.2
  rw [ofContent, if_neg (by simp), hread, htrim]

/-! ## Written entries -/

/-- The kinds of the lines that an entry is written on. -/
def kinds (e : Entry) : List Line :=
  match e.key, e.valueLines with
  | none, lines => lines.map .prose
  | some key, [] => [.tag key []]
  | some key, line :: lines => .tag key line :: lines.map .prose

/-- The contents that an entry is written on are read as its lines. -/
theorem WellFormed.contents_spec (h : e.WellFormed) :
    (∀ content ∈ e.contents, IsContent content) ∧ e.contents.map ofContent = e.kinds := by
  have hn : ∀ line ∈ e.valueLines, '\n' ∉ line := fun _ => newline_not_mem_of_mem_valueLines
  have hvalue := h.isValueLine
  have hprose := h.isProseLine
  unfold ownLines at hprose
  cases hk : e.key with
  | none =>
    rw [if_neg (by simp [hk])] at hprose
    simp only [Entry.contents, kinds, hk]
    exact ⟨fun line hl => isContent_of_isProseLine (hvalue line hl) (hn line hl) (hprose line hl),
      List.map_congr_left fun line hl => ofContent_prose (hvalue line hl) (hprose line hl)⟩
  | some key =>
    have hkey := h.isKey key hk
    rw [if_pos (by simp [hk])] at hprose
    cases hlines : e.valueLines with
    | nil =>
      have hcontent := isContent_tag hkey [] (by simp) rfl
      rw [List.append_nil] at hcontent
      simp [Entry.contents, kinds, hk, hlines, hcontent, ofContent_tag_nil hkey]
    | cons line lines =>
      rw [hlines] at hn hvalue hprose
      obtain ⟨hnl, hn⟩ := List.forall_mem_cons.1 hn
      obtain ⟨hline, hvalue⟩ := List.forall_mem_cons.1 hvalue
      rw [List.drop_one, List.tail_cons] at hprose
      have hend : trimEnd (' ' :: line) = ' ' :: line :=
        trimEnd_append_of_ne_nil [' '] hline.1 (trim_eq_self_iff.1 hline.2).2
      simp only [Entry.contents, kinds, hk, hlines, List.map_cons, ofContent_tag hkey hline hnl]
      refine ⟨List.forall_mem_cons.2 ⟨isContent_tag hkey _ (by simpa using hnl) hend, ?_⟩, ?_⟩
      · exact fun l hl => isContent_of_isProseLine (hvalue l hl) (hn l hl) (hprose l hl)
      · exact congrArg _ <|
          List.map_congr_left fun l hl => ofContent_prose (hvalue l hl) (hprose l hl)

theorem leadingProse_map_prose (ts : List Text) {ls : List Line}
    (hls : ∀ content, ls.head? ≠ some (.prose content)) :
    leadingProse (ts.map Line.prose ++ ls) = ts := by
  induction ts with
  | nil => exact (leadingProse_of_not_prose hls).1
  | cons t ts ih => simpa using ih

theorem afterProse_map_prose (ts : List Text) {ls : List Line}
    (hls : ∀ content, ls.head? ≠ some (.prose content)) :
    afterProse (ts.map Line.prose ++ ls) = ls := by
  induction ts with
  | nil => exact (leadingProse_of_not_prose hls).2
  | cons t ts ih => simpa using ih

/-- **The lines of a written entry are one group**, unless prose goes on with it. -/
theorem WellFormed.groups_kinds_append (h : e.WellFormed) {ls : List Line}
    (hls : ∀ content, ls.head? ≠ some (.prose content)) :
    groups (e.kinds ++ ls) = e.toGroup :: groups ls := by
  unfold kinds
  split
  · next lines hk =>
    obtain ⟨line, lines', hlines⟩ := List.exists_cons_of_ne_nil (h.valueLines_ne_nil hk)
    simp [hlines, toGroup, hk, leadingProse_map_prose _ hls, afterProse_map_prose _ hls]
  · next key hk hlines =>
    obtain ⟨hleading, hafter⟩ := leadingProse_of_not_prose hls
    simp [toGroup, hk, hlines, hleading, hafter]
  · next key line lines hk hlines =>
    have hne := (h.isValueLine line (hlines ▸ List.mem_cons_self ..)).1
    simp [toGroup, hk, hlines, hne, leadingProse_map_prose _ hls, afterProse_map_prose _ hls]

/-- An entry is written on lines of its own. -/
theorem endsLine_written (e : Entry) : EndsLine (e.contents.flatMap decorate ++ emptyLine) :=
  (endsLine_flatMap fun content _ => endsLine_decorate content).append
    (endsLine_append_newline [' ', '*'])

/-- The lines of a written entry, the empty one after it included. -/
theorem WellFormed.lines_written (h : e.WellFormed) :
    (lines (e.contents.flatMap decorate ++ emptyLine)).map ofText = e.kinds ++ [blank] := by
  obtain ⟨hcontent, hkinds⟩ := h.contents_spec
  have hends : ∀ content ∈ e.contents, EndsLine (decorate content) :=
    fun content _ => endsLine_decorate content
  have hlines : lines (e.contents.flatMap decorate) = e.contents.map lineOf := by
    rw [lines_flatMap hends, List.map_eq_flatMap]
    exact List.flatMap_congr fun content hc => (hcontent content hc).lines_decorate
  have hkinds' : (e.contents.map lineOf).map ofText = e.kinds := by
    rw [List.map_map, ← hkinds]
    exact List.map_congr_left fun content hc => (hcontent content hc).ofText_lineOf
  rw [lines_append (endsLine_flatMap hends), List.map_append, hlines, hkinds']
  rfl

/-- The entries of a comment are written on lines of their own. -/
theorem endsLine_flatMap_written (es : Entries) :
    EndsLine (es.flatMap fun e => e.contents.flatMap decorate ++ emptyLine) :=
  endsLine_flatMap fun e _ => endsLine_written e

/-! ## Written comments -/

theorem lines_canonical {es : Entries} (h : ∀ e ∈ es, e.WellFormed) :
    (lines (canonical es)).map ofText =
      blank :: (es.flatMap fun e => e.kinds ++ [blank]) ++ [blank] := by
  have hopen : lines (openDelimiter ++ ['\n']) = [openDelimiter] := by decide
  have hclose : lines ([' '] ++ closeDelimiter) = [[' '] ++ closeDelimiter] := by decide
  have hblank : ofText openDelimiter = blank ∧ ofText ([' '] ++ closeDelimiter) = blank := by
    decide
  have hes : (lines (es.flatMap fun e => e.contents.flatMap decorate ++ emptyLine)).map ofText =
      es.flatMap fun e => e.kinds ++ [blank] := by
    rw [lines_flatMap fun e _ => endsLine_written e, List.map_flatMap]
    exact List.flatMap_congr fun e he => (h e he).lines_written
  rw [canonical, List.append_assoc _ [' '],
    lines_append ((endsLine_append_newline openDelimiter).append (endsLine_flatMap_written es)),
    lines_append (endsLine_append_newline openDelimiter), hopen, hclose]
  simpa [hes, hblank.1] using hblank.2

theorem groups_flatMap_kinds {es : Entries} (h : ∀ e ∈ es, e.WellFormed) :
    groups ((es.flatMap fun e => e.kinds ++ [blank]) ++ [blank]) = es.map toGroup := by
  induction es with
  | nil => simp
  | cons e es ih =>
    obtain ⟨he, hes⟩ := List.forall_mem_cons.1 h
    have hblank : ∀ content, (blank :: ((es.flatMap fun e => e.kinds ++ [blank]) ++
        [blank])).head? ≠ some (.prose content) := by simp
    have hstep := he.groups_kinds_append hblank
    rw [groups_blank, ih hes] at hstep
    simpa using hstep

/-- **A written comment is read back.** -/
theorem parse_canonical {es : Entries} (h : ∀ e ∈ es, e.WellFormed) :
    parse (canonical es) = es := by
  rw [parse, ofLines_eq_map_groups, lines_canonical h, List.cons_append, groups_blank,
    groups_flatMap_kinds h, List.map_map]
  exact (List.map_congr_left fun e _ => entry_toGroup e).trans (List.map_id es)

/-- **Reading gives the well-formed lists of entries and no others**, each of them at least from the
comment that it is written as. -/
theorem parse_canonical_image :
    (∀ es : Entries, (∀ e ∈ es, e.WellFormed) → parse (canonical es) = es) ∧
      (∀ raw : Text, ∀ e ∈ parse raw, e.WellFormed) ∧
      (∀ raw : Text, parse (canonical (parse raw)) = parse raw) ∧
      ∀ es : Entries, (∃ raw, parse raw = es) ↔ ∀ e ∈ es, e.WellFormed := by
  refine ⟨fun es => parse_canonical, fun raw e => wellFormed_of_mem_parse,
    fun raw => parse_canonical fun e => wellFormed_of_mem_parse, fun es => ⟨?_, ?_⟩⟩
  · rintro ⟨raw, rfl⟩ e he
    exact wellFormed_of_mem_parse he
  · intro h
    exact ⟨canonical es, parse_canonical h⟩

/-- A slash and a tag beside a key, a closing delimiter and an at sign in prose, and a lone key. -/
theorem parse_canonical_image_slash :
    let es : Entries := [⟨some "see".toList, some "/\n** a".toList⟩,
      ⟨none, some "*/ ends\n@ no tag\n/*".toList⟩, ⟨some ['x'], none⟩,
      ⟨some ['x'], some "@y".toList⟩]
    (∀ e ∈ es, e.WellFormed) ∧ parse (canonical es) = es := by
  intro es
  have h : ∀ e ∈ es, e.WellFormed := by decide +kernel
  exact ⟨h, parse_canonical_image.1 es h⟩

end DocComments.Entry
