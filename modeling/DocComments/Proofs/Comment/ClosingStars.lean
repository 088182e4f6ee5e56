import DocComments.Document.Basic
import DocComments.Proofs.Comment.Settle

/-!
# Comments that several stars close

A comment can be closed by a run of stars and a slash. The closing delimiter is the last star of the
run with the slash; the stars before it stand in the comment. Where the run shares its line with
content, they are read as the end of that content, and so they come into a value, unless the line
has no stars to start with and is not read at all.

* `Entries.stars` counts the stars in the values, and `Entry.stars_ofLines_append` finds them in the
  pieces of the lines.
* `Line.starsIn_pieces_ofText`: of a decorated line, all stars behind the leader come into a value.
* `Document.extract_starClosed` says which entries a comment has that a run of stars closes, and
  when they are those of the comment that a single star closes.
-/

namespace DocComments

open Text Line

variable {b line rest : Text}

/-! ## Stars in values -/

/-- The stars in the texts. -/
def starsIn (ts : List Text) : ℕ :=
  ts.flatten.count '*'

/-- The stars in the values of the entries. -/
def Entries.stars (es : Entries) : ℕ :=
  starsIn (es.flatMap Entry.valueLines)

namespace Line

/-- The stars of a content come into a value, whether it opens a tag or not. -/
theorem starsIn_pieces_ofContent (content : Text) :
    starsIn (ofContent content).pieces = content.count '*' := by
  unfold ofContent
  split
  · next hnil => simp [starsIn, pieces, List.isEmpty_iff.1 hnil]
  split
  · next key value htag =>
    obtain ⟨⟨-, hword⟩, -, -, -⟩ := readTag?_spec htag
    obtain ⟨rest, rfl, rfl⟩ := exists_eq_of_readTag? htag
    have hkey : key.count '*' = 0 := by
      rw [List.count_eq_zero]
      intro hmem
      have hstar := hword '*' hmem
      rw [isWord_star] at hstar
      cases hstar
    have hpieces : starsIn (tag key (trim rest)).pieces = (trim rest).count '*' := by
      simp only [pieces]
      split
      · next hnil => simp [starsIn, hnil]
      · simp [starsIn]
    rw [hpieces, count_trim (by decide), List.count_cons_of_ne (by decide), List.count_append, hkey,
      Nat.zero_add]
  · simp [starsIn, pieces]

/-- **The stars behind the leader of a line come into a value.** -/
theorem starsIn_pieces_ofText (h : Decorated line rest) (hn : '\n' ∉ rest) :
    starsIn (ofText line).pieces = rest.count '*' := by
  rw [← count_trimEnd (by decide) rest, ofText]
  by_cases hslash : trimEnd rest = ['/']
  · rw [content?_eq_none_of_decorated h hslash, hslash]
    rfl
  · rw [content?_of_decorated h hn hslash]
    exact starsIn_pieces_ofContent _

end Line

/-- **The stars in the values are those in the pieces of the lines.** -/
theorem Entry.stars_ofLines_append (ls : List Text) (l : Text) :
    Entries.stars (ofLines (ls ++ [l])) =
      starsIn (ls.flatMap fun l => (ofText l).pieces) + starsIn (ofText l).pieces := by
  rw [Entries.stars, flatMap_valueLines_ofLines, List.flatMap_append, List.flatMap_singleton]
  simp [starsIn]

/-! ## Stars at the end of a line -/

namespace Line

/-- Behind a leader, stars at the end of the line are content. -/
theorem Decorated.append_stars (h : Decorated line rest) (hlast : line.getLast? ≠ some '*')
    (n : ℕ) :
    Decorated (line ++ List.replicate (n + 1) '*') (rest ++ List.replicate (n + 1) '*') := by
  obtain ⟨w₁, slash, m, w₂, hw₁, hslash, hw₂, hstar, hrest, rfl⟩ := h
  refine ⟨w₁, slash, m, w₂, hw₁, hslash, hw₂, fun hnil => ?_, ?_, by simp⟩
  · have hne : rest ≠ [] := by
      rintro rfl
      refine hlast ?_
      simp [hnil, List.replicate_succ']
    rw [List.head?_append_of_ne_nil _ hne]
    exact hstar hnil
  · by_cases hnil : rest = []
    · rw [hnil, List.nil_append, List.replicate_succ]
      exact trimStart_cons_of_not_isBlank (by decide) _
    · exact trimStart_append_of_ne_nil hnil hrest _

/-- Without a leader, stars at the end of the line make no content of it. -/
theorem ofText_append_stars (h : afterLeader? line = none) (hc : ∃ c ∈ line, Text.isBlank c = false)
    (n : ℕ) : ofText (line ++ List.replicate n '*') = blank := by
  have hall : ¬ AllBlank line := by
    obtain ⟨c, hmem, hblank⟩ := hc
    intro hall
    rw [hall c hmem] at hblank
    cases hblank
  have hne : trimStart line ≠ [] := fun hnil => hall (trimStart_eq_nil_iff.1 hnil)
  have hleft : afterLeader? (line ++ List.replicate n '*') = none ∨
      afterLeader? (line ++ List.replicate n '*') = some [] := by
    unfold afterLeader? at h ⊢
    rw [trimStart_append_of_not_allBlank hall]
    generalize trimStart line = t at h hne
    obtain ⟨c, t, rfl⟩ := List.exists_cons_of_ne_nil hne
    by_cases hstar : c = '*'
    · simp [hstar] at h
    by_cases hslash : c = '/'
    · subst hslash
      cases t with
      | nil => cases n <;> simp [List.replicate_succ, trimStart]
      | cons d t =>
        by_cases hd : d = '*'
        · simp [hd] at h
        · simp [hd]
    · simp [hstar, hslash]
  rw [ofText_eq_blank_iff, IsBlank, content?]
  rcases hleft with hleft | hleft <;> rw [hleft]
  · exact .inl rfl
  · exact .inr (by decide)

end Line

/-! ## Closing runs -/

/-- The text stands in a comment and shares its last line with the delimiter that closes it: it
neither is nor closes a comment by itself, does not end in a star, and has something else than
blanks and stars on its last line. -/
structure SharesLastLine (b : Text) : Prop where
  /-- The comment ends no earlier. -/
  close_not_infix : ¬ closeDelimiter <:+: b
  /-- The comment is no empty comment. -/
  head?_ne : b.head? ≠ some '/'
  /-- All stars of the run are known. -/
  getLast?_ne : b.getLast? ≠ some '*'
  /-- There is something on the last line. -/
  exists_mem : ∃ c ∈ lastLine b, Text.isBlank c = false ∧ c ≠ '*'

/-- The comment with the text `b` that a run of `n + 1` stars closes. -/
def starClosed (b : Text) (n : ℕ) : Text :=
  openDelimiter ++ b ++ List.replicate (n + 1) '*' ++ ['/']

theorem starClosed_eq (b : Text) (n : ℕ) :
    starClosed b n =
      [] ++ openDelimiter ++ ((b ++ List.replicate n '*') ++ closeDelimiter ++ []) := by
  simp [starClosed, closeDelimiter, List.replicate_succ']

namespace SharesLastLine

theorem ne_nil (h : SharesLastLine b) : b ≠ [] := by
  rintro rfl
  obtain ⟨c, hc, -⟩ := h.exists_mem
  cases hc

theorem exists_mem_lastLine (h : SharesLastLine b) :
    ∃ c ∈ lastLine (openDelimiter ++ b), Text.isBlank c = false ∧ c ≠ '*' := by
  obtain ⟨c, hc, hkind⟩ := h.exists_mem
  exact ⟨c, (lastLine_suffix_lastLine_append openDelimiter b).subset hc, hkind⟩

/-- The one comment that a run of stars closes. -/
theorem spans_starClosed (h : SharesLastLine b) (n : ℕ) :
    spans 1 (starClosed b n) = [⟨1, b ++ List.replicate n '*', []⟩] := by
  have hwf : (Span.mk 1 b []).WellFormed := ⟨h.close_not_infix, h.head?_ne⟩
  rw [starClosed_eq, spans_eq_cons (by decide) (hwf.append_stars n), spans_eq_nil (by decide)]
  rfl

theorem lastLine_append_stars (b : Text) (n : ℕ) :
    lastLine (openDelimiter ++ b ++ List.replicate n '*') =
      lastLine (openDelimiter ++ b) ++ List.replicate n '*' :=
  lastLine_append_of_not_mem (by simp) _

theorem not_starsThenBlanks (h : SharesLastLine b) (n : ℕ) :
    ¬ StarsThenBlanks (lastLine (openDelimiter ++ b ++ List.replicate n '*')) := by
  obtain ⟨c, hc, hblank, hstar⟩ := h.exists_mem_lastLine
  rintro ⟨w₁, m, w₂, hw₁, hw₂, -, heq⟩
  have hmem : c ∈ w₁ ++ (List.replicate (m + 1) '*' ++ w₂) := by
    rw [← heq, lastLine_append_stars]
    exact List.mem_append_left _ hc
  have hnot : ∀ w, AllBlank w → c ∉ w := fun w hw hcw => by simp [hw c hcw] at hblank
  simp only [List.mem_append, List.mem_replicate, hnot w₁ hw₁, hnot w₂ hw₂, hstar] at hmem
  simp at hmem

/-- The entries of the comment that a run of stars closes. -/
theorem entries_starClosed (h : SharesLastLine b) (n : ℕ) :
    (Comment.scan (starClosed b n)).map Comment.entries =
      [Entry.parse (openDelimiter ++ b ++ List.replicate n '*')] := by
  have hbody : (Span.mk 1 (b ++ List.replicate n '*') []).body =
      openDelimiter ++ b ++ List.replicate n '*' := (List.append_assoc ..).symm
  have hparse := Span.parse_settle (s := ⟨1, b ++ List.replicate n '*', []⟩)
    (hbody ▸ h.not_starsThenBlanks n)
  rw [Comment.scan, h.spans_starClosed n, ← hbody, ← hparse]
  rfl

/-- The lines of the comment, the last of which ends in the run. -/
theorem parse_eq_ofLines (h : SharesLastLine b) (n : ℕ) :
    Entry.parse (openDelimiter ++ b ++ List.replicate n '*') =
      Entry.ofLines (lines (beforeLastLine (openDelimiter ++ b)) ++
        [lastLine (openDelimiter ++ b) ++ List.replicate n '*']) := by
  obtain ⟨c, hc, -⟩ := h.exists_mem_lastLine
  have hne : lastLine (openDelimiter ++ b) ≠ [] := List.ne_nil_of_mem hc
  have hn : '\n' ∉ lastLine (openDelimiter ++ b) ++ List.replicate n '*' := by
    rw [List.mem_append, not_or]
    exact ⟨newline_not_mem_lastLine _, by simp⟩
  conv_lhs => rw [← beforeLastLine_append_lastLine (openDelimiter ++ b)]
  rw [List.append_assoc, Entry.parse, lines_append (endsLine_beforeLastLine _),
    lines_of_not_mem hn (by simp [hne])]

theorem getLast?_lastLine_ne (h : SharesLastLine b) :
    (lastLine (openDelimiter ++ b)).getLast? ≠ some '*' := by
  obtain ⟨c, hc, -⟩ := h.exists_mem_lastLine
  have hne : lastLine (openDelimiter ++ b) ≠ [] := List.ne_nil_of_mem hc
  have hlast := congrArg List.getLast? (beforeLastLine_append_lastLine (openDelimiter ++ b))
  rw [List.getLast?_append_of_ne_nil _ hne, List.getLast?_append_of_ne_nil _ h.ne_nil] at hlast
  rw [hlast]
  exact h.getLast?_ne

/-- **Each star before the last comes into a value**, if the line of the run has a leader. -/
theorem stars_parse (h : SharesLastLine b)
    (hdec : Decorated (lastLine (openDelimiter ++ b)) rest) (n : ℕ) :
    (Entry.parse (openDelimiter ++ b ++ List.replicate n '*')).stars =
      (Entry.parse (openDelimiter ++ b)).stars + n := by
  have hrest : '\n' ∉ rest := fun hmem =>
    newline_not_mem_lastLine _ (hdec.suffix.subset hmem)
  have hzero := h.parse_eq_ofLines 0
  simp only [List.replicate_zero, List.append_nil] at hzero
  cases n with
  | zero => simp
  | succ n =>
    have hmore := hdec.append_stars h.getLast?_lastLine_ne n
    have hn : '\n' ∉ rest ++ List.replicate (n + 1) '*' := by simp [hrest]
    rw [h.parse_eq_ofLines, hzero, Entry.stars_ofLines_append, Entry.stars_ofLines_append,
      starsIn_pieces_ofText hmore hn, starsIn_pieces_ofText hdec hrest, List.count_append,
      List.count_replicate_self, Nat.add_assoc]

/-- **No star comes into a value** if the line of the run has no leader. -/
theorem parse_append_stars (h : SharesLastLine b)
    (hnone : afterLeader? (lastLine (openDelimiter ++ b)) = none) (n : ℕ) :
    Entry.parse (openDelimiter ++ b ++ List.replicate n '*') =
      Entry.parse (openDelimiter ++ b) := by
  have hc : ∃ c ∈ lastLine (openDelimiter ++ b), Text.isBlank c = false := by
    obtain ⟨c, hc, hblank, -⟩ := h.exists_mem_lastLine
    exact ⟨c, hc, hblank⟩
  have hzero := h.parse_eq_ofLines 0
  have hkind := ofText_append_stars hnone hc
  have hkinds : (lines (beforeLastLine (openDelimiter ++ b)) ++
        [lastLine (openDelimiter ++ b) ++ List.replicate n '*']).map ofText =
      (lines (beforeLastLine (openDelimiter ++ b)) ++
        [lastLine (openDelimiter ++ b) ++ List.replicate 0 '*']).map ofText := by
    rw [List.map_append, List.map_append, List.map_singleton, List.map_singleton, hkind n, hkind 0]
  rw [h.parse_eq_ofLines, Entry.ofLines_congr hkinds, ← hzero, List.replicate_zero, List.append_nil]

end SharesLastLine

/-- **A comment that a run of stars closes.** It is one comment, and the stars before the last one
belong to its text. The comment has the entries that it has with a single star only where no further
star is there, or where its last line has no leader. -/
theorem Document.extract_starClosed (name b : Text) (h : SharesLastLine b) (n : ℕ) :
    (extract name (starClosed b n)).comments.map Comment.entries =
        [Entry.parse (openDelimiter ++ b ++ List.replicate n '*')] ∧
      ((extract name (starClosed b n)).comments.map Comment.entries =
          (extract name (starClosed b 0)).comments.map Comment.entries ↔
        n = 0 ∨ afterLeader? (lastLine (openDelimiter ++ b)) = none) := by
  have hentries := h.entries_starClosed
  refine ⟨hentries n, ?_⟩
  change (Comment.scan _).map _ = (Comment.scan _).map _ ↔ _
  rw [hentries n, hentries 0, List.replicate_zero, List.append_nil, List.singleton_inj]
  constructor
  · intro heq
    rw [or_iff_not_imp_right, ← Ne, Option.ne_none_iff_exists']
    rintro ⟨rest, hrest⟩
    have hstars := h.stars_parse (afterLeader?_eq_some_iff.1 hrest) n
    rw [heq] at hstars
    omega
  · rintro (rfl | hnone)
    · rw [List.replicate_zero, List.append_nil]
    · exact h.parse_append_stars hnone n

/-- Two stars behind a word on a line that starts with a star. -/
theorem Document.extract_starClosed_word :
    let b := "\n * @since 1 ".toList
    SharesLastLine b ∧
      (extract ['f'] (starClosed b 1)).comments.map Comment.entries =
        [[⟨some "since".toList, some "1 *".toList⟩]] ∧
      (extract ['f'] (starClosed b 1)).comments.map Comment.entries ≠
        (extract ['f'] (starClosed b 0)).comments.map Comment.entries := by
  intro b
  have h : SharesLastLine b := ⟨by decide, by decide, by decide, '1', by decide⟩
  obtain ⟨hentries, hiff⟩ := extract_starClosed ['f'] b h 1
  have hparse : [Entry.parse (openDelimiter ++ b ++ List.replicate 1 '*')] =
    [[⟨some "since".toList, some "1 *".toList⟩]] := by decide +kernel
  have hleader : afterLeader? (lastLine (openDelimiter ++ b)) ≠ none := by decide
  exact ⟨h, hentries.trans hparse, fun heq => (hiff.1 heq).elim Nat.one_ne_zero hleader⟩

/-- A second star before the delimiter becomes the last word of the value. -/
theorem not_forall_entries_starClosed_eq :
    ¬ ∀ (name b : Text) (n : ℕ), SharesLastLine b →
      ∃ c c₁, (Document.extract name (starClosed b n)).comments = [c] ∧
        (Document.extract name (starClosed b 0)).comments = [c₁] ∧ c.entries = c₁.entries := by
  intro hall
  have h : SharesLastLine " a ".toList := ⟨by decide, by decide, by decide, 'a', by decide⟩
  obtain ⟨c, c₁, hc, hc₁, heq⟩ := hall ['x'] _ 1 h
  have hscan : (Document.extract ['x'] (starClosed " a ".toList 1)).comments =
    [⟨1, "/** a *\n */".toList, none⟩] := by decide +kernel
  have hscan₁ : (Document.extract ['x'] (starClosed " a ".toList 0)).comments =
    [⟨1, "/** a\n */".toList, none⟩] := by decide +kernel
  rw [hscan, List.singleton_inj] at hc
  rw [hscan₁, List.singleton_inj] at hc₁
  subst hc hc₁
  revert heq
  decide +kernel

end DocComments
