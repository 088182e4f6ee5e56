import DocComments.Proofs.Entry.Streaming

/-!
# Entries of lines put together

Two lists of lines that are put one after the other have the entries of the one and then those of
the other, unless the second goes on with the last entry of the first: that is so when the first
ends with a line that is not blank and the second starts with prose. Then the value of the first
entry of the second goes to that last entry, on lines of its own, and nothing else changes.

* `Apart` is the case without such an entry; `ofLines_append_of_apart` and
  `exists_ofLines_append_of_not_apart` are the two cases.
* `ofLines_append_cons`: a blank line adds nothing and keeps the lines around it apart.
* `parse_append_newline`: a line feed at the end of a text changes nothing, also after a carriage
  return; `parse_append_of_allBlank`: no blanks do, and neither does trimming (`parse_trimEnd`).
* `Entry.parse_append` puts the law for lines and the law for texts together.
-/

namespace DocComments

open Text Line

variable {xs ys : List Text} {l : Text}

namespace Entry

/-! ## Going on with an entry -/

/-- The entry with more lines in its value. -/
def continued (e : Entry) (value : Text) : Entry :=
  ⟨e.key, some ((e.value.map (· ++ ['\n'])).getD [] ++ value)⟩

/-- The lines `ys` do not go on with the last entry of the lines `xs`. -/
def Apart (xs ys : List Text) : Prop :=
  xs = [] ∨ ys = [] ∨ (∃ l ∈ xs.getLast?, IsBlank l) ∨ ∃ l ∈ ys.head?, IsBlank l ∨ OpensTag l

instance (xs ys : List Text) : Decidable (Apart xs ys) :=
  inferInstanceAs (Decidable (_ ∨ _))

theorem ofLines_congr (h : xs.map ofText = ys.map ofText) : ofLines xs = ofLines ys := by
  rw [ofLines_eq_map_groups, ofLines_eq_map_groups, h]

theorem entry_append_pieces (g : Group) {pieces : List Text} (h : pieces ≠ []) :
    Group.entry ⟨g.key, g.pieces ++ pieces⟩ = g.entry.continued (joinLines pieces) := by
  by_cases hnil : g.pieces = []
  · simp [Group.entry, continued, hnil, h]
  · simp [Group.entry, continued, hnil, joinLines_append hnil h]

/-- The lines have the entries that are complete after them, and the one that is open. -/
theorem ofLines_eq (xs : List Text) :
    ofLines xs = (xs.foldl Collector.feed .empty).entries.toList ++
      (groupsFrom ((xs.foldl Collector.feed .empty).draft.map Draft.toGroup) []).map Group.entry :=
  Collector.finish_foldl_feed (Collector.wellFormed_foldl_feed xs) []

/-- The collector goes on with the lines `ys` from where the lines `xs` have left it. -/
theorem ofLines_append (xs ys : List Text) :
    ofLines (xs ++ ys) = (xs.foldl Collector.feed .empty).entries.toList ++
      (groupsFrom ((xs.foldl Collector.feed .empty).draft.map Draft.toGroup)
        (ys.map ofText)).map Group.entry := by
  rw [ofLines, List.foldl_append, Collector.finish_foldl_feed (Collector.wellFormed_foldl_feed xs)]

/-- The second lines go on with an entry if one is open and they start with prose. -/
theorem apart_iff :
    Apart xs ys ↔ (xs.foldl Collector.feed .empty).draft = none ∨ ∀ l ∈ ys.head?, ¬ IsProse l := by
  have hys : (∀ l ∈ ys.head?, ¬ IsProse l) ↔
      ys = [] ∨ ∃ l ∈ ys.head?, IsBlank l ∨ OpensTag l := by
    cases ys <;> simp [IsProse, or_iff_not_imp_left]
  rw [Apart, Collector.draft_foldl_feed_eq_none_iff, hys, ← or_assoc, or_or_or_comm]

theorem groupsFrom_of_not_prose (g : Group) {ls : List Line}
    (h : ∀ content, ls.head? ≠ some (.prose content)) :
    groupsFrom (some g) ls = groupsFrom (some g) [] ++ groups ls := by
  obtain ⟨hleading, hafter⟩ := leadingProse_of_not_prose h
  simp [groupsFrom, hleading, hafter]

/-- **Lines that go on with nothing** add their own entries. -/
theorem ofLines_append_of_apart (h : Apart xs ys) :
    ofLines (xs ++ ys) = ofLines xs ++ ofLines ys := by
  rw [ofLines_append, ofLines_eq xs, ofLines_eq_map_groups, List.append_assoc,
    ← List.map_append]
  rcases apart_iff.1 h with hdraft | hprose
  · simp [hdraft, groupsFrom]
  · cases hdraft : (xs.foldl Collector.feed .empty).draft with
    | none => simp [groupsFrom]
    | some d =>
      have hhead : ∀ content, (ys.map ofText).head? ≠ some (.prose content) := by
        intro content hc
        rw [List.head?_map] at hc
        obtain ⟨l, hl, hkind⟩ := Option.map_eq_some_iff.1 hc
        exact hprose l hl (exists_ofText_eq_prose_iff.1 ⟨content, hkind⟩)
      rw [Option.map_some, groupsFrom_of_not_prose _ hhead]

/-- **Lines that go on with the last entry** give it the value of their first one. -/
theorem exists_ofLines_append_of_not_apart (h : ¬ Apart xs ys) :
    ∃ es e value es', ofLines xs = es ++ [e] ∧ ofLines ys = ⟨none, some value⟩ :: es' ∧
      ofLines (xs ++ ys) = es ++ e.continued value :: es' := by
  simp only [apart_iff, not_or, not_forall, not_not, exists_prop] at h
  obtain ⟨hdraft, l, hhead, hprose⟩ := h
  obtain ⟨d, hd⟩ := Option.ne_none_iff_exists'.1 hdraft
  obtain ⟨ys, rfl⟩ := List.head?_eq_some_iff.1 hhead
  obtain ⟨content, hcontent⟩ := exists_ofText_eq_prose_iff.2 hprose
  have hxs := ofLines_eq xs
  have hboth := ofLines_append xs (l :: ys)
  have hys := ofLines_eq_map_groups (l :: ys)
  rw [hd] at hxs
  rw [hd, List.map_cons, hcontent] at hboth
  rw [List.map_cons, hcontent, groups_prose] at hys
  refine ⟨(xs.foldl Collector.feed .empty).entries.toList, d.toGroup.entry,
    joinLines (content :: leadingProse (ys.map ofText)), _, hxs.trans ?_, hys, hboth.trans ?_⟩
  · simp [groupsFrom]
  · simp [groupsFrom, entry_append_pieces]

/-- **A blank line adds nothing**, and keeps the lines around it apart. -/
theorem ofLines_append_cons (xs ys : List Text) (hl : IsBlank l) :
    ofLines (xs ++ l :: ys) = ofLines xs ++ ofLines ys := by
  have hnil : ofLines [l] = [] := by
    rw [ofLines_eq_map_groups, List.map_singleton, ofText_eq_blank_iff.2 hl, groups_blank,
      groups_nil, List.map_nil]
  have hbefore : Apart xs ([l] ++ ys) := .inr (.inr (.inr ⟨l, rfl, .inl hl⟩))
  have hafter : Apart [l] ys := .inr (.inr (.inl ⟨l, rfl, hl⟩))
  rw [← List.singleton_append, ofLines_append_of_apart hbefore, ofLines_append_of_apart hafter,
    hnil, List.nil_append]

/-! ## Texts -/

/-- The end of a line does not show in its kind. -/
theorem map_ofText_lines_line (hn : '\n' ∉ l) : (lines (l ++ ['\n'])).map ofText = [ofText l] := by
  by_cases hr : l.getLast? = some '\r'
  · obtain ⟨l, rfl⟩ := List.getLast?_eq_some_iff.1 hr
    have hn' : '\n' ∉ l := fun h => hn (List.mem_append_left _ h)
    rw [List.append_assoc, List.singleton_append, lines_line_return hn', lines,
      ofText_append (by decide) (by decide)]
    rfl
  · rw [lines_line hn hr, lines]
    rfl

/-- **A line feed at the end of a text changes nothing.** -/
theorem parse_append_newline (t : Text) : parse (t ++ ['\n']) = parse t := by
  have hlines : (lines (t ++ ['\n'])).map ofText =
      (lines (beforeLastLine t) ++ [lastLine t]).map ofText := by
    conv_lhs => rw [← beforeLastLine_append_lastLine t]
    rw [List.append_assoc, lines_append (endsLine_beforeLastLine t), List.map_append,
      map_ofText_lines_line (newline_not_mem_lastLine t), List.map_append, List.map_singleton]
  rw [parse, ofLines_congr hlines]
  -- a last line that is empty is no line of `t`, but then it is a blank one
  by_cases hlast : lastLine t = []
  · have ht : beforeLastLine t = t := by
      conv_rhs => rw [← beforeLastLine_append_lastLine t, hlast, List.append_nil]
    have hnil : IsBlank [] := by decide
    rw [hlast, ofLines_append_cons _ _ hnil, ht]
    exact List.append_nil _
  · have ht := lines_of_not_mem (newline_not_mem_lastLine t) hlast
    rw [← ht, ← lines_append (endsLine_beforeLastLine t), beforeLastLine_append_lastLine, parse]

theorem isBlank_of_allBlank (hl : AllBlank l) (hn : '\n' ∉ l) : IsBlank l := by
  rw [← ofText_eq_blank_iff, ← List.nil_append l, ofText_append hl hn]
  decide

theorem parse_append_of_isBlank {t : Text} (ht : EndsLine t) (hn : '\n' ∉ l) (hl : IsBlank l) :
    parse (t ++ l) = parse t := by
  by_cases hnil : l = []
  · rw [hnil, List.append_nil]
  · rw [parse, lines_append ht, lines_of_not_mem hn hnil, ofLines_append_cons _ _ hl]
    exact List.append_nil _

theorem parse_append_singleton {c : Char} (hc : Text.isBlank c = true) (t : Text) :
    parse (t ++ [c]) = parse t := by
  by_cases hnew : c = '\n'
  · rw [hnew, parse_append_newline]
  have hw : AllBlank [c] := by simpa [AllBlank] using hc
  have hn : '\n' ∉ [c] := by simpa using Ne.symm hnew
  have hends := endsLine_beforeLastLine t
  have hnl := newline_not_mem_lastLine t
  have ht := beforeLastLine_append_lastLine t
  by_cases hlast : lastLine t = []
  · -- the character is a line of its own
    rw [hlast, List.append_nil] at ht
    rw [ht] at hends
    exact parse_append_of_isBlank hends hn (isBlank_of_allBlank hw hn)
  · have hn' : '\n' ∉ lastLine t ++ [c] := by
      rw [List.mem_append, not_or]
      exact ⟨hnl, hn⟩
    have hlines : (lines (t ++ [c])).map ofText = (lines t).map ofText := by
      rw [← ht, List.append_assoc, lines_append hends, lines_append hends,
        lines_of_not_mem hn' (by simp), lines_of_not_mem hnl hlast, List.map_append,
        List.map_append, List.map_singleton, List.map_singleton, ofText_append hw hn]
    rw [parse, parse, ofLines_congr hlines]

/-- **Blanks at the end of a text change nothing**, line feeds among them. -/
theorem parse_append_of_allBlank {w : Text} (hw : AllBlank w) (t : Text) :
    parse (t ++ w) = parse t := by
  induction w generalizing t with
  | nil => rw [List.append_nil]
  | cons c w ih =>
    obtain ⟨hc, hw⟩ := List.forall_mem_cons.1 hw
    rw [List.append_cons, ih hw, parse_append_singleton hc]

theorem parse_trimEnd (t : Text) : parse (trimEnd t) = parse t := by
  obtain ⟨w, hw, ht⟩ := exists_eq_trimEnd_append t
  conv_rhs => rw [ht]
  exact (parse_append_of_allBlank hw _).symm

/-- The entries of a text and of what follows a line feed after it. -/
theorem parse_append_cons (t u : Text) :
    parse (t ++ '\n' :: u) = ofLines (lines (t ++ ['\n']) ++ lines u) := by
  rw [parse, lines_append_newline]

/-- **A blank line keeps two texts apart.** -/
theorem parse_append_blank (t u : Text) (hn : '\n' ∉ l) (hl : IsBlank l) :
    parse (t ++ '\n' :: (l ++ '\n' :: u)) = parse t ++ parse u := by
  have hlines : (lines (t ++ ['\n']) ++ lines (l ++ '\n' :: u)).map ofText =
      (lines (t ++ ['\n']) ++ l :: lines u).map ofText := by
    rw [lines_append_newline l u, List.map_append, List.map_append, map_ofText_lines_line hn,
      List.map_append, List.map_cons, List.singleton_append]
  rw [parse_append_cons, ofLines_congr hlines, ofLines_append_cons _ _ hl]
  exact congrArg (· ++ parse u) (parse_append_newline t)

/-- **The line that closes a comment adds nothing.** -/
theorem parse_append_close (t : Text) : parse (t ++ "\n */".toList) = parse t := by
  have hclose : IsBlank " */".toList := by decide
  have hlines : lines " */".toList = [" */".toList] := by decide
  change parse (t ++ '\n' :: " */".toList) = parse t
  rw [parse_append_cons, hlines, ofLines_append_cons _ _ hclose]
  exact (List.append_nil _).trans (parse_append_newline t)

/-! ## The law -/

/-- **Putting lines and texts together.** Lines that go on with nothing add their own entries, and
lines that go on with the last entry give it the value of their first one. So a blank line between
two texts keeps their entries apart, and the line that closes a comment adds nothing. -/
theorem parse_append :
    (∀ xs ys, Apart xs ys → ofLines (xs ++ ys) = ofLines xs ++ ofLines ys) ∧
      (∀ xs ys, ¬ Apart xs ys →
        ∃ es e value es', ofLines xs = es ++ [e] ∧ ofLines ys = ⟨none, some value⟩ :: es' ∧
          ofLines (xs ++ ys) = es ++ e.continued value :: es') ∧
      (∀ t l u : Text, '\n' ∉ l → IsBlank l →
        parse (t ++ '\n' :: (l ++ '\n' :: u)) = parse t ++ parse u) ∧
      ∀ t : Text, parse (t ++ "\n */".toList) = parse t :=
  ⟨fun _ _ => ofLines_append_of_apart, fun _ _ => exists_ofLines_append_of_not_apart,
    fun t _ u => parse_append_blank t u, parse_append_close⟩

/-- Prose after a tag that stands alone, and a blank line between two texts that ends, like the
first of them, in a carriage return. -/
theorem parse_append_lone_tag :
    let xs := [" * @foo".toList]
    let ys := [" * text".toList, " *".toList, " * more".toList]
    let l := " *\r".toList
    ¬ Apart xs ys ∧
      (∃ es e value es', ofLines xs = es ++ [e] ∧ ofLines ys = ⟨none, some value⟩ :: es' ∧
        ofLines (xs ++ ys) = es ++ e.continued value :: es') ∧
      '\n' ∉ l ∧ IsBlank l ∧
      parse (" * a\r".toList ++ '\n' :: (l ++ '\n' :: " * b".toList)) =
        [⟨none, some ['a']⟩, ⟨none, some ['b']⟩] := by
  intro xs ys l
  obtain ⟨-, hgo, hapart, -⟩ := parse_append
  have hnot : ¬ Apart xs ys := by decide +kernel
  have hn : '\n' ∉ l := by decide
  have hl : IsBlank l := by decide
  have hparse : parse " * a\r".toList ++ parse " * b".toList =
    [⟨none, some ['a']⟩, ⟨none, some ['b']⟩] := by decide +kernel
  exact ⟨hnot, hgo xs ys hnot, hn, hl, (hapart _ l _ hn hl).trans hparse⟩

end Entry

end DocComments
