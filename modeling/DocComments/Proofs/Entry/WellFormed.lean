import DocComments.Entry.Collector
import DocComments.Entry.Grouping
import DocComments.Proofs.Line
import DocComments.Proofs.Text.Lines

/-!
# What the collector keeps

The pieces of a draft are trimmed lines that are not empty, and only the piece beside a key can look
like a tag or like the end of the comment. So joining them gives a text that is trimmed already, and
that falls into the same pieces when it is cut at its line feeds.

* `Group.WellFormed` says this of a key and its pieces; then `Group.entry`, which puts them together
  without trimming, is well-formed (`Group.WellFormed.entry`).
* `toEntry_eq_entry`: completing a draft trims nothing.
* `Collector.WellFormed` is the invariant of the collector. `WellFormed.step` is the case of one
  line, `wellFormed_foldl_feed` that of any number.
-/

namespace DocComments

open Text Entry

/-! ## Joining trimmed lines -/

theorem joinLines_ne_nil {ls : List Text} (hls : ls ≠ []) (h : ∀ l ∈ ls, IsValueLine l) :
    joinLines ls ≠ [] := by
  obtain ⟨l, ls, rfl⟩ := List.exists_cons_of_ne_nil hls
  have hl := (h l (List.mem_cons_self ..)).1
  by_cases hls : ls = []
  · rwa [hls, joinLines_singleton]
  · rw [joinLines_cons hls]
    simp [hl]

/-- Trimmed lines are trimmed together. -/
theorem trim_joinLines {ls : List Text} (h : ∀ l ∈ ls, IsValueLine l) :
    trim (joinLines ls) = joinLines ls := by
  induction ls with
  | nil => rfl
  | cons l ls ih =>
    obtain ⟨hl, hls⟩ := List.forall_mem_cons.1 h
    by_cases hnil : ls = []
    · rw [hnil, joinLines_singleton]
      exact hl.2
    · have hl' := trim_eq_self_iff.1 hl.2
      have hls' := trim_eq_self_iff.1 (ih hls)
      rw [joinLines_cons hnil, trim_eq_self_iff]
      refine ⟨trimStart_append_of_ne_nil hl.1 hl'.1 _, ?_⟩
      rw [List.append_cons]
      exact trimEnd_append_of_ne_nil _ (joinLines_ne_nil hnil hls) hls'.2

theorem Entry.nonBlank?_eq_self {o : Option Text} (h : ∀ t ∈ o, t ≠ [] ∧ trim t = t) :
    nonBlank? o = o := by
  cases o with
  | none => rfl
  | some t =>
    obtain ⟨hne, htrim⟩ := h t rfl
    simp [nonBlank?, htrim, hne]

/-! ## Groups -/

namespace Group

/-- The key and the pieces as an entry, untrimmed. -/
def entry (g : Group) : Entry :=
  ⟨g.key, if g.pieces = [] then none else some (joinLines g.pieces)⟩

theorem isEntry_iff {g : Group} {e : Entry} : g.IsEntry e ↔ e = g.entry := by
  cases e
  simp [IsEntry, entry]

/-- Pieces on one line each are the lines of the value. -/
theorem valueLines_entry_of_newline_not_mem {g : Group} (h : ∀ piece ∈ g.pieces, '\n' ∉ piece) :
    g.entry.valueLines = g.pieces := by
  rw [valueLines, Group.entry]
  split
  · next value hvalue =>
    split at hvalue
    · cases hvalue
    · next hne =>
      cases hvalue
      exact splitOn_joinLines hne h
  · next hvalue =>
    split at hvalue
    · next hnil => exact hnil.symm
    · cases hvalue

/-- The pieces that stand on lines of their own. -/
def ownPieces (g : Group) : List Text :=
  if g.key.isSome then g.pieces.drop 1 else g.pieces

/-- The key and the pieces can come from the lines of a comment. -/
structure WellFormed (g : Group) : Prop where
  /-- A key is a word. -/
  isKey : ∀ key ∈ g.key, IsKey key
  /-- A piece is on one line. -/
  newline_not_mem : ∀ piece ∈ g.pieces, '\n' ∉ piece
  /-- A piece is trimmed and not empty. -/
  isValueLine : ∀ piece ∈ g.pieces, IsValueLine piece
  /-- Prose has a piece. -/
  pieces_ne_nil : g.key = none → g.pieces ≠ []
  /-- A piece on a line of its own is read as prose. -/
  isProseLine : ∀ piece ∈ g.ownPieces, IsProseLine piece

namespace WellFormed

variable {g : Group} {content : Text}

theorem valueLines_entry (h : g.WellFormed) : g.entry.valueLines = g.pieces :=
  valueLines_entry_of_newline_not_mem h.newline_not_mem

/-- **The entry of a well-formed group is well-formed.** -/
theorem entry (h : g.WellFormed) : g.entry.WellFormed where
  isKey := h.isKey
  isValueLine := by
    rw [h.valueLines_entry]
    exact h.isValueLine
  isSome_value hkey := by
    simp [Group.entry, h.pieces_ne_nil hkey]
  isProseLine := by
    rw [ownLines, h.valueLines_entry]
    exact h.isProseLine

/-- **Trimming changes neither the key nor the joined pieces.** -/
theorem ofTexts_entry (h : g.WellFormed) :
    Entry.ofTexts g.entry.key g.entry.value = g.entry := by
  have hkey : nonBlank? g.entry.key = g.entry.key :=
    nonBlank?_eq_self fun key hk => ⟨(h.isKey key hk).1, trim_of_isWord (h.isKey key hk).2⟩
  have hvalue : nonBlank? g.entry.value = g.entry.value := by
    refine nonBlank?_eq_self fun value hv => ?_
    by_cases hnil : g.pieces = []
    · simp [Group.entry, hnil] at hv
    · obtain rfl : joinLines g.pieces = value := by simpa [Group.entry, hnil] using hv
      exact ⟨joinLines_ne_nil hnil h.isValueLine, trim_joinLines h.isValueLine⟩
  rw [Entry.ofTexts, hkey, hvalue]

/-- The group that a tag opens. -/
theorem ofTag {key value : Text} (h : (Line.tag key value).WellFormed) :
    Group.WellFormed ⟨some key, if value = [] then [] else [value]⟩ where
  isKey := by
    rintro _ ⟨⟩
    exact h.1
  newline_not_mem := by
    split
    · simp
    · simpa using h.2.1
  isValueLine := by
    split
    · simp
    · next hne => simpa using h.2.2.resolve_left hne
  pieces_ne_nil := by simp
  isProseLine := by
    split <;> simp [ownPieces]

/-- The group that a line of prose opens. -/
theorem ofProse (h : (Line.prose content).WellFormed) : Group.WellFormed ⟨none, [content]⟩ where
  isKey := by simp
  newline_not_mem := by simpa using h.1
  isValueLine := by simpa using h.2.1
  pieces_ne_nil := by simp
  isProseLine := by simpa [ownPieces] using h.2.2

/-- The group that a line of prose goes on with. -/
theorem extend (h : g.WellFormed) (hl : (Line.prose content).WellFormed) :
    Group.WellFormed ⟨g.key, g.pieces ++ [content]⟩ where
  isKey := h.isKey
  newline_not_mem := by
    rw [List.forall_mem_append]
    exact ⟨h.newline_not_mem, by simpa using hl.1⟩
  isValueLine := by
    rw [List.forall_mem_append]
    exact ⟨h.isValueLine, by simpa using hl.2.1⟩
  pieces_ne_nil := by simp
  isProseLine := by
    have hown := h.isProseLine
    unfold ownPieces at hown ⊢
    dsimp only
    split at hown
    · next hkey =>
      -- the first piece may stand beside the key, so only what follows it is prose
      rw [if_pos hkey, List.drop_append, List.forall_mem_append]
      refine ⟨hown, fun piece hp => ?_⟩
      rw [List.mem_singleton.1 (List.mem_of_mem_drop hp)]
      exact hl.2.2
    · next hkey =>
      rw [if_neg hkey, List.forall_mem_append]
      exact ⟨hown, by simpa using hl.2.2⟩

end WellFormed

end Group

/-! ## Drafts -/

/-- The key and the pieces of a draft. -/
def Draft.toGroup (d : Draft) : Group :=
  ⟨d.key, d.pieces.toList⟩

theorem Draft.toEntry_eq (d : Draft) :
    d.toEntry = .ofTexts d.toGroup.entry.key d.toGroup.entry.value := by
  simp [toEntry, toGroup, Group.entry]

/-- **Completing a draft trims nothing.** -/
theorem Draft.toEntry_eq_entry {d : Draft} (h : d.toGroup.WellFormed) :
    d.toEntry = d.toGroup.entry := by
  rw [toEntry_eq, h.ofTexts_entry]

@[simp]
theorem Draft.toGroup_ofTag (key value : Text) :
    (Draft.ofTag key value).toGroup = ⟨some key, if value = [] then [] else [value]⟩ := by
  rw [ofTag, toGroup]
  cases value <;> rfl

@[simp]
theorem Draft.toGroup_extend_none (content : Text) :
    (Draft.extend none content).toGroup = ⟨none, [content]⟩ :=
  rfl

@[simp]
theorem Draft.toGroup_extend_some (d : Draft) (content : Text) :
    (Draft.extend (some d) content).toGroup = ⟨d.toGroup.key, d.toGroup.pieces ++ [content]⟩ := by
  simp [extend, toGroup]

/-! ## The collector -/

namespace Collector

/-- The complete entries and the draft can come from the lines of a comment. -/
structure WellFormed (c : Collector) : Prop where
  /-- The complete entries can be entries of a comment. -/
  entries : ∀ e ∈ c.entries, e.WellFormed
  /-- The draft has a key and pieces as lines give them. -/
  draft : ∀ d ∈ c.draft, d.toGroup.WellFormed

variable {c : Collector} {l : Line}

theorem wellFormed_empty : empty.WellFormed where
  entries := by simp [empty]
  draft := by simp [empty]

theorem WellFormed.close (h : c.WellFormed) : c.close.WellFormed := by
  unfold Collector.close
  split
  · exact h
  · next d hd =>
    refine ⟨?_, by simp⟩
    have hgroup := h.draft d hd
    intro e he
    rcases Array.mem_push.1 he with he | rfl
    · exact h.entries e he
    · rw [Draft.toEntry_eq_entry hgroup]
      exact hgroup.entry

/-- **One line keeps the collector well-formed.** -/
theorem WellFormed.step (h : c.WellFormed) (hl : l.WellFormed) : (c.step l).WellFormed := by
  cases l with
  | blank => exact h.close
  | tag key value =>
    refine ⟨h.close.entries, ?_⟩
    rintro _ ⟨⟩
    rw [Draft.toGroup_ofTag]
    exact Group.WellFormed.ofTag hl
  | prose content =>
    refine ⟨h.entries, ?_⟩
    rintro _ ⟨⟩
    cases hd : c.draft with
    | none => exact Group.WellFormed.ofProse hl
    | some d =>
      rw [Draft.toGroup_extend_some]
      exact (h.draft d hd).extend hl

theorem WellFormed.foldl_feed (h : c.WellFormed) (ls : List Text) :
    (ls.foldl feed c).WellFormed := by
  induction ls generalizing c with
  | nil => exact h
  | cons l ls ih => exact ih (h.step (Line.wellFormed_ofText l))

/-- **Whatever lines the collector takes, it stays well-formed.** -/
theorem wellFormed_foldl_feed (ls : List Text) : (ls.foldl feed empty).WellFormed :=
  wellFormed_empty.foldl_feed ls

theorem WellFormed.finish (h : c.WellFormed) : ∀ e ∈ c.finish, e.WellFormed := by
  intro e he
  exact h.close.entries e (Array.mem_toList_iff.1 he)

end Collector

/-- **The entries of a comment are well-formed.** -/
theorem Entry.wellFormed_of_mem_parse {raw : Text} {e : Entry} (h : e ∈ Entry.parse raw) :
    e.WellFormed :=
  (Collector.wellFormed_foldl_feed (Text.lines raw)).finish e h

end DocComments
