import DocComments.Proofs.Entry.WellFormed
import Mathlib.Data.List.Forall2

/-!
# The collector and the groups of lines

The collector reads a comment line by line; `Line.groups` looks at all lines at once. Both give the
same entries: a draft is the start of a group, and the lines still to come make it whole.

* `Line.groupsFrom` are the groups of the lines after a draft, and `finish_foldl_step` says that the
  collector ends with them, from any state.
* `forall₂_isEntry_groups_parse` is the case of a whole comment.
* `flatMap_pieces_groups`: the groups hold the pieces of the lines, each once and in order.
-/

namespace DocComments

open Text Entry

namespace Line

variable {ls : List Line}

/-! ## Leading prose -/

@[simp]
theorem leadingProse_nil : leadingProse [] = [] := rfl

@[simp]
theorem leadingProse_blank : leadingProse (blank :: ls) = [] := rfl

@[simp]
theorem leadingProse_tag (key value : Text) : leadingProse (tag key value :: ls) = [] := rfl

@[simp]
theorem leadingProse_prose (content : Text) :
    leadingProse (prose content :: ls) = content :: leadingProse ls := rfl

@[simp]
theorem afterProse_nil : afterProse [] = [] := rfl

@[simp]
theorem afterProse_blank : afterProse (blank :: ls) = blank :: ls := rfl

@[simp]
theorem afterProse_tag (key value : Text) :
    afterProse (tag key value :: ls) = tag key value :: ls := rfl

@[simp]
theorem afterProse_prose (content : Text) : afterProse (prose content :: ls) = afterProse ls := rfl

/-- Lines that start with something else have no leading prose. -/
theorem leadingProse_of_not_prose (h : ∀ content, ls.head? ≠ some (.prose content)) :
    leadingProse ls = [] ∧ afterProse ls = ls := by
  cases ls with
  | nil => exact ⟨rfl, rfl⟩
  | cons l ls =>
    cases l with
    | blank => exact ⟨rfl, rfl⟩
    | tag key value => exact ⟨rfl, rfl⟩
    | prose content => exact absurd rfl (h content)

/-- The pieces of the lines are those of the leading prose and those of the lines after it. -/
theorem flatMap_pieces_eq (ls : List Line) :
    ls.flatMap pieces = leadingProse ls ++ (afterProse ls).flatMap pieces := by
  induction ls with
  | nil => rfl
  | cons l ls ih =>
    cases l with
    | blank => rfl
    | tag key value => simp
    | prose content => simp [pieces, ih]

/-! ## Groups -/

@[simp]
theorem groups_nil : groups [] = [] := by
  rw [groups]

@[simp]
theorem groups_blank : groups (blank :: ls) = groups ls := by
  rw [groups]

@[simp]
theorem groups_tag (key value : Text) : groups (tag key value :: ls) =
    ⟨some key, (if value = [] then [] else [value]) ++ leadingProse ls⟩ ::
      groups (afterProse ls) := by
  rw [groups]

@[simp]
theorem groups_prose (content : Text) : groups (prose content :: ls) =
    ⟨none, content :: leadingProse ls⟩ :: groups (afterProse ls) := by
  rw [groups]

/-- **The groups hold the pieces of the lines.** -/
theorem flatMap_pieces_groups (ls : List Line) :
    (groups ls).flatMap Group.pieces = ls.flatMap pieces := by
  fun_induction groups ls with
  | case1 => rfl
  | case2 ls ih => simpa [pieces] using ih
  | case3 key value ls _ ih =>
    rw [List.flatMap_cons, List.flatMap_cons, ih, flatMap_pieces_eq ls, List.append_assoc]
    rfl
  | case4 content ls _ ih =>
    rw [List.flatMap_cons, List.flatMap_cons, ih, flatMap_pieces_eq ls]
    rfl

/-- The groups of the lines that come after a draft: the prose that they start with goes on with
the draft. -/
def groupsFrom (draft : Option Group) (ls : List Line) : List Group :=
  match draft with
  | none => groups ls
  | some g => ⟨g.key, g.pieces ++ leadingProse ls⟩ :: groups (afterProse ls)

end Line

/-! ## The collector -/

namespace Collector

open Line

variable {c : Collector}

@[simp]
theorem draft_close (c : Collector) : c.close.draft = none := by
  unfold close
  split <;> simp_all

/-- Completing the draft adds its entry, untrimmed. -/
theorem toList_entries_close (hc : c.WellFormed) :
    c.close.entries.toList =
      c.entries.toList ++ (groupsFrom (c.draft.map Draft.toGroup) []).map Group.entry := by
  cases hd : c.draft with
  | none => simp [close, hd, groupsFrom]
  | some d => simp [close, hd, groupsFrom, Draft.toEntry_eq_entry (hc.draft d hd)]

/-- **The collector goes on with the groups of the lines to come.** -/
theorem finish_foldl_step {ls : List Line} (hc : c.WellFormed) (hls : ∀ l ∈ ls, l.WellFormed) :
    (ls.foldl step c).finish =
      c.entries.toList ++ (groupsFrom (c.draft.map Draft.toGroup) ls).map Group.entry := by
  induction ls generalizing c with
  | nil => exact toList_entries_close hc
  | cons l ls ih =>
    obtain ⟨hl, hls⟩ := List.forall_mem_cons.1 hls
    rw [List.foldl_cons, ih (hc.step hl) hls]
    cases l with
    | blank =>
      rw [step, toList_entries_close hc, draft_close]
      cases c.draft <;> simp [groupsFrom]
    | tag key value =>
      rw [step, toList_entries_close hc]
      cases c.draft <;> simp [groupsFrom]
    | prose content =>
      rw [step]
      cases c.draft <;> simp [groupsFrom]

theorem finish_foldl_feed (hc : c.WellFormed) (ls : List Text) :
    (ls.foldl feed c).finish =
      c.entries.toList ++
        (groupsFrom (c.draft.map Draft.toGroup) (ls.map ofText)).map Group.entry := by
  have hfold : ls.foldl feed c = (ls.map ofText).foldl step c := by
    rw [List.foldl_map]
    rfl
  rw [hfold, finish_foldl_step hc (List.forall_mem_map.2 fun l _ => wellFormed_ofText l)]

end Collector

namespace Entry

open Line

theorem ofLines_eq_map_groups (ls : List Text) :
    ofLines ls = (groups (ls.map ofText)).map Group.entry :=
  Collector.finish_foldl_feed Collector.wellFormed_empty ls

/-- The lines of the values are the pieces of the lines. -/
theorem flatMap_valueLines_ofLines (ls : List Text) :
    (ofLines ls).flatMap valueLines = ls.flatMap fun l => (ofText l).pieces := by
  have hpieces := flatMap_pieces_groups (ls.map ofText)
  rw [List.flatMap_map] at hpieces
  rw [ofLines_eq_map_groups, List.flatMap_map, ← hpieces]
  refine List.flatMap_congr fun g hg => Group.valueLines_entry_of_newline_not_mem ?_
  intro piece hp
  have hmem := List.mem_flatMap_of_mem hg hp
  rw [hpieces] at hmem
  obtain ⟨l, -, hl⟩ := List.mem_flatMap.1 hmem
  exact newline_not_mem_pieces (wellFormed_ofText l) piece hl

/-- What occurs in a value occurs in a piece of a line, and the other way round. -/
theorem exists_infix_value_iff {pat : Text} (hpat : pat ≠ []) (hn : '\n' ∉ pat) (raw : Text) :
    (∃ e ∈ parse raw, ∃ value ∈ e.value, pat <:+: value) ↔
      ∃ line ∈ lines raw, ∃ piece ∈ (ofText line).pieces, pat <:+: piece := by
  have hentry : ∀ g : Group,
      (∃ value ∈ g.entry.value, pat <:+: value) ↔ ∃ piece ∈ g.pieces, pat <:+: piece := by
    intro g
    by_cases hnil : g.pieces = []
    · simp [Group.entry, hnil]
    · simp [Group.entry, hnil, infix_joinLines_iff hpat hn]
  have hpieces := flatMap_pieces_groups ((lines raw).map ofText)
  rw [List.flatMap_map] at hpieces
  calc (∃ e ∈ parse raw, ∃ value ∈ e.value, pat <:+: value)
      ↔ ∃ g ∈ groups ((lines raw).map ofText), ∃ piece ∈ g.pieces, pat <:+: piece := by
        simp only [parse, ofLines_eq_map_groups, List.mem_map, exists_exists_and_eq_and, hentry]
    _ ↔ ∃ piece ∈ (groups ((lines raw).map ofText)).flatMap Group.pieces, pat <:+: piece := by
        simp only [List.mem_flatMap]
        grind
    _ ↔ ∃ line ∈ lines raw, ∃ piece ∈ (ofText line).pieces, pat <:+: piece := by
        simp only [hpieces, List.mem_flatMap]
        grind

/-- **The entries of a comment are its groups of lines, in order**: each group makes one entry, the
last one too, and no draft on the way is changed by trimming. -/
theorem forall₂_isEntry_groups_parse (raw : Text) :
    List.Forall₂ Group.IsEntry (groups ((lines raw).map ofText)) (parse raw) ∧
      ∀ ls : List Text, ∀ d ∈ (ls.foldl Collector.feed .empty).draft,
        d.toGroup.IsEntry d.toEntry := by
  constructor
  · rw [parse, ofLines_eq_map_groups, List.forall₂_map_right_iff, List.forall₂_same]
    intro g _
    exact Group.isEntry_iff.2 rfl
  · intro ls d hd
    have hgroup := (Collector.wellFormed_foldl_feed ls).draft d hd
    exact Group.isEntry_iff.2 (Draft.toEntry_eq_entry hgroup)

end Entry

end DocComments
