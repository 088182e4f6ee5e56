import DocComments.Document.Plain
import DocComments.Proofs.Entry.RoundTrip
import Mathlib.Algebra.GroupWithZero.Nat

/-!
# The lines of a document in plain text

In plain text a comment is a group of lines with an empty line after it. An empty line inside the
group would make two of it, but there is none: an entry is written on the lines that it has in a
comment, and no such line is empty.

* `Entry.WellFormed.joinLines_contents`: these lines make up the entry in plain text.
* `Comment.plainLines` is the group of a comment, `Comment.plain_eq` writes it.
* `Document.plain_groups` cuts a whole document into its groups.
-/

namespace DocComments

open Text

/-! ## Entries -/

namespace Entry.WellFormed

variable {e : Entry} {line : Text}

theorem contents_ne_nil (h : e.WellFormed) : e.contents ≠ [] := by
  unfold contents
  split
  · next hkey => exact h.valueLines_ne_nil hkey
  · exact List.cons_ne_nil _ _
  · exact List.cons_ne_nil _ _

theorem newline_not_mem_of_mem_contents (h : e.WellFormed) (hline : line ∈ e.contents) :
    '\n' ∉ line :=
  (h.contents_spec.1 line hline).2.1

theorem ne_nil_of_mem_contents (h : e.WellFormed) (hline : line ∈ e.contents) : line ≠ [] :=
  (h.contents_spec.1 line hline).1.1

/-- There is a line for each line of the value, and one for a tag that has no value. -/
theorem length_contents (h : e.WellFormed) :
    e.contents.length = if e.value = none then 1 else e.valueLines.length := by
  obtain ⟨key, value⟩ := e
  cases value with
  | none =>
    cases key with
    | none => cases h.isSome_value rfl
    | some key => rfl
  | some value =>
    rw [if_neg (Option.some_ne_none value)]
    cases key with
    | none => rfl
    | some key =>
      obtain ⟨line, lines, hlines⟩ := List.exists_cons_of_ne_nil (List.splitOn_ne_nil '\n' value)
      simp only [contents, valueLines, hlines, List.length_cons]

/-- **The lines of an entry make up the entry in plain text.** -/
theorem joinLines_contents (h : e.WellFormed) : joinLines e.contents = e.plain := by
  obtain ⟨key, value⟩ := e
  cases value with
  | none =>
    cases key with
    | none => cases h.isSome_value rfl
    | some key => exact joinLines_singleton _
  | some value =>
    have hjoin : joinLines (value.splitOn '\n') = value := joinLines_splitOn value
    cases key with
    | none => exact hjoin
    | some key =>
      obtain ⟨line, lines, hlines⟩ := List.exists_cons_of_ne_nil (List.splitOn_ne_nil '\n' value)
      rw [hlines] at hjoin
      simp only [contents, valueLines, hlines, plain]
      rw [List.append_cons, joinLines_append_cons, hjoin, ← List.append_cons]

theorem plain_append_newline (h : e.WellFormed) :
    e.plain ++ ['\n'] = e.contents.flatMap (· ++ ['\n']) := by
  rw [← h.joinLines_contents, joinLines_append_newline h.contents_ne_nil]

end Entry.WellFormed

/-! ## Comments -/

theorem newline_not_mem_ofNat (n : ℕ) : '\n' ∉ ofNat n := by
  intro hn
  cases Nat.isDigit_of_mem_toDigits (by decide) (by decide) hn

namespace Comment

variable {source line : Text} {c : Comment}

/-- The lines of a comment in plain text, without the empty one after them. -/
def plainLines (source : Text) (c : Comment) : List Text :=
  (source ++ ':' :: ofNat c.line) :: c.entries.flatMap Entry.contents

/-- **A comment in plain text** is the group of its lines and an empty line. -/
theorem plain_eq (source : Text) (c : Comment) :
    c.plain source = (c.plainLines source ++ [[]]).flatMap (· ++ ['\n']) := by
  have hentries : (c.entries.flatMap fun e => e.plain ++ ['\n']) =
      (c.entries.flatMap Entry.contents).flatMap (· ++ ['\n']) := by
    rw [List.flatMap_assoc]
    exact List.flatMap_congr fun e he => (Entry.wellFormed_of_mem_parse he).plain_append_newline
  rw [plain, hentries, plainLines, List.flatMap_append, List.flatMap_cons, List.flatMap_singleton,
    List.nil_append]

theorem newline_not_mem_of_mem_plainLines (hsource : '\n' ∉ source)
    (hline : line ∈ c.plainLines source) : '\n' ∉ line := by
  rcases List.mem_cons.1 hline with rfl | hline
  · simp [hsource, newline_not_mem_ofNat]
  · obtain ⟨e, he, hline⟩ := List.mem_flatMap.1 hline
    exact (Entry.wellFormed_of_mem_parse he).newline_not_mem_of_mem_contents hline

theorem ne_nil_of_mem_plainLines (hline : line ∈ c.plainLines source) : line ≠ [] := by
  rcases List.mem_cons.1 hline with rfl | hline
  · simp
  · obtain ⟨e, he, hline⟩ := List.mem_flatMap.1 hline
    exact (Entry.wellFormed_of_mem_parse he).ne_nil_of_mem_contents hline

theorem length_plainLines (source : Text) (c : Comment) :
    (c.plainLines source).length =
      1 + (c.entries.map fun e => if e.value = none then 1 else e.valueLines.length).sum := by
  have hlengths : (c.entries.map fun e => e.contents.length) =
      c.entries.map fun e => if e.value = none then 1 else e.valueLines.length :=
    List.map_congr_left fun e he => (Entry.wellFormed_of_mem_parse he).length_contents
  rw [plainLines, List.length_cons, List.length_flatMap, hlengths, Nat.add_comm]

end Comment

/-! ## Documents -/

/-- **In plain text the comments of a document are the groups of lines between its empty lines.**
The first line of a group names source and line of the comment, and each entry follows on the lines
of its value, the first of them beside its key. No line of a group is empty, so an empty line ends a
group and nothing else. -/
theorem Document.plain_groups (d : Document) (hsource : '\n' ∉ d.source) :
    ∃ groups : List (List Text),
      d.plain.splitOn '\n' = groups.flatMap (· ++ [[]]) ++ [[]] ∧
      List.Forall₂
        (fun c group =>
          group = (d.source ++ ':' :: ofNat c.line) :: c.entries.flatMap Entry.contents ∧
          (∀ line ∈ group, line ≠ []) ∧
          group.length =
            1 + (c.entries.map fun e => if e.value = none then 1 else e.valueLines.length).sum)
        d.comments groups := by
  refine ⟨d.comments.map (Comment.plainLines d.source), ?_, ?_⟩
  · have hplain : d.plain =
        ((d.comments.map (Comment.plainLines d.source)).flatMap (· ++ [[]])).flatMap
          (· ++ ['\n']) := by
      rw [Document.plain, List.flatMap_map, List.flatMap_assoc]
      exact List.flatMap_congr fun c _ => c.plain_eq d.source
    rw [hplain]
    refine splitOn_flatMap_newline fun line hline => ?_
    rw [List.flatMap_map] at hline
    obtain ⟨c, -, hline⟩ := List.mem_flatMap.1 hline
    rcases List.mem_append.1 hline with hline | hline
    · exact Comment.newline_not_mem_of_mem_plainLines hsource hline
    · rw [List.mem_singleton.1 hline]
      exact List.not_mem_nil
  · rw [List.forall₂_map_right_iff, List.forall₂_same]
    exact fun c _ => ⟨rfl, fun _ => Comment.ne_nil_of_mem_plainLines, c.length_plainLines d.source⟩

/-- Prose on two lines, a tag without a value, a value that looks like a tag, and a comment without
entries. -/
theorem Document.plain_groups_lone_tag :
    let d : Document := ⟨"a:1".toList,
      [⟨3, " * b\n * c\n * @d\n * @e @f\n *\n".toList, none⟩, ⟨9, [], none⟩]⟩
    '\n' ∉ d.source ∧
      d.plain.splitOn '\n' =
        ["a:1:3", "b", "c", "@d", "@e @f", "", "a:1:9", "", ""].map String.toList := by
  intro d
  have hsource : '\n' ∉ d.source := by decide
  obtain ⟨groups, hsplit, hgroups⟩ := plain_groups d hsource
  have hlines : groups =
      [["a:1:3", "b", "c", "@d", "@e @f"].map String.toList, ["a:1:9".toList]] := by
    cases hgroups with
    | cons hfirst hrest =>
      cases hrest with
      | cons hsecond hnil =>
        cases hnil
        rw [hfirst.1, hsecond.1]
        decide +kernel
  refine ⟨hsource, ?_⟩
  rw [hsplit, hlines]
  rfl

end DocComments
