import DocComments.Document.Markdown
import DocComments.Proofs.Entry.Header
import DocComments.Proofs.Text.Lines

/-!
# What Markdown shows

The section of a comment is put together from the header, the prose after the first tag and the
tags. The header and the later prose are two readings of the same entries, and between them they
show every text, each once and in the order of the comment, however tags and prose are mixed.

* `Entries.opening_append_laterProse`: the two readings make up the texts.
* `Comment.markdown_append_newline` is the section of one comment, `Document.markdown_eq` that of
  every comment of a document.
-/

namespace DocComments

open Text

namespace Entries

variable (es : Entries)

/-! ## Prose -/

/-- **The prose before the first tag and that after it make up the texts.** -/
theorem opening_append_laterProse : es.opening ++ es.laterProse = es.texts := by
  have hleading : (es.takeWhile Entry.isProse).filter Entry.isProse = es.takeWhile Entry.isProse :=
    List.filter_eq_self.2 fun _ he => List.mem_takeWhile_imp he
  rw [opening, ← hleading, laterProse, ← List.filterMap_append, ← List.filter_append,
    List.takeWhile_append_dropWhile, texts, find_none]

/-- The header has its breaks already, but for the one after it. -/
theorem flatMap_header :
    es.header.toList.flatMap (· ++ paragraphBreak) = es.opening.flatMap (· ++ paragraphBreak) := by
  rw [header_eq]
  split
  · next hnil => rw [hnil, Option.toList_none]
  · next hne => rw [Option.toList_some, List.flatMap_singleton, joinParagraphs_append_break hne]

/-- Header and later prose show the texts. -/
theorem flatMap_header_append_laterProse :
    (es.header.toList ++ es.laterProse).flatMap (· ++ paragraphBreak) =
      es.texts.flatMap (· ++ paragraphBreak) := by
  rw [List.flatMap_append, flatMap_header, ← List.flatMap_append, opening_append_laterProse]

/-! ## Tags -/

/-- The tags as a list, on lines of their own. -/
theorem flatMap_tagList :
    es.tagList.flatMap (· ++ ['\n']) =
      if es.tags = [] then []
      else "#### Annotations\n\n".toList ++ es.tags.flatMap (fun e => e.markdown ++ ['\n']) ++
        ['\n'] := by
  rw [tagList]
  simp only [List.isEmpty_iff]
  split
  · rfl
  · rw [List.flatMap_append, List.flatMap_cons, List.flatMap_map]
    rfl

end Entries

/-! ## Sections -/

/-- A paragraph and an empty line, each with its line feed, are a paragraph and a break. -/
theorem flatMap_paragraph_lines (ps : List Text) :
    (ps.flatMap fun p => [p, []]).flatMap (· ++ ['\n']) = ps.flatMap (· ++ paragraphBreak) := by
  rw [List.flatMap_assoc]
  exact List.flatMap_congr fun p _ => by simp [paragraphBreak]

/-- **The section of a comment**: its heading, its texts and its tags. -/
theorem Comment.markdown_append_newline (c : Comment) :
    c.markdown ++ ['\n'] =
      c.heading ++ paragraphBreak ++ c.entries.texts.flatMap (· ++ paragraphBreak) ++
        c.entries.tagList.flatMap (· ++ ['\n']) := by
  rw [Comment.markdown, joinLines_append_newline (by simp), List.flatMap_append, List.flatMap_cons,
    flatMap_paragraph_lines, Entries.flatMap_header_append_laterProse]
  simp [paragraphBreak]

/-- **Markdown loses and repeats nothing.** The section of a comment shows its heading, then every
text and every tag once, in their order, and no prose of the comment is missing from its texts. -/
theorem Document.markdown_eq (d : Document) :
    d.markdown = "# ".toList ++ d.source ++ "\n\n".toList ++ d.comments.flatMap (fun c =>
      "## ".toList ++
        (match c.target with
          | some target => codeSpan target
          | none => "Line ".toList ++ Text.ofNat c.line) ++
        "\n\n".toList ++
        c.entries.texts.flatMap (· ++ "\n\n".toList) ++
        if c.entries.tags = [] then []
        else "#### Annotations\n\n".toList ++
          c.entries.tags.flatMap (fun e => e.markdown ++ ['\n']) ++ ['\n']) ∧
    ∀ c ∈ d.comments,
      c.entries.texts.map some = (c.entries.filter Entry.isProse).map Entry.value := by
  constructor
  · rw [Document.markdown]
    simp only [Comment.markdown_append_newline, Entries.flatMap_tagList]
    rfl
  · intro c _
    have hprose : c.entries.ProseHasValue := Entries.proseHasValue_parse c.text
    rw [hprose.map_some_texts, Entries.findValues, Entries.find_none]

/-- Prose between two tags is shown with the header, before both. -/
example :
    (Document.markdown ⟨['s'], [⟨3, " * a\n *\n * b\n * @c\n *\n * d\n * @e f".toList, none⟩]⟩) =
      ("# s\n\n## Line 3\n\na\n\nb\n\nd\n\n#### Annotations\n\n" ++
        "* **@c**\n* **@e** f\n\n").toList := by decide +kernel

end DocComments
