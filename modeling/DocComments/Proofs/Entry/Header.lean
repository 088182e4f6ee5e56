import DocComments.Proofs.Entry.Query
import DocComments.Proofs.Entry.Values
import DocComments.Proofs.Text.Paragraphs

/-!
# Title and header

The prose that a comment starts with is its header, one paragraph for each entry before the first
tag, and the first paragraph is the title. No paragraph has an empty line of its own, so the header
still shows where one ends and the next begins.

* `Entries.opening` are the texts of these paragraphs; `header_eq` and `ProseHasValue.title_eq` tell
  header and title from them.
* `Entry.title_header_parse` says what header and title of a comment are, and that the header falls
  into its paragraphs again.
-/

namespace DocComments

open Text

namespace Entries

variable {es : Entries}

/-- The texts of the prose that the entries start with. -/
def opening (es : Entries) : List Text :=
  (es.takeWhile Entry.isProse).filterMap Entry.value

theorem header_eq (es : Entries) :
    es.header = if es.opening = [] then none else some (joinParagraphs es.opening) := by
  rw [header, opening]
  simp only [List.isEmpty_iff]

theorem header_eq_some_iff {header : Text} :
    es.header = some header ↔ es.opening ≠ [] ∧ joinParagraphs es.opening = header := by
  rw [header_eq]
  split <;> simp_all

theorem isSome_header_iff : es.header.isSome ↔ es.opening ≠ [] := by
  rw [header_eq]
  split <;> simp_all

namespace ProseHasValue

/-- Each entry before the first tag has its text in the opening. -/
theorem map_some_opening (h : es.ProseHasValue) :
    es.opening.map some = (es.takeWhile Entry.isProse).map Entry.value := by
  refine map_some_filterMap_value fun e he => ?_
  exact h e ((List.takeWhile_prefix _).subset he) (List.mem_takeWhile_imp he)

theorem length_opening (h : es.ProseHasValue) :
    es.opening.length = (es.takeWhile Entry.isProse).length := by
  rw [← List.length_map some, h.map_some_opening, List.length_map]

theorem opening_ne_nil_iff (h : es.ProseHasValue) :
    es.opening ≠ [] ↔ ∃ e, es.head? = some e ∧ e.key = none := by
  rw [← List.length_pos_iff, h.length_opening]
  cases es with
  | nil => simp
  | cons e es => cases hprose : e.isProse <;> simp [hprose, ← Entry.isProse_iff]

/-- **The title is the first paragraph of the opening.** -/
theorem title_eq (h : es.ProseHasValue) : es.title = es.opening.head? := by
  cases es with
  | nil => rfl
  | cons e es =>
    cases hprose : e.isProse with
    | false => simp [title, opening, hprose]
    | true =>
      obtain ⟨value, hvalue⟩ := Option.isSome_iff_exists.1 (h e (List.mem_cons_self ..) hprose)
      simp [title, opening, hprose, hvalue, Option.filter_some]

end ProseHasValue

/-- The header starts with its first paragraph. -/
theorem eq_or_prefix_joinParagraphs {title : Text} {ps : List Text} (h : ps.head? = some title) :
    joinParagraphs ps = title ∨ title ++ paragraphBreak <+: joinParagraphs ps := by
  obtain ⟨ps, rfl⟩ := List.head?_eq_some_iff.1 h
  by_cases hnil : ps = []
  · exact .inl (by rw [hnil, joinParagraphs_singleton])
  · right
    rw [joinParagraphs_cons hnil]
    exact List.prefix_append ..

end Entries

/-- A value has no empty line, and none comes about where a paragraph ends with it. -/
theorem Entry.IsValue.not_infix_append_newline {value : Text} (h : IsValue value) :
    ¬ paragraphBreak <:+: value ++ ['\n'] := by
  rw [List.infix_concat_iff, not_or]
  refine ⟨fun hsuffix => ?_, h.newlines_not_infix⟩
  have hlast : value.getLast? ≠ some '\n' :=
    getLast?_ne_of_trimEnd_eq (trim_eq_self_iff.1 h.trim_eq).2 (by decide)
  obtain ⟨t, ht, hend⟩ := (List.suffix_concat_iff.1 hsuffix).resolve_left paragraphBreak_ne_nil
  obtain rfl : ['\n'] = t := (List.append_left_inj ['\n']).1 ht
  obtain ⟨u, rfl⟩ := hend
  simp at hlast

theorem Entries.isValue_of_mem_opening {raw value : Text}
    (h : value ∈ Entries.opening (Entry.parse raw)) : Entry.IsValue value := by
  obtain ⟨e, he, hvalue⟩ := List.mem_filterMap.1 h
  exact (Entry.wellFormed_of_mem_parse ((List.takeWhile_prefix _).subset he)).isValue hvalue

/-- **Title and header of a comment.** There is a text for each entry before the first tag. The
first of them is the title, and the header, which is there when the title is, starts with it and
falls into these texts where it is cut at its empty lines. -/
theorem Entry.title_header_parse (raw : Text) :
    let es : Entries := parse raw
    let leading := es.takeWhile isProse
    ∃ texts : List Text, leading.map value = texts.map some ∧ texts.length = leading.length ∧
      (es.title.isSome ↔ es.header.isSome) ∧
      (es.title.isSome ↔ ∃ e, es.head? = some e ∧ e.key = none) ∧
      ∀ title ∈ es.title, ∀ header ∈ es.header,
        texts.head? = some title ∧ (header = title ∨ title ++ ['\n', '\n'] <+: header) ∧
          paragraphs header = texts := by
  intro es leading
  have hes : es.ProseHasValue := Entries.proseHasValue_parse raw
  have htitle : es.title.isSome ↔ es.opening ≠ [] := by rw [hes.title_eq, List.isSome_head?]
  refine ⟨es.opening, hes.map_some_opening.symm, hes.length_opening,
    htitle.trans Entries.isSome_header_iff.symm, htitle.trans hes.opening_ne_nil_iff, ?_⟩
  intro title ht header hh
  have hhead : es.opening.head? = some title := hes.title_eq ▸ ht
  obtain ⟨hne, rfl⟩ := Entries.header_eq_some_iff.1 hh
  refine ⟨hhead, Entries.eq_or_prefix_joinParagraphs hhead, ?_⟩
  exact paragraphs_joinParagraphs hne fun value hvalue =>
    (Entries.isValue_of_mem_opening hvalue).not_infix_append_newline

/-- Two lines of one paragraph, and prose behind a tag. -/
example :
    let es := Entry.parse " * a\n * b\n *\n * c\n * @d\n *\n * e".toList
    es.title = some "a\nb".toList ∧ es.header = some "a\nb\n\nc".toList := by decide +kernel

end DocComments
