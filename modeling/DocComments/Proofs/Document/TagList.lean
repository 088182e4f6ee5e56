import DocComments.Document.Markdown
import DocComments.Proofs.Entry.RoundTrip

/-!
# Lists of tags in Markdown

In Markdown a tag is a list item. Its first line has a marker and the key, and the further lines of
the value are indented. These are the lines that the tag has in a comment, in another notation: the
marker and the key stand for the line that opens the tag, and the indent for prose. No line of a
value is empty or begins with a blank, and a key is a word, so the notation can be read back.

* `Entry.itemLines` are the lines of an item, `Entry.markdown_append_newline` writes them.
* `Line.ofItemLine` reads a line of a list, and `Entries.ofItems` groups the lines as those of a
  comment are grouped.
* `Entries.ofItems_markdown`: a list of tags is read back.
* `Entries.items_markdown` says what the lines of a list look like and that no two lists have the
  same.
-/

namespace DocComments

open Text Line

variable {e : Entry} {es : Entries} {key line l : Text} {ls : List Text}

/-! ## Writing items -/

/-- What a list item begins with. -/
def itemMarker : Text :=
  "* **@".toList

/-- What the further lines of a list item begin with. -/
def itemIndent : Text :=
  [' ', ' ']

/-- The marker and the key of a list item. -/
def itemHead (key : Text) : Text :=
  itemMarker ++ key ++ "**".toList

theorem newline_not_mem_itemHead (hkey : Entry.IsKey key) : '\n' ∉ itemHead key := by
  rw [itemHead, List.mem_append, List.mem_append, not_or, not_or]
  exact ⟨⟨by decide, Entry.newline_not_mem_key hkey⟩, by decide⟩

theorem newline_not_mem_itemIndent : '\n' ∉ itemIndent := by
  decide

theorem indentLines_append (t u : Text) : indentLines (t ++ u) = indentLines t ++ indentLines u :=
  List.flatMap_append

theorem indentLines_of_not_mem (hn : '\n' ∉ l) : indentLines l = l := by
  have hkept : ∀ c ∈ l, (if c = '\n' then ['\n', ' ', ' '] else [c]) = [c] := by
    intro c hc
    apply if_neg
    rintro rfl
    exact hn hc
  rw [indentLines, List.flatMap_congr hkept, List.flatMap_singleton']

/-- **Indenting** puts two spaces before every line but the first. -/
theorem indentLines_joinLines (hl : '\n' ∉ l) (hls : ∀ m ∈ ls, '\n' ∉ m) :
    indentLines (joinLines (l :: ls)) = joinLines (l :: ls.map (itemIndent ++ ·)) := by
  induction ls generalizing l with
  | nil => rw [List.map_nil, joinLines_singleton, indentLines_of_not_mem hl]
  | cons m ls ih =>
    obtain ⟨hm, hls⟩ := List.forall_mem_cons.1 hls
    have hbreak : indentLines ('\n' :: joinLines (m :: ls)) =
        '\n' :: itemIndent ++ indentLines (joinLines (m :: ls)) := rfl
    rw [joinLines_cons (List.cons_ne_nil m ls), indentLines_append, indentLines_of_not_mem hl,
      hbreak, ih hm hls, List.cons_append, ← joinLines_append_cons,
      ← joinLines_cons (List.cons_ne_nil _ _), List.map_cons]

/-- The lines of a tag as a list item. -/
def Entry.itemLines (e : Entry) : List Text :=
  match e.valueLines with
  | [] => [itemHead (e.key.getD [])]
  | line :: lines => (itemHead (e.key.getD []) ++ ' ' :: line) :: lines.map (itemIndent ++ ·)

theorem Entry.joinLines_itemLines (e : Entry) : joinLines e.itemLines = e.markdown := by
  obtain ⟨key, value⟩ := e
  cases value with
  | none => exact (joinLines_singleton _).trans (List.append_nil _).symm
  | some value =>
    obtain ⟨line, lines, hlines⟩ := List.exists_cons_of_ne_nil (List.splitOn_ne_nil '\n' value)
    have hn : ∀ l ∈ line :: lines, '\n' ∉ l := fun l hl => not_mem_of_mem_splitOn (hlines ▸ hl)
    obtain ⟨hline, hn⟩ := List.forall_mem_cons.1 hn
    have hvalue : indentLines value = joinLines (line :: lines.map (itemIndent ++ ·)) := by
      rw [← indentLines_joinLines hline hn, ← hlines, joinLines_splitOn]
    have hitem : itemLines ⟨key, some value⟩ =
        (itemHead (key.getD []) ++ ' ' :: line) :: lines.map (itemIndent ++ ·) := by
      simp only [itemLines, valueLines, hlines]
    have hmarkdown : markdown ⟨key, some value⟩ =
        itemHead (key.getD []) ++ ' ' :: indentLines value := rfl
    rw [hitem, hmarkdown, hvalue, List.append_cons, joinLines_append_cons, ← List.append_cons]

/-- **A tag is written on the lines of its item.** -/
theorem Entry.markdown_append_newline (e : Entry) :
    e.markdown ++ ['\n'] = e.itemLines.flatMap (· ++ ['\n']) := by
  have hne : e.itemLines ≠ [] := by
    unfold itemLines
    split <;> exact List.cons_ne_nil _ _
  rw [← e.joinLines_itemLines, joinLines_append_newline hne]

/-! ## Reading items -/

/-- A line of a list as a line of a comment: an item opens a tag, and a line that is indented goes
on with it. -/
def Line.ofItemLine (line : Text) : Line :=
  if itemMarker.isPrefixOf line then
    let rest := line.drop itemMarker.length
    -- two stars stand behind the key, and a space before what follows them
    tag (rest.takeWhile isWord) ((rest.dropWhile isWord).drop 3)
  else if itemIndent.isPrefixOf line then prose (line.drop itemIndent.length)
  else blank

/-- The tags of a list in Markdown. -/
def Entries.ofItems (t : Text) : Entries :=
  (groups ((t.splitOn '\n').map ofItemLine)).map Group.entry

/-- What stands behind the key of an item is not part of it. -/
theorem Line.ofItemLine_head (hkey : Entry.IsKey key) (rest : Text) :
    ofItemLine (itemHead key ++ rest) = tag key (("**".toList ++ rest).drop 3) := by
  have hline : itemHead key ++ rest = itemMarker ++ (key ++ ("**".toList ++ rest)) := by
    rw [itemHead, List.append_assoc, List.append_assoc]
  have hprefix : itemMarker.isPrefixOf (itemMarker ++ (key ++ ("**".toList ++ rest))) = true :=
    List.isPrefixOf_iff_prefix.2 (List.prefix_append ..)
  have hstar : ¬ isWord '*' = true := by simp [isWord_star]
  have htake : (key ++ ("**".toList ++ rest)).takeWhile isWord = key := by
    rw [List.takeWhile_append_of_pos hkey.2]
    exact (congrArg _ (List.takeWhile_cons_of_neg hstar)).trans (List.append_nil key)
  have hdrop : (key ++ ("**".toList ++ rest)).dropWhile isWord = "**".toList ++ rest := by
    rw [List.dropWhile_append_of_pos hkey.2]
    exact List.dropWhile_cons_of_neg hstar
  rw [hline, ofItemLine, if_pos hprefix, List.drop_left]
  simp only [htake, hdrop]

theorem Line.ofItemLine_indented (line : Text) : ofItemLine (itemIndent ++ line) = prose line :=
  rfl

/-- **The lines of an item are read as those of the tag in a comment.** -/
theorem Entry.WellFormed.map_ofItemLine_itemLines (h : e.WellFormed) (hkey : e.key = some key) :
    e.itemLines.map ofItemLine = e.kinds := by
  have hword := h.isKey key hkey
  rw [itemLines, kinds]
  simp only [hkey, Option.getD_some]
  cases hlines : e.valueLines with
  | nil =>
    have hhead := ofItemLine_head hword []
    rw [List.append_nil] at hhead
    exact congrArg (fun l => [l]) hhead
  | cons line lines =>
    have hmore : lines.map (ofItemLine ∘ (itemIndent ++ ·)) = lines.map Line.prose :=
      List.map_congr_left fun line _ => ofItemLine_indented line
    rw [List.map_cons, ofItemLine_head hword, List.map_map, hmore]
    rfl

/-- The entry can be an item: it is a tag of a comment. -/
def Entry.IsItem (e : Entry) : Prop :=
  e.isTag = true ∧ ∃ raw, e ∈ Entry.parse raw

theorem Entry.IsItem.wellFormed (h : e.IsItem) : e.WellFormed := by
  obtain ⟨-, raw, hraw⟩ := h
  exact wellFormed_of_mem_parse hraw

theorem Entry.IsItem.exists_key (h : e.IsItem) : ∃ key, e.key = some key :=
  Option.isSome_iff_exists.1 h.1

/-- A tag starts a group of lines. -/
theorem head?_flatMap_kinds (hes : ∀ e ∈ es, e.IsItem) (content : Text) :
    (es.flatMap Entry.kinds ++ [blank]).head? ≠ some (.prose content) := by
  cases es with
  | nil => simp
  | cons e es =>
    obtain ⟨key, hkey⟩ := (hes e (List.mem_cons_self ..)).exists_key
    rw [List.flatMap_cons, Entry.kinds]
    split <;> simp_all

theorem groups_flatMap_kinds_of_isItem (hes : ∀ e ∈ es, e.IsItem) :
    groups (es.flatMap Entry.kinds ++ [blank]) = es.map Entry.toGroup := by
  induction es with
  | nil => simp
  | cons e es ih =>
    obtain ⟨he, hes⟩ := List.forall_mem_cons.1 hes
    rw [List.flatMap_cons, List.append_assoc,
      he.wellFormed.groups_kinds_append (head?_flatMap_kinds hes), ih hes, List.map_cons]

/-! ## Lists of tags -/

namespace Entry.IsItem

variable (h : e.IsItem)
include h

theorem newline_not_mem_of_mem_itemLines (hline : line ∈ e.itemLines) : '\n' ∉ line := by
  obtain ⟨key, hkey⟩ := h.exists_key
  have hhead : '\n' ∉ itemHead key := newline_not_mem_itemHead (h.wellFormed.isKey key hkey)
  have hvalue : ∀ l ∈ e.valueLines, '\n' ∉ l := fun _ => newline_not_mem_of_mem_valueLines
  rw [itemLines, hkey, Option.getD_some] at hline
  split at hline
  · rwa [List.mem_singleton.1 hline]
  · next first more hlines =>
    rw [hlines] at hvalue
    obtain ⟨hfirst, hmore⟩ := List.forall_mem_cons.1 hvalue
    rcases List.mem_cons.1 hline with rfl | hline
    · simp [hhead, hfirst]
    · obtain ⟨l, hl, rfl⟩ := List.mem_map.1 hline
      simp [newline_not_mem_itemIndent, hmore l hl]

/-- The first line of an item has the marker and the key, and the others are indented. -/
theorem exists_itemLines_eq :
    ∃ key first more, e.key = some key ∧ e.itemLines = first :: more ∧ itemHead key <+: first ∧
      ∀ line ∈ more, ∃ c rest, line = ' ' :: ' ' :: c :: rest ∧ isBlank c = false := by
  obtain ⟨key, hkey⟩ := h.exists_key
  have hvalue := h.wellFormed.isValueLine
  rw [itemLines, hkey, Option.getD_some]
  split
  · exact ⟨key, _, [], rfl, rfl, List.prefix_refl _, List.forall_mem_nil _⟩
  · next line lines hlines =>
    rw [hlines] at hvalue
    refine ⟨key, _, _, rfl, rfl, List.prefix_append .., fun more hmore => ?_⟩
    obtain ⟨l, hl, rfl⟩ := List.mem_map.1 hmore
    obtain ⟨hne, htrim⟩ := hvalue l (List.mem_cons_of_mem _ hl)
    obtain ⟨c, rest, rfl⟩ := List.exists_cons_of_ne_nil hne
    exact ⟨c, rest, rfl, trimStart_eq_self_iff.1 (trim_eq_self_iff.1 htrim).1 c rfl⟩

end Entry.IsItem

namespace Entries

/-- The lines of a list of tags. -/
theorem splitOn_flatMap_markdown (hes : ∀ e ∈ es, e.IsItem) :
    (es.flatMap fun e => e.markdown ++ ['\n']).splitOn '\n' =
      es.flatMap Entry.itemLines ++ [[]] := by
  simp only [Entry.markdown_append_newline]
  rw [← List.flatMap_assoc]
  refine splitOn_flatMap_newline fun line hline => ?_
  obtain ⟨e, he, hline⟩ := List.mem_flatMap.1 hline
  exact (hes e he).newline_not_mem_of_mem_itemLines hline

/-- **A list of tags is read back.** -/
theorem ofItems_markdown (hes : ∀ e ∈ es, e.IsItem) :
    ofItems (es.flatMap fun e => e.markdown ++ ['\n']) = es := by
  have hkinds : es.flatMap (fun e => e.itemLines.map ofItemLine) = es.flatMap Entry.kinds := by
    refine List.flatMap_congr fun e he => ?_
    obtain ⟨key, hkey⟩ := (hes e he).exists_key
    exact (hes e he).wellFormed.map_ofItemLine_itemLines hkey
  have hblank : [([] : Text)].map ofItemLine = [blank] := rfl
  rw [ofItems, splitOn_flatMap_markdown hes, List.map_append, List.map_flatMap, hkinds, hblank,
    groups_flatMap_kinds_of_isItem hes, List.map_map]
  exact (List.map_congr_left fun e _ => e.entry_toGroup).trans (List.map_id es)

/-- **The tags of a list can be told from its text.** There is an item for each tag: a line with the
marker and the key, and indented lines that begin with no blank. The list is read back from its
lines, so that no other list has the same text. -/
theorem items_markdown (hes : ∀ e ∈ es, e.IsItem) :
    let text := es.flatMap fun e => e.markdown ++ ['\n']
    (∃ items : List (List Text), text.splitOn '\n' = items.flatten ++ [[]] ∧
      List.Forall₂
        (fun e item => ∃ key first more, e.key = some key ∧ item = first :: more ∧
          "* **@".toList ++ key ++ "**".toList <+: first ∧
          ∀ line ∈ more, ∃ c rest, line = ' ' :: ' ' :: c :: rest ∧ isBlank c = false)
        es items) ∧
    ofItems text = es ∧
    ∀ es' : Entries, (∀ e ∈ es', e.IsItem) →
      (es'.flatMap fun e => e.markdown ++ ['\n']) = text → es' = es := by
  intro text
  have hread : ofItems text = es := ofItems_markdown hes
  refine ⟨⟨es.map Entry.itemLines, ?_, ?_⟩, hread, fun es' hes' htext => ?_⟩
  · rw [splitOn_flatMap_markdown hes, List.flatMap_def]
  · rw [List.forall₂_map_right_iff, List.forall₂_same]
    exact fun e he => (hes e he).exists_itemLines_eq
  · rw [← hread, ← htext]
    exact (ofItems_markdown hes').symm

/-- A value that looks like two items, and a tag that stands alone. -/
theorem items_markdown_star :
    let es : Entries := [⟨some "see".toList, some "* **@x** y\n* **@z**".toList⟩,
      ⟨some "see".toList, none⟩, ⟨some "x".toList, some "y".toList⟩]
    let text := "* **@see** * **@x** y\n  * **@z**\n* **@see**\n* **@x** y\n".toList
    (∀ e ∈ es, e.IsItem) ∧ (es.flatMap fun e => e.markdown ++ ['\n']) = text ∧
      ofItems text = es ∧
      ∀ es' : Entries, (∀ e ∈ es', e.IsItem) →
        (es'.flatMap fun e => e.markdown ++ ['\n']) = text → es' = es := by
  intro es text
  let raw := " * @see * **@x** y\n * * **@z**\n * @see\n * @x y".toList
  have hparse : Entry.parse raw = es := by decide +kernel
  have htags : ∀ e ∈ es, e.isTag = true := by decide
  have hes : ∀ e ∈ es, e.IsItem := fun e he => ⟨htags e he, raw, hparse.symm ▸ he⟩
  have htext : (es.flatMap fun e => e.markdown ++ ['\n']) = text := by decide
  obtain ⟨-, hread, hother⟩ := items_markdown hes
  rw [htext] at hread hother
  exact ⟨hes, htext, hread, hother⟩

end Entries

end DocComments
