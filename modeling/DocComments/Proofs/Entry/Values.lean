import DocComments.Proofs.Entry.WellFormed

/-!
# Keys and values after any number of lines

Whatever lines the collector is fed, a key is a word, and a value is made of lines that are trimmed
and not empty. So a value is trimmed as a whole, it is never empty, and no blank line can come into
it; an entry without a key has a value, whose lines read as prose.

* `IsValue` says that a text is made of such lines.
* `Collector.invariant_foldl_feed` says what the collector holds after any lines, in the draft and
  in the complete entries. A line may itself hold line feeds.
-/

namespace DocComments

open Text Entry

variable {e : Entry} {value : Text}

/-! ## Values -/

/-- The text is made of lines that are trimmed and not empty, at least one. -/
def Entry.IsValue (value : Text) : Prop :=
  ∃ ls, ls ≠ [] ∧ (∀ l ∈ ls, IsValueLine l ∧ '\n' ∉ l) ∧ value = joinLines ls

namespace Entry

theorem isValue_of_forall_mem_splitOn (h : ∀ l ∈ value.splitOn '\n', IsValueLine l) :
    IsValue value :=
  ⟨value.splitOn '\n', List.splitOn_ne_nil '\n' value,
    fun l hl => ⟨h l hl, not_mem_of_mem_splitOn hl⟩, (joinLines_splitOn value).symm⟩

namespace IsValue

theorem trim_eq (h : IsValue value) : trim value = value := by
  obtain ⟨ls, -, hls, rfl⟩ := h
  exact trim_joinLines fun l hl => (hls l hl).1

theorem ne_nil (h : IsValue value) : value ≠ [] := by
  obtain ⟨ls, hne, hls, rfl⟩ := h
  exact joinLines_ne_nil hne fun l hl => (hls l hl).1

/-- There is no empty line inside a value. -/
theorem newlines_not_infix (h : IsValue value) : ¬ ['\n', '\n'] <:+: value := by
  obtain ⟨ls, hne, hls, rfl⟩ := h
  rintro ⟨a, b, hab⟩
  have hmem : [] ∈ (joinLines ls).splitOn '\n' := by
    have hsplit' : (a ++ '\n' :: '\n' :: b).splitOn '\n' =
        a.splitOn '\n' ++ [] :: b.splitOn '\n' := by
      rw [List.splitOn_append_cons_self, List.splitOn_cons_eq_if_modifyHead, if_pos (by simp)]
    rw [← hab, List.append_assoc, List.cons_append, List.cons_append, List.nil_append, hsplit']
    exact List.mem_append_right _ (List.mem_cons_self ..)
  rw [splitOn_joinLines hne fun l hl => (hls l hl).2] at hmem
  exact (hls [] hmem).1.1 rfl

end IsValue

theorem WellFormed.isValue (h : e.WellFormed) (hvalue : value ∈ e.value) : IsValue value := by
  refine isValue_of_forall_mem_splitOn fun l hl => h.isValueLine l ?_
  rwa [valueLines, Option.mem_def.1 hvalue]

end Entry

/-! ## The collector -/

/-- **What the collector holds after any lines.** -/
theorem Collector.invariant_foldl_feed (ls : List Text) :
    let c := ls.foldl feed empty
    (∀ d ∈ c.draft,
      (∀ key ∈ d.key, IsKey key) ∧ (∀ piece ∈ d.pieces, IsValueLine piece ∧ '\n' ∉ piece) ∧
      (d.key = none → d.pieces ≠ #[] ∧ ∀ piece ∈ d.pieces, IsProseLine piece)) ∧
    ∀ e, e ∈ c.entries ∨ e ∈ c.finish →
      (∀ key ∈ e.key, IsKey key) ∧
      (∀ value ∈ e.value,
        IsValue value ∧ trim value = value ∧ value ≠ [] ∧ ¬ ['\n', '\n'] <:+: value) ∧
      (e.key = none → e.value.isSome ∧ ∀ line ∈ e.valueLines, IsProseLine line) := by
  intro c
  have hc : c.WellFormed := wellFormed_foldl_feed ls
  constructor
  · intro d hd
    have hdraft := hc.draft d hd
    have hmem : ∀ piece ∈ d.pieces, piece ∈ d.toGroup.pieces :=
      fun piece => Array.mem_toList_iff.2
    refine ⟨hdraft.isKey, fun piece hp => ?_, fun hkey => ⟨?_, fun piece hp => ?_⟩⟩
    · exact ⟨hdraft.isValueLine piece (hmem piece hp), hdraft.newline_not_mem piece (hmem piece hp)⟩
    · intro hnil
      exact hdraft.pieces_ne_nil hkey (by simp [Draft.toGroup, hnil])
    · refine hdraft.isProseLine piece ?_
      rw [Group.ownPieces, if_neg (by simp [Draft.toGroup, hkey])]
      exact hmem piece hp
  · intro e he
    have hwf : e.WellFormed := he.elim (hc.entries e) (hc.finish e)
    refine ⟨hwf.isKey, fun value hv => ?_, fun hkey => ⟨hwf.isSome_value hkey, ?_⟩⟩
    · have hvalue := hwf.isValue hv
      exact ⟨hvalue, hvalue.trim_eq, hvalue.ne_nil, hvalue.newlines_not_infix⟩
    · have hown := hwf.isProseLine
      rwa [ownLines, hkey] at hown

/-- A line feed among the blanks after a star is skipped, and one inside a content makes its line
blank. -/
theorem Collector.invariant_foldl_feed_see :
    let ls := [" * @see /".toList, "/**\n b".toList, " * lost\n".toList, "\n * c".toList]
    let e : Entry := ⟨some "see".toList, some "/\nb".toList⟩
    let d : Draft := ⟨none, #[['c']]⟩
    ls.foldl feed empty = ⟨#[e], some d⟩ ∧ IsValue "/\nb".toList ∧ IsProseLine ['c'] := by
  intro ls e d
  have hc : ls.foldl feed empty = ⟨#[e], some d⟩ := by decide +kernel
  obtain ⟨hdraft, hentries⟩ := invariant_foldl_feed ls
  have he : e ∈ (ls.foldl feed empty).entries := by
    rw [hc]
    exact Array.mem_singleton.2 rfl
  have hd : d ∈ (ls.foldl feed empty).draft := by
    rw [hc]
    rfl
  obtain ⟨-, hvalue, -⟩ := hentries e (.inl he)
  obtain ⟨-, -, hprose⟩ := hdraft d hd
  exact ⟨hc, (hvalue _ rfl).1, (hprose rfl).2 _ (Array.mem_singleton.2 rfl)⟩

end DocComments
