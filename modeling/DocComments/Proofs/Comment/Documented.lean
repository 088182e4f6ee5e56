import DocComments.Proofs.Comment.Positions
import DocComments.Proofs.Comment.Target

/-!
# What the comments of a source document

A comment documents what comes first after it, up to the end of the line. It documents nothing where
the source ends, or where what comes first is another comment. Blanks before it do not count,
whatever lines they make.

* `targetAfter?_eq` reads this off the text after the comment; `targetAfter?_spec` says what the
  line looks like.
* `Span.target?_eq_none_of_allBlank`: where only blanks separate two comments, the first documents
  nothing.
* `Comment.targets_scan` states both for the comments of a source, by position.
-/

namespace DocComments

open Text

variable {t : Text} {s s' : Span}

/-! ## The line after a comment -/

theorem Span.startsComment_iff :
    startsComment t = true ↔ ['/', '*'] <+: t ∨ ['/', '/'] <+: t := by
  simp [startsComment]

/-- What holds no blank begins the first line of a text exactly where it begins the text. -/
theorem Text.prefix_firstLine_iff {pat : Text} (hpat : ∀ c ∈ pat, isBlank c = false) :
    pat <+: trimEnd (t.takeWhile (· != '\n')) ↔ pat <+: t := by
  rw [prefix_trimEnd_iff hpat]
  constructor
  · exact fun h => h.trans (List.takeWhile_prefix _)
  · rintro ⟨u, rfl⟩
    have hline : ∀ c ∈ pat, (c != '\n') = true := by
      intro c hc
      rw [bne_iff_ne]
      rintro rfl
      cases hpat _ hc
    rw [List.takeWhile_append_of_pos hline]
    exact List.prefix_append ..

theorem Span.startsComment_firstLine (t : Text) :
    startsComment (trimEnd (t.takeWhile (· != '\n'))) = startsComment t := by
  have hstar : ∀ c ∈ ['/', '*'], isBlank c = false := by simp [isBlank, blanks]
  have hslash : ∀ c ∈ ['/', '/'], isBlank c = false := by simp [isBlank, blanks]
  rw [Bool.eq_iff_iff, startsComment_iff, startsComment_iff, prefix_firstLine_iff hstar,
    prefix_firstLine_iff hslash]

/-- **What a comment documents**, by the text after the comment. -/
theorem targetAfter?_eq (t : Text) :
    targetAfter? t =
      if trimStart t = [] ∨ Span.startsComment (trimStart t) = true then none
      else some (trimEnd ((trimStart t).takeWhile (· != '\n'))) := by
  rw [targetAfter?, headline?_eq]
  by_cases hnil : trimStart t = []
  · simp [hnil]
  · rw [if_neg hnil, Option.filter_some, Span.startsComment_firstLine]
    cases hstart : Span.startsComment (trimStart t) <;> simp [hnil]

theorem targetAfter?_eq_none_iff :
    targetAfter? t = none ↔
      trimStart t = [] ∨ ['/', '*'] <+: trimStart t ∨ ['/', '/'] <+: trimStart t := by
  rw [targetAfter?_eq, ← Span.startsComment_iff]
  split <;> simp_all

theorem eq_of_targetAfter?_eq_some {target : Text} (h : targetAfter? t = some target) :
    target = trimEnd ((trimStart t).takeWhile (· != '\n')) := by
  rw [targetAfter?_eq] at h
  split at h
  · cases h
  · exact (Option.some.inj h).symm

/-- What is documented is a trimmed line and starts no comment. -/
theorem targetAfter?_spec {target : Text} (h : targetAfter? t = some target) :
    target ≠ [] ∧ trim target = target ∧ '\n' ∉ target ∧ ¬ ['/', '*'] <+: target ∧
      ¬ ['/', '/'] <+: target := by
  obtain ⟨hline, hstart⟩ := Option.filter_eq_some_iff.1 h
  obtain ⟨hne, htrim, hn⟩ := headline?_spec hline
  rw [Bool.not_eq_true', ← Bool.not_eq_true, Span.startsComment_iff, not_or] at hstart
  exact ⟨hne, htrim, hn, hstart⟩

/-! ## The comments of a source -/

/-- **Where only blanks separate two comments, the first documents nothing.** -/
theorem Span.target?_eq_none_of_allBlank {between : Text}
    (hrest : s.rest = between ++ (s'.raw ++ s'.rest)) (hblank : AllBlank between) :
    s.target? = none := by
  rw [target?_eq_targetAfter?, targetAfter?_eq_none_iff, hrest, trimStart_append hblank, raw_append]
  exact .inr (.inl ⟨_, rfl⟩)

/-- **What the comments of a source document.** With the blanks removed that follow a comment, there
is nothing to document at the end of the source and before another comment, and otherwise the
comment documents the line that comes first, a trimmed line that starts no comment. So it documents
nothing where only blanks stand before the next comment. -/
theorem Comment.targets_scan (source : Text) :
    List.Forall₂
      (fun range c =>
        Stands source range.1 range.2 ∧ c.text = settled (source.extract range.1 range.2) ∧
        let rest := trimStart (source.drop range.2)
        (c.target = none ↔ rest = [] ∨ ['/', '*'] <+: rest ∨ ['/', '/'] <+: rest) ∧
        ∀ target ∈ c.target, target = trimEnd (rest.takeWhile (· != '\n')) ∧
          target ≠ [] ∧ trim target = target ∧ '\n' ∉ target ∧
          ¬ ['/', '*'] <+: target ∧ ¬ ['/', '/'] <+: target)
      (ranges source) (scan source) ∧
    ∀ (i : ℕ) (range next : ℕ × ℕ) (c : Comment), (ranges source)[i]? = some range →
      (ranges source)[i + 1]? = some next → (scan source)[i]? = some c →
      AllBlank (source.extract range.2 next.1) → c.target = none := by
  constructor
  · rw [ranges, scan, List.forall₂_map_left_iff, List.forall₂_map_right_iff, List.forall₂_same]
    intro s hs
    dsimp only
    rw [Span.extract_start_stop hs, Span.drop_stop hs]
    refine ⟨Span.stands_start_stop hs, s.settle_eq_settled, ?_⟩
    change (s.target? = none ↔ _) ∧ ∀ target ∈ s.target?, _
    rw [Span.target?_eq_targetAfter?]
    exact ⟨targetAfter?_eq_none_iff, fun target ht =>
      ⟨eq_of_targetAfter?_eq_some ht, targetAfter?_spec ht⟩⟩
  · intro i range next c hrange hnext hc hblank
    rw [ranges, List.getElem?_map] at hrange hnext
    rw [scan, List.getElem?_map] at hc
    obtain ⟨s, hs, rfl⟩ := Option.map_eq_some_iff.1 hrange
    obtain ⟨s', hs', rfl⟩ := Option.map_eq_some_iff.1 hnext
    rw [hs, Option.map_some, Option.some.injEq] at hc
    obtain ⟨between, hrest⟩ := Span.suffix_rest_of_getElem? hs hs'
    rw [Span.extract_stop_start (List.mem_of_getElem? hs) hrest.symm] at hblank
    rw [← hc]
    exact Span.target?_eq_none_of_allBlank hrest.symm hblank

/-- Blanks before a line and before a comment, line endings and others. -/
example :
    (Comment.scan "/** a */\u2028\r\n\t b \r\n/** c */ \n\u0085/** d */\n\n// e".toList).map
        Comment.target =
      [some ['b'], none, none] := by decide +kernel

end DocComments
