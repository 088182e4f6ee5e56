import DocComments.Proofs.Comment.Scan
import Mathlib.Data.List.Forall2

/-!
# Where the comments of a source stand

The scan goes through a source from left to right, and what a comment leaves over is where the next
one is looked for. So the comments stand in the source one after the other, each with the lines
before it counted, and nothing that opens a comment is passed over without a reason: it stands
inside a comment, it is part of an empty comment, or nothing closes it.

* `exists_eq_append_of_mem_spans` finds a comment in the source, `pairwise_spans` puts the comments
  in order, and `opening_cases` gives the reason for each opening delimiter; these three follow the
  scan.
* `Stands source start stop` says in terms of positions where a comment is.
* `Span.drop_stop` and `Span.extract_stop_start` say what stands after a comment, and what between
  it and a later one.
* `Comment.exists_ranges_scan` states all of it for the comments of a source.
-/

namespace DocComments

open Text

variable {s : Span} {line : ℕ} {source before u : Text}

/-! ## A comment in its source -/

/-- The comment with both delimiters, as it stands in the source. -/
def Span.raw (s : Span) : Text :=
  s.body ++ closeDelimiter

theorem Span.raw_append (s : Span) (u : Text) :
    s.raw ++ u = openDelimiter ++ (s.inner ++ closeDelimiter ++ u) := by
  simp [raw, body]

theorem Span.count_raw (s : Span) : s.raw.count '\n' = s.inner.count '\n' := by
  simp [raw, body, openDelimiter, closeDelimiter]

theorem Span.length_raw (s : Span) : s.raw.length = s.inner.length + 5 := by
  simp [raw, body, openDelimiter, closeDelimiter]

/-- An empty comment, which is no doc comment. -/
def emptyComment : Text :=
  openDelimiter ++ ['/']

theorem count_emptyComment : emptyComment.count '\n' = 0 := by decide

/-- The source falls into what stands before a comment, the comment, and what it leaves over. The
line of the comment counts the line feeds before it. -/
theorem exists_eq_append_of_mem_spans (h : s ∈ spans line source) :
    ∃ before, source = before ++ (s.raw ++ s.rest) ∧ s.line = line + before.count '\n' := by
  fun_induction spans line source with
  | case1 => cases h
  | case2 line source before after hopen _ ih =>
    obtain ⟨between, rfl, hline⟩ := ih h
    refine ⟨before ++ emptyComment ++ between, ?_, ?_⟩
    · simp [eq_append_of_cut? hopen, emptyComment]
    · rw [hline, List.count_append, List.count_append, count_emptyComment]
      omega
  | case3 => cases h
  | case4 line source before after _ hopen inner rest hclose _ _ start ih =>
    have hsource : source = before ++ (Span.raw ⟨start, inner, rest⟩ ++ rest) := by
      rw [eq_append_of_cut? hopen, eq_append_of_cut? hclose, Span.raw_append, List.append_assoc]
    rcases List.mem_cons.1 h with rfl | h
    · exact ⟨before, hsource, rfl⟩
    · obtain ⟨between, hrest, hline⟩ := ih h
      refine ⟨before ++ Span.raw ⟨start, inner, rest⟩ ++ between, ?_, ?_⟩
      · rw [hsource, List.append_assoc, List.append_assoc, ← hrest]
      · rw [hline, List.count_append, List.count_append, Span.count_raw]
        dsimp only [start]
        omega

/-- **The comments stand one after the other**: a later one in what an earlier one leaves over. -/
theorem pairwise_spans (line : ℕ) (source : Text) :
    (spans line source).Pairwise fun s t => t.raw ++ t.rest <:+ s.rest := by
  fun_induction spans line source with
  | case1 => exact .nil
  | case2 _ _ _ _ _ _ ih => exact ih
  | case3 => exact .nil
  | case4 line source before after _ hopen inner rest hclose _ _ start ih =>
    refine .cons (fun t ht => ?_) ih
    obtain ⟨between, hrest, -⟩ := exists_eq_append_of_mem_spans ht
    exact ⟨between, hrest.symm⟩

/-! ## Every opening delimiter -/

theorem suffix_emptyComment_append {after : Text} (hu : u <:+ emptyComment ++ after)
    (hopen : openDelimiter <+: u) :
    emptyComment <+: u ∨ u = '/' :: after ∨ u <:+ after := by
  rcases List.suffix_cons_iff.1 hu with rfl | hu
  · exact .inl (List.prefix_append ..)
  rcases List.suffix_cons_iff.1 hu with rfl | hu
  · simp [openDelimiter] at hopen
  rcases List.suffix_cons_iff.1 hu with rfl | hu
  · simp [openDelimiter] at hopen
  rcases List.suffix_cons_iff.1 hu with rfl | hu
  · exact .inr (.inl rfl)
  · exact .inr (.inr hu)

theorem drop_length_suffix_of_suffix_append {pat after : Text} (hu : u <:+ pat ++ after) :
    u.drop pat.length <:+ after := by
  rw [List.suffix_iff_eq_drop.1 hu, List.drop_drop, Nat.add_comm, ← List.drop_drop, List.drop_left]
  exact List.drop_suffix _ after

/-- **No opening delimiter is passed over without a reason**: what begins with it begins in a
comment, or it begins an empty comment, or ends one with its slash, or nothing closes it. -/
theorem opening_cases (hu : u <:+ source) (hopen : openDelimiter <+: u) (line : ℕ) :
    (∃ s ∈ spans line source, u <:+ s.raw ++ s.rest ∧ s.rest.length < u.length) ∨
      emptyComment <+: u ∨ openDelimiter ++ u <:+ source ∨
      ¬ closeDelimiter <:+: u.drop openDelimiter.length := by
  fun_induction spans line source with
  | case1 line source hcut =>
    exact absurd (hopen.isInfix.trans hu.isInfix) ((cut?_eq_none_iff openDelimiter_ne_nil).1 hcut)
  | case2 line source before after hcut _ ih =>
    have hu' := suffix_of_cut?_of_prefix openDelimiter_ne_nil hcut hu hopen
    have hsource : source = before ++ openDelimiter ++ '/' :: after := eq_append_of_cut? hcut
    rcases suffix_emptyComment_append hu' hopen with h | rfl | hafter
    · exact .inr (.inl h)
    · rw [hsource, List.append_assoc]
      exact .inr (.inr (.inl (List.suffix_append ..)))
    · have hsuffix : after <:+ source :=
        hsource ▸ (List.suffix_cons '/' after).trans (List.suffix_append ..)
      exact (ih hafter).imp_right (.imp_right (.imp_left fun h => h.trans hsuffix))
  | case3 line source before after _ hcut hclose =>
    have hu' := suffix_of_cut?_of_prefix openDelimiter_ne_nil hcut hu hopen
    have hnone := (cut?_eq_none_iff closeDelimiter_ne_nil).1 hclose
    exact .inr (.inr (.inr fun hin =>
      hnone (hin.trans (drop_length_suffix_of_suffix_append hu').isInfix)))
  | case4 line source before after _ hcut inner rest hclose _ _ start ih =>
    have hu' := suffix_of_cut?_of_prefix openDelimiter_ne_nil hcut hu hopen
    have hraw : openDelimiter ++ after = Span.raw ⟨start, inner, rest⟩ ++ rest := by
      rw [Span.raw_append, eq_append_of_cut? hclose]
    rw [hraw] at hu'
    by_cases hlen : rest.length < u.length
    · exact .inl ⟨_, List.mem_cons_self .., hu', hlen⟩
    · have hrest : u <:+ rest :=
        List.suffix_of_suffix_length_le hu' (List.suffix_append ..) (Nat.le_of_not_lt hlen)
      have hsuffix : rest <:+ source := by
        rw [eq_append_of_cut? hcut, List.append_assoc, hraw]
        exact (List.suffix_append ..).trans (List.suffix_append ..)
      refine (ih hrest).imp ?_ (.imp_right (.imp_left fun h => h.trans hsuffix))
      rintro ⟨s, hs, h⟩
      exact ⟨s, List.mem_cons_of_mem _ hs, h⟩

/-! ## Positions -/

/-- A comment stands in the source from `start` up to `stop`. -/
structure Stands (source : Text) (start stop : ℕ) : Prop where
  /-- It begins with an opening delimiter. -/
  open_at : OccursAt openDelimiter source start
  /-- No slash follows directly, as it does in an empty comment. -/
  slash_not_at : source[start + 3]? ≠ some '/'
  /-- It ends with the first closing delimiter after the opening one. -/
  close_at : ∃ close, stop = close + 2 ∧ start + 3 ≤ close ∧ OccursAt closeDelimiter source close ∧
    ∀ i, start + 3 ≤ i → i < close → ¬ OccursAt closeDelimiter source i

/-- What stands between the delimiters ends at the first closing delimiter. -/
theorem Span.WellFormed.stands (hs : s.WellFormed) (h : source = before ++ (s.raw ++ s.rest)) :
    Stands source before.length (before.length + s.raw.length) := by
  subst h
  -- positions are counted from the end of the opening delimiter
  have hopen : ∀ (k : ℕ) (pat t : Text),
      OccursAt pat (before ++ (openDelimiter ++ t)) (before.length + 3 + k) ↔ OccursAt pat t k := by
    intro k pat t
    rw [Nat.add_assoc, occursAt_append_add]
    exact occursAt_append_add
  refine ⟨occursAt_append_length.2 ?_, ?_, before.length + 3 + s.inner.length, ?_, ?_, ?_, ?_⟩
  · rw [Span.raw_append]
    exact List.prefix_append ..
  · rw [List.getElem?_append_right (Nat.le_add_right ..), Nat.add_sub_cancel_left, Span.raw_append]
    have hhead := hs.head?_append_ne s.rest
    rwa [List.head?_eq_getElem?] at hhead
  · rw [Span.length_raw]
    omega
  · exact Nat.le_add_right ..
  · rw [Span.raw_append, List.append_assoc s.inner, hopen, occursAt_append_length]
    exact List.prefix_append ..
  · intro i hi hlt
    obtain ⟨k, rfl⟩ := Nat.exists_eq_add_of_le hi
    rw [Span.raw_append, hopen]
    exact not_occursAt_of_lt hs.close_not_infix_dropLast (by omega)

/-- Where the comment begins in the source that it was found in. -/
def Span.start (source : Text) (s : Span) : ℕ :=
  source.length - (s.raw ++ s.rest).length

/-- Where the comment ends in the source that it was found in. -/
def Span.stop (source : Text) (s : Span) : ℕ :=
  source.length - s.rest.length

theorem Span.start_eq (h : source = before ++ (s.raw ++ s.rest)) :
    s.start source = before.length := by
  simp [start, h]

theorem Span.stop_eq (h : source = before ++ (s.raw ++ s.rest)) :
    s.stop source = before.length + s.raw.length := by
  simp only [stop, h, List.length_append]
  omega

namespace Span

variable {s' : Span}

/-- A comment stands where it begins and ends. -/
theorem stands_start_stop (hs : s ∈ spans 1 source) :
    Stands source (s.start source) (s.stop source) := by
  obtain ⟨before, hsource, -⟩ := exists_eq_append_of_mem_spans hs
  rw [start_eq hsource, stop_eq hsource]
  exact (wellFormed_of_mem_spans hs).stands hsource

theorem extract_start_stop (hs : s ∈ spans 1 source) :
    source.extract (s.start source) (s.stop source) = s.raw := by
  obtain ⟨before, hsource, -⟩ := exists_eq_append_of_mem_spans hs
  rw [start_eq hsource, stop_eq hsource]
  simp [hsource]

/-- What stands after a comment is the source from where the comment ends. -/
theorem drop_stop (hs : s ∈ spans 1 source) : source.drop (s.stop source) = s.rest := by
  obtain ⟨before, hsource, -⟩ := exists_eq_append_of_mem_spans hs
  rw [stop_eq hsource]
  subst hsource
  rw [← List.append_assoc, ← List.length_append, List.drop_left]

/-- Between a comment and a later one stands what comes before the later one in the rest. -/
theorem extract_stop_start {between : Text} (hs : s ∈ spans 1 source)
    (hrest : s.rest = between ++ (s'.raw ++ s'.rest)) :
    source.extract (s.stop source) (s'.start source) = between := by
  have hlen := congrArg List.length (drop_stop hs)
  rw [List.length_drop, hrest, List.length_append] at hlen
  have hbetween : s'.start source - s.stop source = between.length := by
    rw [start]
    omega
  rw [List.extract_eq_take_drop, hbetween, drop_stop hs, hrest, List.take_left]

theorem suffix_rest_of_getElem? {i : ℕ} (hs : (spans 1 source)[i]? = some s)
    (hs' : (spans 1 source)[i + 1]? = some s') : s'.raw ++ s'.rest <:+ s.rest := by
  obtain ⟨hi, rfl⟩ := List.getElem?_eq_some_iff.1 hs
  obtain ⟨hi', rfl⟩ := List.getElem?_eq_some_iff.1 hs'
  exact List.pairwise_iff_getElem.1 (pairwise_spans 1 source) i (i + 1) hi hi' (Nat.lt_succ_self i)

end Span

/-- The positions that the comments of the source begin and end at. -/
def ranges (source : Text) : List (ℕ × ℕ) :=
  (spans 1 source).map fun s => (s.start source, s.stop source)

theorem pairwise_ranges (source : Text) :
    (ranges source).Pairwise fun r r' => r.2 ≤ r'.1 := by
  rw [ranges, List.pairwise_map]
  refine (pairwise_spans 1 source).imp fun h => ?_
  have hlen := h.length_le
  simp only [Span.start, Span.stop]
  omega

/-- Each position of an opening delimiter, with the reason why it begins no further comment. -/
theorem ranges_cases {i : ℕ} (hi : OccursAt openDelimiter source i) :
    (∃ r ∈ ranges source, r.1 ≤ i ∧ i < r.2) ∨ OccursAt emptyComment source i ∨
      (∃ j, i = j + 3 ∧ OccursAt emptyComment source j) ∨
      ∀ j, i + 3 ≤ j → ¬ OccursAt closeDelimiter source j := by
  have hle : i + 3 ≤ source.length := by
    have hlen : 3 ≤ (source.drop i).length := List.IsPrefix.length_le hi
    rw [List.length_drop] at hlen
    omega
  rcases opening_cases (List.drop_suffix i source) hi 1 with ⟨s, hs, hu, hlt⟩ | h | ⟨v, hv⟩ | h
  · have hge := hu.length_le
    rw [List.length_drop] at hge hlt
    refine .inl ⟨_, List.mem_map_of_mem hs, ?_, ?_⟩
    · simp only [Span.start]
      omega
    · simp only [Span.stop]
      omega
  · exact .inr (.inl h)
  · refine .inr (.inr (.inl ⟨v.length, ?_, ?_⟩))
    · have hlen := congrArg List.length hv
      simp only [List.length_append, List.length_drop, openDelimiter, List.length_cons,
        List.length_nil] at hlen
      omega
    · -- the slash that begins this opening delimiter follows the stars of the one before
      obtain ⟨w, hw⟩ := hi
      rw [← hv, occursAt_append_length, ← hw]
      exact ⟨['*', '*'] ++ w, rfl⟩
  · rw [List.drop_drop, infix_drop_iff] at h
    exact .inr (.inr (.inr fun j hj hclose => h ⟨j, hj, hclose⟩))

/-! ## Texts by position -/

/-- The text of a comment that is given with both its delimiters: the closing one stays where it is
if nothing but stars shares its line, and gets a line of its own otherwise. -/
def settled (raw : Text) : Text :=
  let body := raw.take (raw.length - closeDelimiter.length)
  if (trim (lastLine body)).all (· == '*') then raw
  else trimEnd body ++ ['\n', ' '] ++ closeDelimiter

theorem Span.settle_eq_settled (s : Span) : s.settle = settled s.raw := by
  have hbody : s.raw.take (s.raw.length - closeDelimiter.length) = s.body := by
    simp [Span.raw]
  rw [settled, hbody]
  rfl

/-- **The comments of a source by position.** They stand one after the other, each from an opening
delimiter without a slash after it to the first closing delimiter, with the text and the line that
follow from where it stands. Any other opening delimiter stands inside one of them, or belongs to
an empty comment, or nothing closes it. -/
theorem Comment.exists_ranges_scan (source : Text) :
    ∃ ranges : List (ℕ × ℕ),
      ranges.Pairwise (fun r r' => r.2 ≤ r'.1) ∧
      List.Forall₂ (fun r c => Stands source r.1 r.2 ∧ c.text = settled (source.extract r.1 r.2) ∧
        c.line = 1 + (source.take r.1).count '\n') ranges (scan source) ∧
      ∀ i, OccursAt openDelimiter source i →
        (∃ r ∈ ranges, r.1 ≤ i ∧ i < r.2) ∨ OccursAt emptyComment source i ∨
          (∃ j, i = j + 3 ∧ OccursAt emptyComment source j) ∨
          ∀ j, i + 3 ≤ j → ¬ OccursAt closeDelimiter source j := by
  refine ⟨ranges source, pairwise_ranges source, ?_, fun i => ranges_cases⟩
  rw [ranges, scan, List.forall₂_map_left_iff, List.forall₂_map_right_iff, List.forall₂_same]
  intro s hs
  obtain ⟨before, hsource, hline⟩ := exists_eq_append_of_mem_spans hs
  have hstands := (wellFormed_of_mem_spans hs).stands hsource
  have hextract : source.extract before.length (before.length + s.raw.length) = s.raw := by
    simp [hsource]
  have hbefore : source.take before.length = before := by
    rw [hsource, List.take_left]
  dsimp only
  rw [Span.start_eq hsource, Span.stop_eq hsource, hextract, hbefore]
  exact ⟨hstands, s.settle_eq_settled, hline⟩

/-- An empty comment whose slash begins an opening delimiter, a comment of stars, and an opening
delimiter that nothing closes. -/
example : Comment.scan "/**/** a */ /***/\n/**".toList =
    [⟨1, "/**\n */".toList, none⟩] := by decide +kernel

end DocComments
