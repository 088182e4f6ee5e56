import DocComments.Document.CodeSpan
import DocComments.Proofs.Comment.Documented
import Mathlib.Order.MinMax

/-!
# Code spans are read back

The fence of a code span is longer than every run of backticks in the text, and it touches none of
them, as a space stands between the fence and a backtick at an end of the text. So the two fences
are the longest runs of the span, and the text between them is found again. A text that begins and
ends with a space would lose both; what a comment documents is no such text.

* `fence_infix_iff`: `longestFence` is the length of the longest run.
* `IsRun` says where a run of backticks stands that goes on to neither side.
* `readCodeSpan?_fenced` reads what stands between two fences.
* `codeSpan_decodable` says what a code span looks like and that it is read back.
-/

namespace DocComments

open Text

variable {t inner before after : Text} {c : Char} {n m : ℕ}

/-! ## The longest run -/

theorem isBacktick_iff : isBacktick c = true ↔ c = backtick :=
  beq_iff_eq

@[simp]
theorem length_fence (n : ℕ) : (fence n).length = n :=
  List.length_replicate

theorem isBacktick_of_mem_fence (h : c ∈ fence n) : isBacktick c = true :=
  isBacktick_iff.2 (List.eq_of_mem_replicate h)

theorem fence_ne_nil (hn : 0 < n) : fence n ≠ [] :=
  List.ne_nil_of_length_pos (by rwa [length_fence])

theorem fence_append_backtick (n : ℕ) (t : Text) :
    fence n ++ backtick :: t = fence (n + 1) ++ t := by
  rw [fence, fence, List.replicate_succ', List.append_assoc, List.singleton_append]

theorem fence_infix_fence_iff : fence n <:+: fence m ↔ n ≤ m := by
  rw [fence, fence, List.infix_replicate_iff, List.length_replicate, and_iff_left rfl]

/-- A shorter run is a part of a longer one. -/
theorem fence_infix_of_le (h : n ≤ m) (hm : fence m <:+: t) : fence n <:+: t :=
  (fence_infix_fence_iff.2 h).trans hm

/-- **What the search for the longest run keeps**: a run as long as the one before the text may grow
with the text, the longest one before that may not. -/
theorem le_longestFence_iff {current longest : ℕ} :
    n ≤ longestFence current longest t ↔ n ≤ longest ∨ fence n <:+: fence current ++ t := by
  induction t generalizing current longest with
  | nil => rw [longestFence, le_max_iff, List.append_nil, fence_infix_fence_iff, or_comm]
  | cons c t ih =>
    rw [longestFence]
    cases hc : isBacktick c with
    | true =>
      obtain rfl := isBacktick_iff.1 hc
      rw [if_pos rfl, ih, fence_append_backtick]
    | false =>
      rw [if_neg Bool.false_ne_true, ih]
      rcases Nat.eq_zero_or_pos n with rfl | hn
      · simp
      · have hmem : c ∉ fence n := fun h => by simp [isBacktick_of_mem_fence h] at hc
        have hnil : fence 0 ++ t = t := rfl
        rw [infix_append_cons_iff (fence_ne_nil hn) hmem, fence_infix_fence_iff, le_max_iff, hnil,
          or_comm (a := n ≤ current), or_assoc]

/-- **The longest run.** -/
theorem fence_infix_iff : fence n <:+: t ↔ n ≤ longestFence 0 0 t := by
  rw [le_longestFence_iff]
  constructor
  · exact .inr
  · rintro (hn | h)
    · rw [Nat.le_zero.1 hn]
      exact List.nil_infix
    · exact h

/-! ## Runs and where they stand -/

/-- Between `before` and `after` the text has a run of `n` backticks that goes on to neither
side. -/
structure IsRun (t before : Text) (n : ℕ) (after : Text) : Prop where
  /-- The three make up the text. -/
  eq_append : t = before ++ fence n ++ after
  /-- The run is not empty. -/
  pos : 0 < n
  /-- It begins where it says. -/
  before_ne : before.getLast? ≠ some backtick
  /-- It ends where it says. -/
  after_ne : after.head? ≠ some backtick

theorem getLast?_of_prefix_fence (h : t <+: fence n) (ht : t ≠ []) :
    t.getLast? = some backtick := by
  obtain ⟨-, heq⟩ := List.prefix_replicate_iff.1 h
  rw [heq, List.getLast?_replicate, if_neg (by simpa using ht)]

theorem head?_of_suffix_fence (h : t <:+ fence n) (ht : t ≠ []) : t.head? = some backtick := by
  obtain ⟨-, heq⟩ := List.suffix_replicate_iff.1 h
  rw [heq, List.head?_replicate, if_neg (by simpa using ht)]

/-- A run that is neither the first nor the last thing between two fences lies inside. -/
theorem IsRun.infix_inner (h : IsRun (fence n ++ inner ++ fence n) before m after)
    (hbefore : before ≠ []) (hafter : after ≠ []) : fence m <:+: inner := by
  have heq := h.eq_append
  rw [List.append_assoc, List.append_assoc] at heq
  obtain ⟨b, hrest⟩ : ∃ b, inner ++ fence n = b ++ (fence m ++ after) := by
    rcases List.append_eq_append_iff.1 heq with ⟨b, -, hrest⟩ | ⟨b, hb, -⟩
    · exact ⟨b, hrest⟩
    · exact absurd (getLast?_of_prefix_fence ⟨b, hb.symm⟩ hbefore) h.before_ne
  rw [← List.append_assoc] at hrest
  rcases List.append_eq_append_iff.1 hrest with ⟨a, -, ha⟩ | ⟨a, ha, -⟩
  · exact absurd (head?_of_suffix_fence ⟨a, ha.symm⟩ hafter) h.after_ne
  · exact ⟨b, a, ha.symm⟩

/-- The pieces of backticks between other characters; the first of them begins the text. -/
theorem exists_splitOnP_eq_cons (t : Text) :
    ∃ piece pieces, t.splitOnP (!isBacktick ·) = piece :: pieces ∧ piece <+: t ∧
      ∀ p ∈ piece :: pieces, p <:+: t ∧ p = fence p.length := by
  induction t with
  | nil => exact ⟨[], [], rfl, List.nil_prefix, by simp [fence]⟩
  | cons c t ih =>
    obtain ⟨piece, pieces, hsplit, hprefix, hpieces⟩ := ih
    rw [List.splitOnP_cons_eq_if_modifyHead, hsplit]
    have hlater : ∀ p ∈ piece :: pieces, p <:+: c :: t ∧ p = fence p.length := fun p hp =>
      ⟨(hpieces p hp).1.trans (List.suffix_cons c t).isInfix, (hpieces p hp).2⟩
    cases hc : isBacktick c with
    | false =>
      refine ⟨[], piece :: pieces, if_pos rfl, List.nil_prefix, List.forall_mem_cons.2 ⟨?_, hlater⟩⟩
      exact ⟨List.nil_infix, rfl⟩
    | true =>
      obtain rfl := isBacktick_iff.1 hc
      have hfirst : backtick :: piece <+: backtick :: t := List.cons_prefix_cons.2 ⟨rfl, hprefix⟩
      refine ⟨backtick :: piece, pieces, by simp, hfirst, List.forall_mem_cons.2 ⟨?_, ?_⟩⟩
      · refine ⟨hfirst.isInfix, ?_⟩
        rw [List.length_cons, fence, List.replicate_succ]
        exact congrArg _ (hpieces piece (List.mem_cons_self ..)).2
      · exact fun p hp => hlater p (List.mem_cons_of_mem _ hp)

/-- The runs that are listed occur. -/
theorem fence_infix_of_mem_fences (h : n ∈ fences t) : fence n <:+: t := by
  obtain ⟨piece, pieces, hsplit, -, hpieces⟩ := exists_splitOnP_eq_cons t
  rw [fences, hsplit] at h
  obtain ⟨p, hp, rfl⟩ := List.mem_map.1 (List.mem_filter.1 h).1
  rw [← (hpieces p hp).2]
  exact (hpieces p hp).1

/-! ## Between the fences -/

/-- **What stands between two fences is read**, if it neither begins nor ends with a backtick and
has no run that is as long. -/
theorem readCodeSpan?_fenced (hn : 0 < n) (hne : inner ≠ []) (hhead : inner.head? ≠ some backtick)
    (hinner : ¬ fence n <:+: inner) :
    readCodeSpan? (fence n ++ inner ++ fence n) = some (unpad inner) := by
  have hlength : ((fence n ++ inner ++ fence n).takeWhile isBacktick).length = n := by
    obtain ⟨c, rest, rfl⟩ := List.exists_cons_of_ne_nil hne
    have hc : isBacktick c = false := by
      rw [Bool.eq_false_iff, ne_eq, isBacktick_iff]
      rintro rfl
      exact hhead rfl
    rw [List.append_assoc, List.takeWhile_append_of_pos fun _ => isBacktick_of_mem_fence,
      List.cons_append, List.takeWhile_cons_of_neg (by simp [hc]), List.append_nil, length_fence]
  have hcut : ((fence n ++ inner ++ fence n).drop n).take
      ((fence n ++ inner ++ fence n).length - 2 * n) = inner := by
    have hlen : (fence n ++ inner ++ fence n).length - 2 * n = inner.length := by
      simp only [List.length_append, length_fence]
      omega
    rw [hlen, List.append_assoc, List.drop_left' (length_fence n), List.take_left]
  have hruns : ∀ run ∈ fences inner, run < n := by
    intro run hrun
    by_contra hle
    exact hinner (fence_infix_of_le (Nat.le_of_not_lt hle) (fence_infix_of_mem_fences hrun))
  rw [readCodeSpan?]
  simp only [hlength, hcut]
  rw [if_pos ⟨hn, trivial, hruns⟩]

/-- The length of the fence around a text. -/
def fenceLength (t : Text) : ℕ :=
  longestFence 0 0 t + 1

/-- Does a backtick begin or end the text? -/
def touchesFence (t : Text) : Bool :=
  t.head?.any isBacktick || t.getLast?.any isBacktick

/-- A text with a space at each end where it would touch the fence. -/
def padded (t : Text) : Text :=
  if touchesFence t then ' ' :: (t ++ [' ']) else t

theorem fenceLength_pos (t : Text) : 0 < fenceLength t :=
  Nat.succ_pos _

theorem codeSpan_eq (t : Text) :
    codeSpan t = fence (fenceLength t) ++ padded t ++ fence (fenceLength t) := by
  change fence (fenceLength t) ++ (if touchesFence t then [' '] else []) ++ t ++
    (if touchesFence t then [' '] else []) ++ fence (fenceLength t) = _
  rw [padded]
  split <;> simp

theorem fence_not_infix_padded (t : Text) : ¬ fence (fenceLength t) <:+: padded t := by
  have hlong : ¬ fence (fenceLength t) <:+: t := by
    rw [fence_infix_iff, fenceLength]
    omega
  have hne : fence (fenceLength t) ≠ [] := fence_ne_nil (fenceLength_pos t)
  have hspace : ' ' ∉ fence (fenceLength t) := fun h => by cases isBacktick_of_mem_fence h
  rw [padded]
  split
  · rwa [infix_cons_iff_of_not_mem hne hspace, infix_append_singleton_iff hne hspace]
  · exact hlong

theorem padded_ne_nil (ht : t ≠ []) : padded t ≠ [] := by
  rw [padded]
  split
  · exact List.cons_ne_nil _ _
  · exact ht

theorem head?_padded_ne (t : Text) : (padded t).head? ≠ some backtick := by
  rw [padded]
  split
  · exact fun h => by cases h
  · next htouch =>
    intro hhead
    exact htouch (by simp [touchesFence, hhead, isBacktick])

theorem getLast?_padded_ne (t : Text) : (padded t).getLast? ≠ some backtick := by
  rw [padded]
  split
  · rw [← List.cons_append, List.getLast?_concat]
    exact fun h => by cases h
  · next htouch =>
    intro hlast
    exact htouch (by simp [touchesFence, hlast, isBacktick])

/-- The text can be quoted as code: it is not empty, and a space stands at one end at most. -/
def Quotable (t : Text) : Prop :=
  t ≠ [] ∧ ¬ (t.head? = some ' ' ∧ t.getLast? = some ' ')

instance : DecidablePred Quotable :=
  fun _ => inferInstanceAs (Decidable (_ ∧ _))

/-- **The spaces that are added are removed**, and no others. -/
theorem unpad_padded (ht : Quotable t) : unpad (padded t) = t := by
  rw [padded]
  split
  · next htouch =>
    have hmem : ∃ c ∈ t, isBacktick c = true := by
      rw [touchesFence, Bool.or_eq_true, Option.any_eq_true, Option.any_eq_true] at htouch
      rcases htouch with ⟨c, hc, hback⟩ | ⟨c, hc, hback⟩
      · exact ⟨c, List.mem_of_mem_head? hc, hback⟩
      · exact ⟨c, List.mem_of_mem_getLast? hc, hback⟩
    have hother : (' ' :: (t ++ [' '])).any (· != ' ') = true := by
      obtain ⟨c, hc, hback⟩ := hmem
      refine List.any_eq_true.2 ⟨c, List.mem_cons_of_mem _ (List.mem_append_left _ hc), ?_⟩
      rw [isBacktick_iff.1 hback]
      decide
    have hlast : (' ' :: (t ++ [' '])).getLast? = some ' ' := by
      rw [← List.cons_append, List.getLast?_concat]
    rw [unpad, if_pos ⟨rfl, hlast, hother⟩, List.drop_one, List.tail_cons, List.dropLast_concat]
  · rw [unpad, if_neg fun h => ht.2 ⟨h.1, h.2.1⟩]

/-- **A code span is read back.** -/
theorem readCodeSpan?_codeSpan (ht : Quotable t) : readCodeSpan? (codeSpan t) = some t := by
  rw [codeSpan_eq, readCodeSpan?_fenced (fenceLength_pos t) (padded_ne_nil ht.1) (head?_padded_ne t)
    (fence_not_infix_padded t), unpad_padded ht]

/-- A text without blanks at its ends can be quoted. -/
theorem quotable_of_trim_eq (hne : t ≠ []) (htrim : trim t = t) : Quotable t := by
  refine ⟨hne, fun hspaces => ?_⟩
  have hblank := trimStart_eq_self_iff.1 (trim_eq_self_iff.1 htrim).1 ' ' hspaces.1
  revert hblank
  decide

/-! ## Code spans -/

/-- **A code span can be decoded.** Of a text with a space at one end at most, the span begins and
ends with runs of equal length, and every run between them is shorter. Without these two, and
without one space at each end of the rest where it has both and something else, the span is the text
again, so different such texts have different spans. What a comment of a source documents is such a
text. -/
theorem codeSpan_decodable :
    (∀ t, Quotable t → ∃ n inner,
      IsRun (codeSpan t) [] n (inner ++ fence n) ∧ IsRun (codeSpan t) (fence n ++ inner) n [] ∧
      (∀ before m after, IsRun (codeSpan t) before m after → before ≠ [] → after ≠ [] → m < n) ∧
      unpad inner = t ∧ readCodeSpan? (codeSpan t) = some t) ∧
    (∀ t u, Quotable t → Quotable u → codeSpan t = codeSpan u → t = u) ∧
    ∀ source, ∀ c ∈ Comment.scan source, ∀ target ∈ c.target, Quotable target := by
  refine ⟨fun t ht => ?_, fun t u ht hu heq => ?_, fun source c hc target htarget => ?_⟩
  · have hpos := fenceLength_pos t
    have hne := padded_ne_nil ht.1
    refine ⟨fenceLength t, padded t, ⟨?_, hpos, by simp, ?_⟩, ⟨?_, hpos, ?_, by simp⟩, ?_,
      unpad_padded ht, readCodeSpan?_codeSpan ht⟩
    · rw [codeSpan_eq, List.nil_append, List.append_assoc]
    · rw [List.head?_append_of_ne_nil _ hne]
      exact head?_padded_ne t
    · rw [codeSpan_eq, List.append_nil]
    · rw [List.getLast?_append_of_ne_nil _ hne]
      exact getLast?_padded_ne t
    · intro before m after hrun hbefore hafter
      rw [codeSpan_eq] at hrun
      by_contra hle
      exact fence_not_infix_padded t
        (fence_infix_of_le (Nat.le_of_not_lt hle) (hrun.infix_inner hbefore hafter))
  · have hread := readCodeSpan?_codeSpan ht
    rw [heq, readCodeSpan?_codeSpan hu] at hread
    exact (Option.some.inj hread).symm
  · obtain ⟨s, -, rfl⟩ := List.mem_map.1 hc
    have hafter : targetAfter? s.rest = some target := by rwa [← Span.target?_eq_targetAfter?]
    obtain ⟨hne, htrim, -⟩ := targetAfter?_spec hafter
    exact quotable_of_trim_eq hne htrim

/-- A space at one end and a backtick at the other. -/
theorem codeSpan_decodable_space :
    let t := " ``a`".toList
    Quotable t ∧ codeSpan t = "```  ``a` ```".toList ∧ readCodeSpan? (codeSpan t) = some t ∧
      (∃ n inner, IsRun (codeSpan t) [] n (inner ++ fence n) ∧ unpad inner = t) ∧
      ∀ u, Quotable u → codeSpan u = codeSpan t → u = t := by
  intro t
  have ht : Quotable t := by decide
  obtain ⟨hspan, hinj, -⟩ := codeSpan_decodable
  obtain ⟨n, inner, hfirst, -, -, hunpad, hread⟩ := hspan t ht
  exact ⟨ht, by decide, hread, ⟨n, inner, hfirst, hunpad⟩, fun u hu heq => hinj u t hu ht heq⟩

end DocComments
