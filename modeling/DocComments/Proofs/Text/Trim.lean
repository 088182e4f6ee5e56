import DocComments.Text.Blank
import DocComments.Text.Word
import Mathlib.Data.List.DropRight

/-!
# Trimmed texts

Trimming removes the blanks at both ends of a text and nothing else, so a text is trimmed exactly
when it has no blank at either end.

* `AllBlank w` says that a text is made of blanks; such a text is lost at the ends of another
  (`trimStart_append`, `trimEnd_append`).
* `trim_eq_self_iff` says when trimming changes nothing, and `trim_trim` that it does so after
  trimming.
* `count_trim`: trimming removes no character that is not blank.
* `isBlank_of_isWord` keeps the word characters apart from the blanks, `isWord_star` from the star.
-/

namespace DocComments.Text

variable {t w : Text} {c : Char}

/-- The text is made of blanks. -/
def AllBlank (w : Text) : Prop :=
  ∀ c ∈ w, isBlank c = true

instance : DecidablePred AllBlank :=
  List.decidableBAll _

theorem allBlank_nil : AllBlank [] :=
  List.forall_mem_nil _

theorem allBlank_space : AllBlank [' '] := by decide

theorem allBlank_newline : AllBlank ['\n'] := by decide

theorem dropEndWhile_eq_rdropWhile (p : Char → Bool) (t : Text) :
    dropEndWhile p t = t.rdropWhile p :=
  rfl

/-! ## One end -/

theorem trimStart_cons_of_isBlank (hc : isBlank c = true) (t : Text) :
    trimStart (c :: t) = trimStart t :=
  List.dropWhile_cons_of_pos hc

theorem trimStart_cons_of_not_isBlank (hc : isBlank c = false) (t : Text) :
    trimStart (c :: t) = c :: t := by
  rw [trimStart, List.dropWhile_cons_of_neg (by simp [hc])]

theorem trimStart_eq_self_iff : trimStart t = t ↔ ∀ c ∈ t.head?, isBlank c = false := by
  cases t with
  | nil => simp [trimStart]
  | cons c t => simp [trimStart, List.dropWhile_eq_self_iff]

theorem trimEnd_eq_self_iff : trimEnd t = t ↔ ∀ c ∈ t.getLast?, isBlank c = false := by
  rw [trimEnd, dropEndWhile_eq_rdropWhile, List.rdropWhile_eq_self_iff]
  constructor
  · intro h c hc
    obtain ⟨hne, rfl⟩ := List.mem_getLast?_eq_getLast hc
    simpa using h hne
  · intro h hne
    simpa using h _ (List.getLast?_eq_some_getLast hne)

theorem getLast?_ne_of_trimEnd_eq (h : trimEnd t = t) (hc : isBlank c = true) :
    t.getLast? ≠ some c := by
  intro hlast
  have hend := trimEnd_eq_self_iff.1 h c hlast
  rw [hc] at hend
  cases hend

theorem trimStart_append (hw : AllBlank w) (t : Text) : trimStart (w ++ t) = trimStart t :=
  List.dropWhile_append_of_pos hw

theorem trimEnd_append (t : Text) (hw : AllBlank w) : trimEnd (t ++ w) = trimEnd t := by
  have hrev : AllBlank w.reverse := fun c hc => hw c (List.mem_reverse.1 hc)
  rw [trimEnd, dropEndWhile, List.reverse_append, List.dropWhile_append_of_pos hrev]
  rfl

theorem trimStart_append_of_ne_nil (ht : t ≠ []) (h : trimStart t = t) (u : Text) :
    trimStart (t ++ u) = t ++ u := by
  rw [trimStart_eq_self_iff] at h ⊢
  rwa [List.head?_append_of_ne_nil t ht]

theorem trimEnd_append_of_ne_nil (u : Text) (ht : t ≠ []) (h : trimEnd t = t) :
    trimEnd (u ++ t) = u ++ t := by
  rw [trimEnd_eq_self_iff] at h ⊢
  rwa [List.getLast?_append_of_ne_nil u ht]

theorem trimStart_eq_nil_iff : trimStart t = [] ↔ AllBlank t := by
  rw [trimStart, List.dropWhile_eq_nil_iff]
  rfl

theorem trimStart_append_right (hw : AllBlank w) (t : Text) :
    trimStart (t ++ w) = if trimStart t = [] then [] else trimStart t ++ w := by
  rw [trimStart, List.dropWhile_append]
  simp only [List.isEmpty_iff]
  rw [← trimStart, ← trimStart, trimStart_eq_nil_iff.2 hw]

/-- Where a text is not blank, nothing behind it is trimmed at the start. -/
theorem trimStart_append_of_not_allBlank (h : ¬ AllBlank t) (u : Text) :
    trimStart (t ++ u) = trimStart t ++ u := by
  rw [← trimStart_eq_nil_iff] at h
  rw [trimStart, List.dropWhile_append, if_neg (by rwa [List.isEmpty_iff])]
  rfl

theorem trimStart_suffix_self (t : Text) : trimStart t <:+ t :=
  List.dropWhile_suffix _

theorem trimEnd_prefix_self (t : Text) : trimEnd t <+: t :=
  List.rdropWhile_prefix isBlank t

@[simp]
theorem trimStart_trimStart (t : Text) : trimStart (trimStart t) = trimStart t :=
  List.dropWhile_idempotent isBlank t

@[simp]
theorem trimEnd_trimEnd (t : Text) : trimEnd (trimEnd t) = trimEnd t :=
  List.rdropWhile_idempotent isBlank t

/-- The blanks that `trimStart` removes. -/
theorem exists_eq_append_trimStart (t : Text) : ∃ w, AllBlank w ∧ t = w ++ trimStart t :=
  ⟨t.takeWhile isBlank, fun _ hc => List.mem_takeWhile_imp hc,
    List.takeWhile_append_dropWhile.symm⟩

/-- The blanks that `trimEnd` removes. -/
theorem exists_eq_trimEnd_append (t : Text) : ∃ w, AllBlank w ∧ t = trimEnd t ++ w :=
  ⟨takeEndWhile isBlank t, fun _ hc => List.mem_rtakeWhile_imp hc,
    (dropEndWhile_append_takeEndWhile isBlank t).symm⟩

/-- Behind a text that does not end in a blank, only what follows it is trimmed. -/
theorem trimEnd_append_left (h : trimEnd t = t) (u : Text) : trimEnd (t ++ u) = t ++ trimEnd u := by
  obtain ⟨w, hw, hu⟩ := exists_eq_trimEnd_append u
  conv_lhs => rw [hu, ← List.append_assoc, trimEnd_append _ hw]
  by_cases hnil : trimEnd u = []
  · rw [hnil, List.append_nil, h]
  · exact trimEnd_append_of_ne_nil t hnil (trimEnd_trimEnd u)

theorem trimEnd_cons_of_not_isBlank (hc : isBlank c = false) (t : Text) :
    trimEnd (c :: t) = c :: trimEnd t := by
  have hend : trimEnd [c] = [c] := trimEnd_eq_self_iff.2 (by simpa using hc)
  exact trimEnd_append_left hend t

/-- What holds no blank is not lost at the end. -/
theorem prefix_trimEnd_iff {pat : Text} (hpat : ∀ c ∈ pat, isBlank c = false) :
    pat <+: trimEnd t ↔ pat <+: t := by
  constructor
  · exact fun h => h.trans (trimEnd_prefix_self t)
  · rintro ⟨u, rfl⟩
    have hend : trimEnd pat = pat :=
      trimEnd_eq_self_iff.2 fun c hc => hpat c (List.mem_of_mem_getLast? hc)
    rw [trimEnd_append_left hend]
    exact List.prefix_append ..

/-! ## Both ends -/

/-- Trimming the end leaves a clear start alone. -/
theorem trimStart_trimEnd (h : trimStart t = t) : trimStart (trimEnd t) = trimEnd t := by
  rw [trimStart_eq_self_iff] at h ⊢
  intro c hc
  obtain ⟨u, hu⟩ := trimEnd_prefix_self t
  refine h c ?_
  rw [← hu, List.head?_append, Option.mem_def.1 hc]
  rfl

theorem trim_eq_trimEnd (h : trimStart t = t) : trim t = trimEnd t := by
  rw [trim, h]

theorem trimStart_trim (t : Text) : trimStart (trim t) = trim t :=
  trimStart_trimEnd (trimStart_trimStart t)

@[simp]
theorem trim_trim (t : Text) : trim (trim t) = trim t := by
  rw [trim_eq_trimEnd (trimStart_trim t), trim, trimEnd_trimEnd]

/-- **A text is trimmed exactly when neither end is blank.** -/
theorem trim_eq_self_iff : trim t = t ↔ trimStart t = t ∧ trimEnd t = t := by
  constructor
  · intro h
    have hs : trimStart t = t := by rw [← h, trimStart_trim]
    exact ⟨hs, by rw [← trim_eq_trimEnd hs, h]⟩
  · rintro ⟨hs, he⟩
    rw [trim_eq_trimEnd hs, he]

theorem trim_append_left (hw : AllBlank w) (t : Text) : trim (w ++ t) = trim t := by
  rw [trim, trimStart_append hw, trim]

theorem trim_append_right (t : Text) (hw : AllBlank w) : trim (t ++ w) = trim t := by
  rw [trim, trim, trimStart, List.dropWhile_append]
  split
  · next hnil =>
    have ht : trimStart t = [] := List.isEmpty_iff.1 hnil
    rw [← trimStart, trimStart_eq_nil_iff.2 hw, ht]
  · exact trimEnd_append _ hw

theorem trim_infix_self (t : Text) : trim t <:+: t :=
  (trimEnd_prefix_self _).isInfix.trans (trimStart_suffix_self t).isInfix

/-- What trimming removes. -/
theorem exists_eq_append_trim_append (t : Text) :
    ∃ w₁ w₂, AllBlank w₁ ∧ AllBlank w₂ ∧ t = w₁ ++ trim t ++ w₂ := by
  obtain ⟨w₁, h₁, ht₁⟩ := exists_eq_append_trimStart t
  obtain ⟨w₂, h₂, ht₂⟩ := exists_eq_trimEnd_append (trimStart t)
  exact ⟨w₁, w₂, h₁, h₂, by rw [List.append_assoc, trim, ← ht₂, ← ht₁]⟩

/-! ## Counting characters -/

theorem AllBlank.count_eq_zero {w : Text} (hw : AllBlank w) (hc : isBlank c = false) :
    w.count c = 0 := by
  rw [List.count_eq_zero]
  intro hmem
  rw [hw c hmem] at hc
  cases hc

theorem count_trimEnd (hc : isBlank c = false) (t : Text) : (trimEnd t).count c = t.count c := by
  obtain ⟨w, hw, ht⟩ := exists_eq_trimEnd_append t
  conv_rhs => rw [ht, List.count_append, hw.count_eq_zero hc, Nat.add_zero]

theorem count_trim (hc : isBlank c = false) (t : Text) : (trim t).count c = t.count c := by
  obtain ⟨w₁, w₂, hw₁, hw₂, ht⟩ := exists_eq_append_trim_append t
  conv_rhs => rw [ht, List.count_append, List.count_append, hw₁.count_eq_zero hc,
    hw₂.count_eq_zero hc, Nat.add_zero, Nat.zero_add]

/-! ## Word characters -/

theorem isBlank_of_isWord (h : isWord c = true) : isBlank c = false := by
  have hblanks : blanks.all (fun d => !isWord d) = true := by decide +kernel
  by_contra hc
  have hword := List.all_eq_true.1 hblanks c (isBlank_iff_mem.1 (by simpa using hc))
  simp [h] at hword

theorem isWord_space : isWord ' ' = false := by
  rw [Bool.eq_false_iff]
  intro hword
  cases isBlank_of_isWord hword

theorem isWord_star : isWord '*' = false := by
  decide +kernel

/-- A word has no blank to trim. -/
theorem trim_of_isWord (h : ∀ c ∈ t, isWord c = true) : trim t = t := by
  rw [trim_eq_self_iff, trimStart_eq_self_iff, trimEnd_eq_self_iff]
  exact ⟨fun c hc => isBlank_of_isWord (h c (List.mem_of_mem_head? hc)),
    fun c hc => isBlank_of_isWord (h c (List.mem_of_mem_getLast? hc))⟩

end DocComments.Text
