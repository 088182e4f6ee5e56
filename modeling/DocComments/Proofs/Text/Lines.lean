import DocComments.Proofs.Text.Search
import DocComments.Text.Lines
import Mathlib.Data.List.DropRight

/-!
# Texts and their lines

A text that ends a line can be followed by any text, and the lines of both are the lines of the one
and then those of the other. A line that is written with a line feed is read back, unless it ends
in a carriage return.

* `lines_append` cuts the lines of a text at the end of a line, and `lines_line` reads one line.
* `beforeLastLine` is the text without its last line; `lastLine_append` reads the last line back.
* `infix_of_mem_lines`: a line is a part of its text.
* `joinLines_splitOn`, `splitOn_joinLines` and `splitOn_flatMap_newline`: a text is cut at its line
  feeds and put together again.
* `infix_joinLines_iff`: what occurs in texts put on lines occurs in one of them.
-/

namespace DocComments.Text

variable {t l u pat : Text} {c : Char}

/-! ## Reading lines -/

theorem lines_cons (hc : c ≠ '\n') (hr : c = '\r' → t.head? ≠ some '\n') :
    lines (c :: t) = (c :: (lines t).headD []) :: (lines t).tail := by
  rw [lines]
  · split <;> simp_all
  · exact hc
  · rintro t' rfl rfl
    exact hr rfl rfl

theorem lines_ne_nil (ht : t ≠ []) : lines t ≠ [] := by
  rw [lines_eq_cons ht]
  exact List.cons_ne_nil _ _

/-- A line that is written with a line feed is read back. -/
theorem lines_line (hn : '\n' ∉ l) (hr : l.getLast? ≠ some '\r') (t : Text) :
    lines (l ++ '\n' :: t) = l :: lines t := by
  induction l with
  | nil => simp [lines]
  | cons c l ih =>
    simp only [List.mem_cons, not_or] at hn
    have hc : c ≠ '\n' := fun h => hn.1 h.symm
    rw [List.cons_append, lines_cons hc]
    · cases l with
      | nil => simp [lines]
      | cons d l =>
        rw [ih hn.2 (by simpa using hr)]
        rfl
    · rintro rfl
      cases l with
      | nil => simp at hr
      | cons d l => simpa using fun h : d = '\n' => hn.2 (by simp [h])

/-- A carriage return before the line feed belongs to the end of the line. -/
theorem lines_line_return (hn : '\n' ∉ l) (t : Text) :
    lines (l ++ '\r' :: '\n' :: t) = l :: lines t := by
  induction l with
  | nil => simp [lines]
  | cons c l ih =>
    simp only [List.mem_cons, not_or] at hn
    rw [List.cons_append, lines_cons fun h => hn.1 h.symm, ih hn.2]
    · rfl
    · intro _
      cases l with
      | nil => simp
      | cons d l => simpa using fun h : d = '\n' => hn.2 (by simp [h])

theorem lines_of_not_mem (hn : '\n' ∉ l) (hl : l ≠ []) : lines l = [l] := by
  induction l with
  | nil => exact absurd rfl hl
  | cons c l ih =>
    simp only [List.mem_cons, not_or] at hn
    have hc : c ≠ '\n' := fun h => hn.1 h.symm
    rw [lines_cons hc fun _ h => hn.2 (List.mem_of_mem_head? h)]
    cases l with
    | nil => simp [lines]
    | cons d l => rw [ih hn.2 (List.cons_ne_nil d l)]; rfl

theorem lines_append_newline (t u : Text) :
    lines (t ++ '\n' :: u) = lines (t ++ ['\n']) ++ lines u := by
  induction t with
  | nil => simp [lines]
  | cons c t ih =>
    by_cases hc : c = '\n'
    · subst hc
      simp [lines, ih]
    by_cases hr : c = '\r' ∧ (t = [] ∨ t.head? = some '\n')
    · -- the carriage return belongs to a line feed on both sides
      obtain ⟨rfl, rfl | ht⟩ := hr
      · simp [lines]
      · obtain ⟨t', rfl⟩ := List.head?_eq_some_iff.1 ht
        simpa [lines] using ih
    · have hhead : ∀ v, c = '\r' → (t ++ '\n' :: v).head? ≠ some '\n' := by
        intro v hcr
        rw [not_and, not_or] at hr
        obtain ⟨hnil, hhead⟩ := hr hcr
        obtain ⟨d, t', rfl⟩ := List.exists_cons_of_ne_nil hnil
        simpa using hhead
      have hne : lines (t ++ ['\n']) ≠ [] := lines_ne_nil (by simp)
      rw [List.cons_append, List.cons_append, lines_cons hc (hhead u), lines_cons hc (hhead []), ih]
      obtain ⟨l, ls, hls⟩ := List.exists_cons_of_ne_nil hne
      rw [hls]
      rfl

/-- The text ends where a line ends. -/
def EndsLine (t : Text) : Prop :=
  t = [] ∨ t.getLast? = some '\n'

theorem endsLine_append_newline (t : Text) : EndsLine (t ++ ['\n']) := by
  right
  simp

/-- **Lines go on after the end of a line.** -/
theorem lines_append (ht : EndsLine t) (u : Text) : lines (t ++ u) = lines t ++ lines u := by
  rcases ht with rfl | ht
  · simp [lines]
  · obtain ⟨t', rfl⟩ := List.getLast?_eq_some_iff.1 ht
    rw [List.append_assoc, List.singleton_append, lines_append_newline]

theorem EndsLine.append (ht : EndsLine t) (hu : EndsLine u) : EndsLine (t ++ u) := by
  rcases hu with rfl | hu
  · rwa [List.append_nil]
  · right
    rw [List.getLast?_append, hu]
    rfl

theorem endsLine_flatMap {α : Type} {f : α → Text} {xs : List α} (h : ∀ x ∈ xs, EndsLine (f x)) :
    EndsLine (xs.flatMap f) := by
  induction xs with
  | nil => exact .inl rfl
  | cons x xs ih =>
    obtain ⟨hx, hxs⟩ := List.forall_mem_cons.1 h
    rw [List.flatMap_cons]
    exact hx.append (ih hxs)

theorem lines_flatMap {α : Type} {f : α → Text} {xs : List α} (h : ∀ x ∈ xs, EndsLine (f x)) :
    lines (xs.flatMap f) = xs.flatMap fun x => lines (f x) := by
  induction xs with
  | nil => simp [lines]
  | cons x xs ih =>
    obtain ⟨hx, hxs⟩ := List.forall_mem_cons.1 h
    rw [List.flatMap_cons, List.flatMap_cons, lines_append hx, ih hxs]

/-- What occurs in texts that end their lines occurs in one of them. -/
theorem infix_append_iff_of_endsLine (ht : EndsLine t) (hpat : pat ≠ []) (hn : '\n' ∉ pat) :
    pat <:+: t ++ u ↔ pat <:+: t ∨ pat <:+: u := by
  rcases ht with rfl | ht
  · simp [hpat]
  · obtain ⟨t', rfl⟩ := List.getLast?_eq_some_iff.1 ht
    rw [List.append_assoc, List.singleton_append, infix_append_cons_iff hpat hn,
      infix_append_singleton_iff hpat hn]

theorem infix_flatMap_iff {α : Type} {f : α → Text} {xs : List α} (h : ∀ x ∈ xs, EndsLine (f x))
    (hpat : pat ≠ []) (hn : '\n' ∉ pat) : pat <:+: xs.flatMap f ↔ ∃ x ∈ xs, pat <:+: f x := by
  induction xs with
  | nil => simp [hpat]
  | cons x xs ih =>
    obtain ⟨hx, hxs⟩ := List.forall_mem_cons.1 h
    rw [List.flatMap_cons, infix_append_iff_of_endsLine hx hpat hn, ih hxs,
      List.exists_mem_cons_iff]

/-! ## The last line -/

/-- The text before its last line. -/
def beforeLastLine (t : Text) : Text :=
  dropEndWhile (· != '\n') t

theorem beforeLastLine_append_lastLine (t : Text) : beforeLastLine t ++ lastLine t = t :=
  dropEndWhile_append_takeEndWhile _ t

theorem endsLine_beforeLastLine (t : Text) : EndsLine (beforeLastLine t) := by
  by_cases h : beforeLastLine t = []
  · exact .inl h
  · right
    have hlast : ¬ ((beforeLastLine t).getLast h != '\n') = true :=
      List.rdropWhile_last_not (· != '\n') t h
    rw [List.getLast?_eq_some_getLast h]
    simpa using hlast

theorem lastLine_append (ht : EndsLine t) (hl : '\n' ∉ l) : lastLine (t ++ l) = l := by
  have hall : ∀ c ∈ l.reverse, (c != '\n') = true := by
    intro c hc
    have hne : c ≠ '\n' := fun h => hl (h ▸ List.mem_reverse.1 hc)
    simpa using hne
  have hstop : t.reverse.takeWhile (· != '\n') = [] := by
    rcases ht with rfl | ht
    · rfl
    · obtain ⟨t', rfl⟩ := List.getLast?_eq_some_iff.1 ht
      simp
  rw [lastLine, takeEndWhile, List.reverse_append, List.takeWhile_append_of_pos hall, hstop,
    List.append_nil, List.reverse_reverse]

/-- The last line goes on with what has no line feed. -/
theorem lastLine_append_of_not_mem (hu : '\n' ∉ u) (t : Text) :
    lastLine (t ++ u) = lastLine t ++ u := by
  have hn : '\n' ∉ lastLine t ++ u := by
    rw [List.mem_append, not_or]
    exact ⟨newline_not_mem_lastLine t, hu⟩
  conv_lhs => rw [← beforeLastLine_append_lastLine t]
  rw [List.append_assoc, lastLine_append (endsLine_beforeLastLine t) hn]

theorem lastLine_suffix_lastLine_append (t u : Text) : lastLine u <:+ lastLine (t ++ u) := by
  conv_rhs => rw [← beforeLastLine_append_lastLine u]
  rw [← List.append_assoc, lastLine_append_of_not_mem (newline_not_mem_lastLine u)]
  exact List.suffix_append ..

/-! ## Lines as parts of a text -/

theorem cutLine_prefix_self (t : Text) : (cutLine t).1 <+: t := by
  fun_induction cutLine t with
  | case1 => exact List.prefix_refl _
  | case2 t | case3 t => exact List.nil_prefix
  | case4 c t _ _ ih => exact List.cons_prefix_cons.2 ⟨rfl, ih⟩

theorem cutLine_suffix_self (t : Text) : (cutLine t).2 <:+ t := by
  fun_induction cutLine t with
  | case1 => exact List.suffix_refl _
  | case2 t => exact List.suffix_cons _ t
  | case3 t => exact (List.suffix_cons _ t).trans (List.suffix_cons ..)
  | case4 c t _ _ ih => exact ih.trans (List.suffix_cons c t)

/-- **A line is a part of its text.** -/
theorem infix_of_mem_lines (h : l ∈ lines t) : l <:+: t := by
  induction hn : t.length using Nat.strong_induction_on generalizing t with
  | _ n ih =>
    by_cases ht : t = []
    · subst ht
      simp [lines] at h
    · rw [lines_eq_cons ht] at h
      rcases List.mem_cons.1 h with rfl | h
      · exact (cutLine_prefix_self t).isInfix
      · have hpos := List.length_pos_iff.2 ht
        have hlen := length_cutLine_le t
        exact (ih _ (by omega) h rfl).trans (cutLine_suffix_self t).isInfix

/-! ## Joined lines -/

theorem joinLines_cons {ls : List Text} (hls : ls ≠ []) (l : Text) :
    joinLines (l :: ls) = l ++ '\n' :: joinLines ls := by
  rw [joinLines, List.intercalate_cons_of_ne_nil hls, List.append_assoc]
  rfl

theorem joinLines_singleton (l : Text) : joinLines [l] = l :=
  List.intercalate_singleton

theorem joinLines_append {ls ms : List Text} (hls : ls ≠ []) (hms : ms ≠ []) :
    joinLines (ls ++ ms) = joinLines ls ++ '\n' :: joinLines ms := by
  induction ls with
  | nil => exact absurd rfl hls
  | cons l ls ih =>
    rw [List.cons_append]
    by_cases hnil : ls = []
    · rw [hnil, List.nil_append, joinLines_cons hms, joinLines_singleton]
    · rw [joinLines_cons (by simp [hnil]), joinLines_cons hnil, ih hnil, List.append_assoc,
        List.cons_append]

/-- Joined lines, the last of which ends too. -/
theorem joinLines_append_newline {ls : List Text} (hls : ls ≠ []) :
    joinLines ls ++ ['\n'] = ls.flatMap (· ++ ['\n']) := by
  induction ls with
  | nil => exact absurd rfl hls
  | cons l ls ih =>
    by_cases hnil : ls = []
    · rw [hnil, joinLines_singleton, List.flatMap_singleton]
    · rw [joinLines_cons hnil, List.append_assoc, List.cons_append, ih hnil, List.flatMap_cons,
        List.append_assoc, List.singleton_append]

/-- What stands before the first line stands before them all. -/
theorem joinLines_append_cons (t l : Text) (ls : List Text) :
    joinLines ((t ++ l) :: ls) = t ++ joinLines (l :: ls) := by
  by_cases hnil : ls = []
  · rw [hnil, joinLines_singleton, joinLines_singleton]
  · rw [joinLines_cons hnil, joinLines_cons hnil, List.append_assoc]

theorem joinLines_splitOn (t : Text) : joinLines (t.splitOn '\n') = t :=
  List.intercalate_splitOn '\n'

theorem splitOn_joinLines {ls : List Text} (hls : ls ≠ []) (h : ∀ l ∈ ls, '\n' ∉ l) :
    (joinLines ls).splitOn '\n' = ls :=
  List.splitOn_intercalate '\n' h hls

/-- Lines that are written with a line feed each are cut apart again, and nothing stands behind the
last line feed. -/
theorem splitOn_flatMap_newline {ls : List Text} (h : ∀ l ∈ ls, '\n' ∉ l) :
    (ls.flatMap (· ++ ['\n'])).splitOn '\n' = ls ++ [[]] := by
  induction ls with
  | nil => rfl
  | cons l ls ih =>
    obtain ⟨hl, hls⟩ := List.forall_mem_cons.1 h
    rw [List.flatMap_cons, List.append_assoc, List.singleton_append,
      List.splitOn_append_cons_self_of_not_mem hl, ih hls, List.cons_append]

theorem not_mem_of_mem_splitOn {sep : Char} (h : l ∈ t.splitOn sep) : sep ∉ l := by
  induction t generalizing l with
  | nil => simp_all
  | cons c t ih =>
    obtain ⟨l', ls, hls⟩ := List.exists_cons_of_ne_nil (List.splitOn_ne_nil sep t)
    rw [hls] at ih
    rw [List.splitOn_cons_eq_if_modifyHead, hls] at h
    split at h
    · rcases List.mem_cons.1 h with rfl | h
      · simp
      · exact ih h
    · next hc =>
      rw [List.modifyHead_cons] at h
      rcases List.mem_cons.1 h with rfl | h
      · rw [List.mem_cons, not_or]
        exact ⟨fun hn => hc (by simp [← hn]), ih (List.mem_cons_self ..)⟩
      · exact ih (List.mem_cons_of_mem _ h)

/-- What occurs in lines that are joined occurs in one of them. -/
theorem infix_joinLines_iff {ls : List Text} (hpat : pat ≠ []) (hn : '\n' ∉ pat) :
    pat <:+: joinLines ls ↔ ∃ l ∈ ls, pat <:+: l := by
  induction ls with
  | nil => simp [joinLines, hpat]
  | cons l ls ih =>
    by_cases hls : ls = []
    · subst hls
      simp [joinLines_singleton]
    · rw [joinLines_cons hls, infix_append_cons_iff hpat hn, ih, List.exists_mem_cons_iff]

end DocComments.Text
