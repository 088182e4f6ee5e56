import DocComments.Comment.Target
import DocComments.Proofs.Text.Lines
import DocComments.Proofs.Text.Trim

/-!
# The first line that is not blank

The first line of a text that is not blank begins where the blanks at the start of the text end,
whatever lines these blanks make, and it goes up to the next line feed.

* `headline?_eq` says so, and `headline?_spec` what the line looks like.
* `headline?_append_newline`: of two texts with a line feed between them the first has the line,
  unless it is blank.
-/

namespace DocComments.Text

variable {a t : Text} {c : Char}

/-- A line goes up to the first line feed, but for the carriage return that belongs to its end. -/
theorem exists_takeWhile_eq_cutLine_append (t : Text) :
    ∃ w, AllBlank w ∧ t.takeWhile (· != '\n') = (cutLine t).1 ++ w := by
  fun_induction cutLine t with
  | case1 => exact ⟨[], allBlank_nil, rfl⟩
  | case2 t => exact ⟨[], allBlank_nil, rfl⟩
  | case3 t => exact ⟨['\r'], by decide, rfl⟩
  | case4 c t hc _ ih =>
    obtain ⟨w, hw, htake⟩ := ih
    refine ⟨w, hw, ?_⟩
    rw [List.takeWhile_cons_of_pos (by simpa using hc), htake]
    rfl

theorem takeWhile_append_newline (a b : Text) :
    (a ++ '\n' :: b).takeWhile (· != '\n') = a.takeWhile (· != '\n') := by
  induction a with
  | nil => rfl
  | cons c a ih => rw [List.cons_append, List.takeWhile_cons, List.takeWhile_cons, ih]

/-- **The first line that is not blank**, by the blanks before it and the line feed after it. -/
theorem headline?_eq (t : Text) :
    headline? t = if trimStart t = [] then none
      else some (trimEnd ((trimStart t).takeWhile (· != '\n'))) := by
  rw [headline?]
  fun_induction lines t with
  | case1 => rfl
  | case2 t ih =>
    rw [trimStart_cons_of_isBlank (by decide), ← ih]
    rfl
  | case3 t ih =>
    rw [trimStart_cons_of_isBlank (by decide), trimStart_cons_of_isBlank (by decide), ← ih]
    rfl
  | case4 c t hc hr hnil ih =>
    obtain rfl : t = [] := by
      by_contra ht
      exact lines_ne_nil ht hnil
    cases hblank : isBlank c with
    | true =>
      rw [List.map_singleton, trim, trimStart_cons_of_isBlank hblank]
      rfl
    | false =>
      rw [List.map_singleton, trim, trimStart_cons_of_not_isBlank hblank,
        List.takeWhile_cons_of_pos (by simpa using hc), List.takeWhile_nil,
        trimEnd_cons_of_not_isBlank hblank]
      rfl
  | case5 c t hc hr l ls hls ih =>
    cases hblank : isBlank c with
    | true =>
      rw [trimStart_cons_of_isBlank hblank, ← ih, hls, List.map_cons, List.map_cons, trim,
        trimStart_cons_of_isBlank hblank, ← trim]
    | false =>
      have ht : t ≠ [] := by
        rintro rfl
        cases hls
      have hl : (cutLine t).1 = l := by
        rw [lines_eq_cons ht] at hls
        exact List.head_eq_of_cons_eq hls
      obtain ⟨w, hw, htake⟩ := exists_takeWhile_eq_cutLine_append t
      have hline : trim (c :: l) = c :: trimEnd l := by
        rw [trim, trimStart_cons_of_not_isBlank hblank, trimEnd_cons_of_not_isBlank hblank]
      rw [trimStart_cons_of_not_isBlank hblank, List.map_cons, hline,
        List.takeWhile_cons_of_pos (by simpa using hc), htake, hl,
        trimEnd_cons_of_not_isBlank hblank, trimEnd_append l hw]
      rfl

/-- The first line that is not blank is trimmed, and it is one line. -/
theorem headline?_spec {l : Text} (h : headline? t = some l) : l ≠ [] ∧ trim l = l ∧ '\n' ∉ l := by
  obtain ⟨line, hline, rfl⟩ := List.mem_map.1 (List.mem_of_find?_eq_some h)
  refine ⟨by simpa using List.find?_some h, trim_trim line, fun hn => ?_⟩
  exact newline_not_mem_of_mem_lines hline ((trim_infix_self line).subset hn)

/-- The first of two texts has the line, unless it is blank. -/
theorem headline?_append_newline (a b : Text) :
    headline? (a ++ '\n' :: b) = if AllBlank a then headline? b else headline? a := by
  rw [headline?_eq, headline?_eq a]
  by_cases ha : AllBlank a
  · have hw : AllBlank (a ++ ['\n']) := List.forall_mem_append.2 ⟨ha, allBlank_newline⟩
    rw [if_pos ha, List.append_cons, trimStart_append hw, headline?_eq]
  · have hne : trimStart a ≠ [] := fun h => ha (trimStart_eq_nil_iff.1 h)
    rw [if_neg ha, trimStart_append_of_not_allBlank ha, takeWhile_append_newline, if_neg hne,
      if_neg (by simp)]

end DocComments.Text
