import DocComments.Text.Basic

/-!
# Lines

A line ends at a line feed. One carriage return directly before the line feed belongs to the line
ending; a carriage return anywhere else is an ordinary character. A final line feed ends the last
line and opens no further one, so the empty text has no lines.

* `lines` cuts a text into its lines; no line holds a line feed (`newline_not_mem_of_mem_lines`).
* `cutLine` cuts off the first line (`lines_eq_cons`), so that `findLine?` reads a text no further
  than it has to (`findLine?_eq_find?`).
-/

namespace DocComments.Text

/-- The lines of a text, without their endings. -/
def lines : Text → List Text
  | [] => []
  | '\n' :: t => [] :: lines t
  | '\r' :: '\n' :: t => [] :: lines t
  | c :: t =>
    match lines t with
    | [] => [[c]]
    | l :: ls => (c :: l) :: ls

theorem newline_not_mem_of_mem_lines {t l : Text} (h : l ∈ lines t) : '\n' ∉ l := by
  fun_induction lines t generalizing l with
  | case1 => cases h
  | case2 t ih | case3 t ih =>
    rcases List.mem_cons.1 h with rfl | h
    · simp
    · exact ih h
  | case4 c t hc _ _ ih =>
    rw [List.mem_singleton.1 h, List.mem_singleton]
    exact fun hn => hc hn.symm
  | case5 c t hc _ l' ls hls ih =>
    rw [hls] at ih
    rcases List.mem_cons.1 h with rfl | h
    · simp only [List.mem_cons, not_or]
      exact ⟨fun hn => hc hn.symm, ih (List.mem_cons_self ..)⟩
    · exact ih (List.mem_cons_of_mem _ h)

/-! ## The first lines -/

/-- The first line, and what follows its ending. -/
def cutLine : Text → Text × Text
  | [] => ([], [])
  | '\n' :: t => ([], t)
  | '\r' :: '\n' :: t => ([], t)
  | c :: t => (c :: (cutLine t).1, (cutLine t).2)

theorem length_cutLine_le (t : Text) : (cutLine t).2.length ≤ t.length - 1 := by
  fun_induction cutLine t with
  | case1 => simp
  | case2 t | case3 t => simp
  | case4 c t _ _ ih => simp only [List.length_cons]; omega

theorem lines_eq_cons {t : Text} (h : t ≠ []) :
    lines t = (cutLine t).1 :: lines (cutLine t).2 := by
  fun_induction cutLine t with
  | case1 => exact absurd rfl h
  | case2 t => rw [lines]
  | case3 t => rw [lines]
  | case4 c t hc hr ih =>
    by_cases ht : t = []
    · subst ht; simp [lines, cutLine]
    · rw [lines, ih ht] <;> assumption

/-- The first line in `p`. -/
def findLine? (p : Text → Bool) (t : Text) : Option Text :=
  if h : t = [] then none
  else if p (cutLine t).1 then some (cutLine t).1
  else
    have := List.length_pos_iff.2 h
    have := length_cutLine_le t
    findLine? p (cutLine t).2
termination_by t.length

theorem findLine?_eq_find? (p : Text → Bool) (t : Text) : findLine? p t = (lines t).find? p := by
  fun_induction findLine? p t with
  | case1 => simp [lines]
  | case2 t h hp => simp [lines_eq_cons h, hp]
  | case3 t h hp _ _ ih => simp [lines_eq_cons h, hp, ih]

end DocComments.Text
