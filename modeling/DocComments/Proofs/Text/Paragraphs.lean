import DocComments.Proofs.Text.Search

/-!
# Paragraphs of a text

Paragraphs that are joined stand with an empty line between each two, and a text is cut into its
paragraphs at two line feeds in a row. Cutting undoes joining as long as no paragraph has an empty
line of its own, at its end neither.

* `joinParagraphs_append_break` writes joined paragraphs with a break after each of them.
* `paragraphs` cuts a text, and `paragraphs_joinParagraphs` reads joined paragraphs back.
-/

namespace DocComments.Text

variable {t p : Text} {ps : List Text}

/-- The two line feeds between paragraphs. -/
def paragraphBreak : Text :=
  ['\n', '\n']

theorem paragraphBreak_ne_nil : paragraphBreak ≠ [] := List.cons_ne_nil _ _

/-! ## Joining -/

theorem joinParagraphs_singleton (p : Text) : joinParagraphs [p] = p :=
  List.intercalate_singleton

theorem joinParagraphs_cons (hps : ps ≠ []) (p : Text) :
    joinParagraphs (p :: ps) = p ++ paragraphBreak ++ joinParagraphs ps :=
  List.intercalate_cons_of_ne_nil hps

/-- Joined paragraphs, with a break after the last one too. -/
theorem joinParagraphs_append_break (hps : ps ≠ []) :
    joinParagraphs ps ++ paragraphBreak = ps.flatMap (· ++ paragraphBreak) := by
  induction ps with
  | nil => exact absurd rfl hps
  | cons p ps ih =>
    by_cases hnil : ps = []
    · rw [hnil, joinParagraphs_singleton, List.flatMap_singleton]
    · rw [joinParagraphs_cons hnil, List.append_assoc, ih hnil, List.flatMap_cons]

/-! ## Cutting -/

/-- What stands between the breaks of a text, which are looked for from its start. -/
def paragraphs (t : Text) : List Text :=
  match h : cut? paragraphBreak t with
  | none => [t]
  | some (before, after) =>
    have := length_lt_of_cut? paragraphBreak_ne_nil h
    before :: paragraphs after
termination_by t.length

theorem paragraphs_of_not_infix (h : ¬ paragraphBreak <:+: t) : paragraphs t = [t] := by
  have hcut := (cut?_eq_none_iff paragraphBreak_ne_nil).2 h
  rw [paragraphs]
  split
  · rfl
  · next hsome => cases hcut.symm.trans hsome

theorem paragraphs_append_break (h : ¬ paragraphBreak <:+: p ++ ['\n']) (t : Text) :
    paragraphs (p ++ paragraphBreak ++ t) = p :: paragraphs t := by
  have hcut : cut? paragraphBreak (p ++ paragraphBreak ++ t) = some (p, t) :=
    cut?_append paragraphBreak_ne_nil h
  rw [paragraphs]
  split
  · next hnone => cases hcut.symm.trans hnone
  · next hsome =>
    cases hcut.symm.trans hsome
    rfl

/-- **Joined paragraphs are read back.** A line feed at the end of one would make a break with those
that follow it. -/
theorem paragraphs_joinParagraphs (hps : ps ≠ [])
    (h : ∀ p ∈ ps, ¬ paragraphBreak <:+: p ++ ['\n']) : paragraphs (joinParagraphs ps) = ps := by
  induction ps with
  | nil => exact absurd rfl hps
  | cons p ps ih =>
    obtain ⟨hp, hps⟩ := List.forall_mem_cons.1 h
    by_cases hnil : ps = []
    · rw [hnil, joinParagraphs_singleton]
      exact paragraphs_of_not_infix fun hin => hp (hin.trans (List.prefix_append ..).isInfix)
    · rw [joinParagraphs_cons hnil, paragraphs_append_break hp, ih hnil hps]

end DocComments.Text
