import DocComments.Text.Basic

/-!
# Searching a text

* `cut? pat t` finds the first occurrence of `pat` in `t` and returns what stands before and after
  it. The three parts make up the text (`eq_append_of_cut?`), and none of it is lost, so a search
  that goes on in the second part gets shorter (`length_lt_of_cut?`).
-/

namespace DocComments.Text

/-- What stands before and after the first occurrence of `pat`. -/
def cut? (pat : Text) : Text → Option (Text × Text)
  | [] => if pat.isEmpty then some ([], []) else none
  | c :: t =>
    if pat.isPrefixOf (c :: t) then some ([], (c :: t).drop pat.length)
    else (cut? pat t).map fun (before, after) => (c :: before, after)

theorem eq_append_of_cut? {pat t before after : Text} (h : cut? pat t = some (before, after)) :
    t = before ++ pat ++ after := by
  induction t generalizing before after with
  | nil =>
    simp only [cut?, List.isEmpty_iff] at h
    split at h
    · cases h; simp_all
    · cases h
  | cons c t ih =>
    simp only [cut?] at h
    split at h
    · next hp =>
      cases h
      obtain ⟨r, hr⟩ := List.isPrefixOf_iff_prefix.1 hp
      simp [← hr]
    · obtain ⟨⟨b, a⟩, hba, hq⟩ := Option.map_eq_some_iff.1 h
      cases hq
      rw [ih hba]
      simp

theorem length_lt_of_cut? {pat t before after : Text} (hpat : pat ≠ [])
    (h : cut? pat t = some (before, after)) : after.length < t.length := by
  have hlen := List.length_pos_iff.2 hpat
  rw [eq_append_of_cut? h]
  simp only [List.length_append]
  omega

end DocComments.Text
