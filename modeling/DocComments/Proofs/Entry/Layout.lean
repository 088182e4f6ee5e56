import DocComments.Proofs.Entry.Concat
import Mathlib.Logic.Relation

/-!
# Layout

How a comment is laid out does not show in its entries. The blanks around a line, the slash and the
number of the stars that it starts with, and the characters that end it are layout.

* `Line.Relaid` is one change to the layout of a line, and `Line.ofText_eq_of_relaid` says that a
  line keeps its kind.
* `Entry.parse_eq_ofLines_splitOn`: the entries of a text are those of its pieces between line
  feeds, whatever ends its lines.
* `Text.Relaid` is one change to the layout of a text, `Entry.parse_eq_of_relaid` says that a text
  keeps its entries under any number of them, also when they are undone.
-/

namespace DocComments

open Text Line

/-! ## Lines -/

namespace Line

variable {line line' rest slash w : Text}

/-- One change to the layout of a line: blanks before it, blanks after it, or another slash and
another number of stars in front of what follows them. -/
inductive Relaid : Text → Text → Prop where
  /-- Blanks come before the line. -/
  | before (line : Text) {w : Text} (hw : AllBlank w) (hn : '\n' ∉ w) : Relaid line (w ++ line)
  /-- Blanks come after the line. -/
  | after (line : Text) {w : Text} (hw : AllBlank w) (hn : '\n' ∉ w) : Relaid line (line ++ w)
  /-- The stars get another number, and the slash before them is put there or left out. -/
  | leader {w slash slash' : Text} (hw : AllBlank w) (hslash : slash = [] ∨ slash = ['/'])
      (hslash' : slash' = [] ∨ slash' = ['/']) (n n' : ℕ) (rest : Text) :
      Relaid (w ++ (slash ++ (List.replicate (n + 1) '*' ++ rest)))
        (w ++ (slash' ++ (List.replicate (n' + 1) '*' ++ rest)))

theorem afterLeader?_append_left (hw : AllBlank w) (line : Text) :
    afterLeader? (w ++ line) = afterLeader? line := by
  rw [afterLeader?, trimStart_append hw, ← afterLeader?]

/-- What follows a leader does not show which leader it was. -/
theorem afterLeader?_leader (hw : AllBlank w) (hslash : slash = [] ∨ slash = ['/']) (n : ℕ)
    (rest : Text) :
    afterLeader? (w ++ (slash ++ (List.replicate (n + 1) '*' ++ rest))) =
      some (trimStart (rest.dropWhile (· == '*'))) := by
  have hstars : (List.replicate n '*' ++ rest).dropWhile (· == '*') =
      rest.dropWhile (· == '*') :=
    List.dropWhile_append_of_pos fun c hc => by simpa using List.eq_of_mem_replicate hc
  rw [afterLeader?_append_left hw, afterLeader?, List.replicate_succ, List.cons_append]
  rcases hslash with rfl | rfl
  · rw [List.nil_append, trimStart_cons_of_not_isBlank (by decide)]
    exact congrArg (fun t => some (trimStart t)) hstars
  · rw [List.singleton_append, trimStart_cons_of_not_isBlank (by decide)]
    exact congrArg (fun t => some (trimStart t)) hstars

/-- **The layout of a line does not show in its kind.** -/
theorem ofText_eq_of_relaid (h : Relaid line line') : ofText line = ofText line' := by
  cases h with
  | before line hw hn => rw [ofText, ofText, content?, content?, afterLeader?_append_left hw]
  | after line hw hn => rw [ofText_append hw hn]
  | leader hw hslash hslash' n n' rest =>
    rw [ofText, ofText, content?, content?, afterLeader?_leader hw hslash,
      afterLeader?_leader hw hslash']

theorem ofText_eq_of_eqvGen_relaid (h : Relation.EqvGen Relaid line line') :
    ofText line = ofText line' := by
  induction h with
  | rel _ _ h => exact ofText_eq_of_relaid h
  | refl _ => rfl
  | symm _ _ _ ih => exact ih.symm
  | trans _ _ _ _ _ ih₁ ih₂ => exact ih₁.trans ih₂

end Line

/-! ## Ends of lines -/

variable {w : Text} {ls : List Text}

/-- The text with a carriage return before each line feed. -/
def Text.withReturns (t : Text) : Text :=
  t.flatMap fun c => if c = '\n' then ['\r', '\n'] else [c]

theorem Text.withReturns_append (t u : Text) :
    withReturns (t ++ u) = withReturns t ++ withReturns u :=
  List.flatMap_append

theorem Text.withReturns_of_not_mem {l : Text} (hn : '\n' ∉ l) : withReturns l = l := by
  induction l with
  | nil => rfl
  | cons c l ih =>
    obtain ⟨hc, hl⟩ := List.ne_and_not_mem_of_not_mem_cons hn
    rw [withReturns, List.flatMap_cons, if_neg hc.symm, ← withReturns, ih hl]
    rfl

namespace Entry

/-- Lines that end in blanks and a line feed have the entries of the lines without them. -/
theorem parse_flatMap_append (hw : AllBlank w) (hn : '\n' ∉ w) (hls : ∀ l ∈ ls, '\n' ∉ l) :
    parse (ls.flatMap fun l => l ++ w ++ ['\n']) = ofLines ls := by
  refine ofLines_congr ?_
  rw [lines_flatMap fun l _ => endsLine_append_newline _, List.map_flatMap, List.map_eq_flatMap]
  refine List.flatMap_congr fun l hl => ?_
  have hend : '\n' ∉ l ++ w := by
    rw [List.mem_append, not_or]
    exact ⟨hls l hl, hn⟩
  rw [map_ofText_lines_line hend, ofText_append hw hn]

/-- The text with its last line ended. -/
theorem append_newline_eq_flatMap (t : Text) :
    t ++ ['\n'] = (t.splitOn '\n').flatMap (· ++ ['\n']) := by
  conv_lhs => rw [← joinLines_splitOn t]
  exact joinLines_append_newline (List.splitOn_ne_nil '\n' t)

/-- **The entries of a text are those of its pieces between line feeds.** -/
theorem parse_eq_ofLines_splitOn (t : Text) : parse t = ofLines (t.splitOn '\n') := by
  have h := parse_flatMap_append allBlank_nil (List.not_mem_nil (a := '\n'))
    fun l (hl : l ∈ t.splitOn '\n') => not_mem_of_mem_splitOn hl
  simp only [List.append_nil] at h
  rw [← h, ← append_newline_eq_flatMap, parse_append_newline]

/-- **Carriage returns before the line feeds change nothing.** -/
theorem parse_withReturns (t : Text) : parse (withReturns t) = parse t := by
  have hpieces : ∀ l ∈ t.splitOn '\n', '\n' ∉ l := fun l hl => not_mem_of_mem_splitOn hl
  have hend : withReturns t ++ ['\r', '\n'] =
      (t.splitOn '\n').flatMap fun l => l ++ ['\r'] ++ ['\n'] := by
    rw [show ['\r', '\n'] = withReturns ['\n'] from rfl, ← withReturns_append,
      append_newline_eq_flatMap, withReturns, List.flatMap_assoc]
    refine List.flatMap_congr fun l hl => ?_
    rw [← withReturns, withReturns_append, withReturns_of_not_mem (hpieces l hl), List.append_assoc]
    rfl
  calc parse (withReturns t)
      = parse (withReturns t ++ ['\r', '\n']) := (parse_append_of_allBlank (by decide) _).symm
    _ = ofLines (t.splitOn '\n') := by
        rw [hend]
        exact parse_flatMap_append (by decide) (by decide) hpieces
    _ = parse t := (parse_eq_ofLines_splitOn t).symm

end Entry

/-! ## Texts -/

/-- One change to the layout of a text: any changes to the layout of each of its lines, a carriage
return before each line feed, or one more line feed at the end. -/
inductive Text.Relaid : Text → Text → Prop where
  /-- The lines are laid out anew, each for itself. -/
  | lines {t u : Text}
      (h : List.Forall₂ (Relation.EqvGen Line.Relaid) (t.splitOn '\n') (u.splitOn '\n')) :
      Relaid t u
  /-- The lines end in a carriage return and a line feed. -/
  | returns (t : Text) : Relaid t (withReturns t)
  /-- The last line ends in a line feed too. -/
  | newline (t : Text) : Relaid t (t ++ ['\n'])

namespace Entry

variable {raw raw' : Text}

theorem parse_eq_of_relaid_once (h : Text.Relaid raw raw') : parse raw = parse raw' := by
  cases h with
  | lines h =>
    rw [parse_eq_ofLines_splitOn, parse_eq_ofLines_splitOn]
    refine ofLines_congr ?_
    rw [← List.forall₂_eq_eq_eq, List.forall₂_map_left_iff, List.forall₂_map_right_iff]
    exact h.imp fun _ _ => ofText_eq_of_eqvGen_relaid
  | returns => exact (parse_withReturns raw).symm
  | newline => exact (parse_append_newline raw).symm

/-- **The layout of a comment does not show in its entries.** -/
theorem parse_eq_of_relaid (h : Relation.EqvGen Text.Relaid raw raw') : parse raw = parse raw' := by
  induction h with
  | rel _ _ h => exact parse_eq_of_relaid_once h
  | refl _ => rfl
  | symm _ _ _ ih => exact ih.symm
  | trans _ _ _ _ _ ih₁ ih₂ => exact ih₁.trans ih₂

/-- A tag behind two stars, with other ends of lines, and a closing line without its blank. -/
theorem parse_eq_of_relaid_tag :
    let raw := " * @a b\n */".toList
    let raw' := "/** @a b\t\r\n**/\r\n".toList
    Relation.EqvGen Text.Relaid raw raw' ∧ parse raw = parse raw' ∧
      parse raw' = [⟨some ['a'], some ['b']⟩] := by
  intro raw raw'
  have hspace : AllBlank [' '] ∧ '\n' ∉ [' '] := by decide
  have hdedent (line : Text) : Relation.EqvGen Line.Relaid (' ' :: line) line :=
    .symm _ _ (.rel _ _ (.before line hspace.1 hspace.2))
  have htag : Relation.EqvGen Line.Relaid " * @a b".toList "/** @a b\t".toList :=
    ((hdedent _).trans _ _ _ (.rel _ "/** @a b".toList
      (.leader allBlank_nil (.inl rfl) (.inr rfl) 0 1 " @a b".toList))).trans _ _ _
      (.rel _ _ (.after _ (w := ['\t']) (by decide) (by decide)))
  have hclose : Relation.EqvGen Line.Relaid " */".toList "**/".toList :=
    (hdedent _).trans _ _ _ (.rel _ _ (.leader allBlank_nil (.inl rfl) (.inl rfl) 0 1 ['/']))
  have hsplit : raw.splitOn '\n' = [" * @a b".toList, " */".toList] := by decide
  have hsplit' : "/** @a b\t\n**/".toList.splitOn '\n' =
    ["/** @a b\t".toList, "**/".toList] := by decide
  have hlines : Text.Relaid raw "/** @a b\t\n**/".toList :=
    .lines (by rw [hsplit, hsplit']; exact .cons htag (.cons hclose .nil))
  have hrelaid : Relation.EqvGen Text.Relaid raw raw' :=
    ((Relation.EqvGen.rel _ _ hlines).trans _ _ _ (.rel _ _ (.newline _))).trans _ _ _
      (.rel _ _ (.returns "/** @a b\t\n**/\n".toList))
  have hparse : parse raw' = [⟨some ['a'], some ['b']⟩] := by decide +kernel
  exact ⟨hrelaid, parse_eq_of_relaid hrelaid, hparse⟩

end Entry

end DocComments
