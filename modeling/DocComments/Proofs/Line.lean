import DocComments.Entry.Canonical
import DocComments.Proofs.Text.Trim

/-!
# What a line contributes

A decorated line is a leader and the rest of the line, and a leader can be cut off in one way only:
it ends where neither a star nor a blank follows. What is left gives the kind of the line.

* `Decorated line rest` says how a leader stands before `rest`; `afterLeader?_eq_some_iff` says that
  `afterLeader?` cuts off exactly that.
* `content?_spec` and `readTag?_spec` collect what is known of a content and of a tag.
* `IsBlank`, `OpensTag` and `IsProse` tell the kinds of lines apart by their contents
  (`ofText_spec`).
* `ofText_append`: blanks at the end of a line do not change its kind.
* `Line.WellFormed` says which kinds of lines there are: `wellFormed_ofText` for every line, and
  `ofText_decorated` reads one back.
* `Line.pieces` are the texts that a line adds to the value of an entry.
-/

namespace DocComments.Line

open Text Entry

variable {line rest content key value : Text}

/-! ## Leaders -/

/-- The line is `rest` behind blanks, an optional slash, stars and blanks, where `rest` starts with
nothing that could still be one of these. -/
def Decorated (line rest : Text) : Prop :=
  ∃ w₁ slash n w₂, AllBlank w₁ ∧ (slash = [] ∨ slash = ['/']) ∧ AllBlank w₂ ∧
    (w₂ = [] → rest.head? ≠ some '*') ∧ trimStart rest = rest ∧
    line = w₁ ++ (slash ++ (List.replicate (n + 1) '*' ++ (w₂ ++ rest)))

theorem ne_star_of_isBlank {c : Char} (hc : Text.isBlank c = true) : c ≠ '*' := by
  rintro rfl
  revert hc
  decide

theorem trimStart_dropWhile_star {n : ℕ} {w : Text} (hw : AllBlank w)
    (hstar : w = [] → rest.head? ≠ some '*') (hrest : trimStart rest = rest) :
    trimStart ((List.replicate n '*' ++ (w ++ rest)).dropWhile (· == '*')) = rest := by
  have hall : ∀ c ∈ List.replicate n '*', (c == '*') = true := by simp
  have hstop : (w ++ rest).dropWhile (· == '*') = w ++ rest := by
    cases w with
    | nil =>
      cases rest with
      | nil => rfl
      | cons c rest => simpa using hstar rfl
    | cons c w =>
      have hne : c ≠ '*' := ne_star_of_isBlank (hw c (List.mem_cons_self ..))
      simp [hne]
  rw [List.dropWhile_append_of_pos hall, hstop, trimStart_append hw, hrest]

/-- The stars and the blanks that stand before what is left of them. -/
theorem exists_eq_stars_append (t : Text) :
    ∃ n w, AllBlank w ∧
      (w = [] → (trimStart (t.dropWhile (· == '*'))).head? ≠ some '*') ∧
      t = List.replicate n '*' ++ (w ++ trimStart (t.dropWhile (· == '*'))) := by
  obtain ⟨w, hw, hsplit⟩ := exists_eq_append_trimStart (t.dropWhile (· == '*'))
  refine ⟨(t.takeWhile (· == '*')).length, w, hw, ?_, ?_⟩
  · rintro rfl
    rw [List.nil_append] at hsplit
    rw [← hsplit]
    intro hhead
    have := List.head?_dropWhile_not (· == '*') t
    rw [hhead] at this
    simp at this
  · have hstars : t.takeWhile (· == '*') = List.replicate (t.takeWhile (· == '*')).length '*' :=
      List.eq_replicate_of_mem fun c hc => by simpa using List.mem_takeWhile_imp hc
    rw [← hsplit, ← hstars, List.takeWhile_append_dropWhile]

/-- **`afterLeader?` cuts off a leader, and all of it.** -/
theorem afterLeader?_eq_some_iff : afterLeader? line = some rest ↔ Decorated line rest := by
  constructor
  · intro h
    obtain ⟨w₁, hw₁, hline⟩ := exists_eq_append_trimStart line
    unfold afterLeader? at h
    split at h
    · next t ht =>
      cases h
      obtain ⟨n, w₂, hw₂, hstar, hsplit⟩ := exists_eq_stars_append t
      refine ⟨w₁, [], n, w₂, hw₁, .inl rfl, hw₂, hstar, trimStart_trimStart _, ?_⟩
      rw [List.replicate_succ, List.nil_append, List.cons_append, ← hsplit, ← ht, ← hline]
    · next t ht =>
      cases h
      obtain ⟨n, w₂, hw₂, hstar, hsplit⟩ := exists_eq_stars_append t
      refine ⟨w₁, ['/'], n, w₂, hw₁, .inr rfl, hw₂, hstar, trimStart_trimStart _, ?_⟩
      rw [List.replicate_succ, List.singleton_append, List.cons_append, ← hsplit, ← ht, ← hline]
    · cases h
  · rintro ⟨w₁, slash, n, w₂, hw₁, hslash, hw₂, hstar, hrest, rfl⟩
    rw [afterLeader?, trimStart_append hw₁, List.replicate_succ]
    rcases hslash with rfl | rfl
    · rw [List.nil_append, List.cons_append, trimStart_cons_of_not_isBlank (by decide)]
      exact congrArg some (trimStart_dropWhile_star hw₂ hstar hrest)
    · rw [List.singleton_append, List.cons_append, trimStart_cons_of_not_isBlank (by decide)]
      exact congrArg some (trimStart_dropWhile_star hw₂ hstar hrest)

theorem Decorated.suffix (h : Decorated line rest) : rest <:+ line := by
  obtain ⟨w₁, slash, n, w₂, -, -, -, -, -, rfl⟩ := h
  simp only [← List.append_assoc]
  exact List.suffix_append ..

theorem Decorated.trimStart_rest (h : Decorated line rest) : trimStart rest = rest := by
  obtain ⟨w₁, slash, n, w₂, -, -, -, -, hrest, -⟩ := h
  exact hrest

/-! ## Contents -/

theorem content?_of_decorated (h : Decorated line rest) (hn : '\n' ∉ rest)
    (hslash : trimEnd rest ≠ ['/']) : content? line = some (trimEnd rest) := by
  rw [content?, afterLeader?_eq_some_iff.2 h, Option.bind_some, if_neg (by simp [hn, hslash])]

theorem content?_eq_none_of_decorated (h : Decorated line rest) (hslash : trimEnd rest = ['/']) :
    content? line = none := by
  rw [content?, afterLeader?_eq_some_iff.2 h, Option.bind_some, if_pos (by simp [hslash])]

theorem content?_spec (h : content? line = some content) :
    trim content = content ∧ '\n' ∉ content ∧ content ≠ ['/'] ∧ content <:+: line := by
  obtain ⟨rest, hrest, hif⟩ := Option.bind_eq_some_iff.1 h
  have hdec := afterLeader?_eq_some_iff.1 hrest
  split at hif
  · cases hif
  next hcond =>
  cases hif
  simp only [Bool.or_eq_true, List.contains_iff_mem, beq_iff_eq, not_or] at hcond
  refine ⟨?_, fun hn => hcond.1 ((trimEnd_prefix_self rest).subset hn), hcond.2,
    (trimEnd_prefix_self rest).isInfix.trans hdec.suffix.isInfix⟩
  rw [← trim_eq_trimEnd hdec.trimStart_rest, trim_trim]

/-! ## Tags -/

theorem readTag?_at (hkey : IsKey key) (rest : Text) (hword : ∀ c ∈ rest.head?, isWord c = false)
    (hn : '\n' ∉ rest) : readTag? ('@' :: key ++ rest) = some (key, trim rest) := by
  have hdrop : rest.dropWhile isWord = rest := by
    cases rest with
    | nil => rfl
    | cons c rest => exact List.dropWhile_cons_of_neg (by simp [hword c rfl])
  have htake : rest.takeWhile isWord = [] := by
    cases rest with
    | nil => rfl
    | cons c rest => exact List.takeWhile_cons_of_neg (by simp [hword c rfl])
  simp [readTag?, List.takeWhile_append_of_pos hkey.2, List.dropWhile_append_of_pos hkey.2, hdrop,
    htake, hn, hkey.1]

theorem readTag?_spec (h : readTag? content = some (key, value)) :
    IsKey key ∧ trim value = value ∧ '\n' ∉ value ∧ value <:+: content := by
  unfold readTag? at h
  split at h
  · next rest =>
    dsimp only at h
    split at h
    · cases h
    next hcond =>
    cases h
    simp only [Bool.or_eq_true, List.isEmpty_iff, List.contains_iff_mem, not_or] at hcond
    have hin := trim_infix_self (rest.dropWhile isWord)
    refine ⟨⟨hcond.1, fun c hc => List.mem_takeWhile_imp hc⟩, trim_trim _,
      fun hn => hcond.2 (hin.subset hn), hin.trans ?_⟩
    exact ((List.dropWhile_suffix _).trans (List.suffix_cons ..)).isInfix
  · cases h

theorem exists_eq_of_readTag? (h : readTag? content = some (key, value)) :
    ∃ rest, content = '@' :: (key ++ rest) ∧ value = trim rest := by
  unfold readTag? at h
  split at h
  · next rest =>
    dsimp only at h
    split at h
    · cases h
    · cases h
      exact ⟨_, congrArg _ List.takeWhile_append_dropWhile.symm, rfl⟩
  · cases h

/-! ## Kinds of lines -/

/-- The line is of a kind that a text can have. -/
def WellFormed : Line → Prop
  | blank => True
  | tag key value => IsKey key ∧ '\n' ∉ value ∧ (value = [] ∨ IsValueLine value)
  | prose content => '\n' ∉ content ∧ IsValueLine content ∧ IsProseLine content

theorem wellFormed_ofContent (htrim : trim content = content) (hn : '\n' ∉ content)
    (hslash : content ≠ ['/']) : (ofContent content).WellFormed := by
  unfold ofContent
  split
  · trivial
  next hne =>
  rw [List.isEmpty_iff] at hne
  split
  · next key value htag =>
    obtain ⟨hkey, hvalue, hnv, -⟩ := readTag?_spec htag
    exact ⟨hkey, hnv, or_iff_not_imp_left.2 fun hv => ⟨hv, hvalue⟩⟩
  · next htag => exact ⟨hn, ⟨hne, htrim⟩, hslash, htag⟩

/-- **Every line is of such a kind.** -/
theorem wellFormed_ofText (line : Text) : (ofText line).WellFormed := by
  unfold ofText
  split
  · next content hcontent =>
    obtain ⟨htrim, hn, hslash, -⟩ := content?_spec hcontent
    exact wellFormed_ofContent htrim hn hslash
  · trivial

theorem ofText_decorated (h : Decorated line content) (hcontent : IsValueLine content)
    (hn : '\n' ∉ content) (hslash : content ≠ ['/']) : ofText line = ofContent content := by
  have hend : trimEnd content = content := (trim_eq_self_iff.1 hcontent.2).2
  rw [ofText, content?_of_decorated h hn (by rwa [hend]), hend]

/-! ## Kinds by their contents -/

/-- The line has no content, or an empty one. -/
def IsBlank (line : Text) : Prop :=
  content? line = none ∨ content? line = some []

/-- The line has a content that opens a tag. -/
def OpensTag (line : Text) : Prop :=
  ∃ content ∈ content? line, (readTag? content).isSome

/-- The line has a content, and it opens no tag. -/
def IsProse (line : Text) : Prop :=
  ¬ IsBlank line ∧ ¬ OpensTag line

instance : DecidablePred IsBlank :=
  fun _ => inferInstanceAs (Decidable (_ ∨ _))

instance : DecidablePred OpensTag :=
  fun line => inferInstanceAs (Decidable (∃ content ∈ content? line, _))

instance : DecidablePred IsProse :=
  fun _ => inferInstanceAs (Decidable (_ ∧ _))

/-- **What the kind of a line says of its content.** -/
theorem ofText_spec (line : Text) :
    match ofText line with
    | blank => IsBlank line ∧ ¬ OpensTag line
    | tag _ _ => ¬ IsBlank line ∧ OpensTag line
    | prose _ => IsProse line := by
  cases hcontent : content? line with
  | none => simp [ofText, IsBlank, OpensTag, hcontent]
  | some content =>
    by_cases hnil : content = []
    · simp [ofText, ofContent, IsBlank, OpensTag, readTag?, hcontent, hnil]
    · cases htag : readTag? content <;>
        simp [ofText, ofContent, IsProse, IsBlank, OpensTag, hcontent, hnil, htag]

theorem ofText_eq_blank_iff : ofText line = blank ↔ IsBlank line := by
  have h := ofText_spec line
  split at h <;> simp_all [IsProse]

theorem exists_ofText_eq_prose_iff : (∃ content, ofText line = prose content) ↔ IsProse line := by
  have h := ofText_spec line
  cases hl : ofText line <;> simp_all [IsProse]

/-! ## Blanks at the end of a line -/

theorem dropWhile_star_append {w : Text} (hw : AllBlank w) (t : Text) :
    (t ++ w).dropWhile (· == '*') = t.dropWhile (· == '*') ++ w := by
  have hstop : w.dropWhile (· == '*') = w := by
    rw [List.dropWhile_eq_self_iff]
    intro hne hstar
    exact ne_star_of_isBlank (hw _ (List.getElem_mem hne)) (beq_iff_eq.1 hstar)
  rw [List.dropWhile_append, hstop]
  split
  · next hnil => rw [List.isEmpty_iff.1 hnil, List.nil_append]
  · rfl

/-- Blanks at the end of a line go to what follows its leader, or to the leader if nothing does. -/
theorem afterLeader?_append {w : Text} (hw : AllBlank w) (line : Text) :
    afterLeader? (line ++ w) = (afterLeader? line).map fun rest => trimStart (rest ++ w) := by
  have hstars : ∀ t : Text, trimStart (t.dropWhile (· == '*') ++ w) =
      trimStart (trimStart (t.dropWhile (· == '*')) ++ w) := by
    intro t
    rw [trimStart_append_right hw, trimStart_append_right hw, trimStart_trimStart]
  have hstart := trimStart_append_right hw line
  unfold afterLeader?
  generalize trimStart line = t at hstart ⊢
  rw [hstart]
  cases t with
  | nil => rfl
  | cons c t =>
    by_cases hc : c = '*'
    · subst hc
      simp [dropWhile_star_append hw, hstars]
    by_cases hslash : c = '/'
    · subst hslash
      cases t with
      | nil =>
        -- no star can follow the slash from among the blanks
        cases w with
        | nil => rfl
        | cons d w =>
          have hd : d ≠ '*' := ne_star_of_isBlank (hw d (List.mem_cons_self ..))
          simp [hd]
      | cons d t =>
        by_cases hd : d = '*'
        · subst hd
          simp [dropWhile_star_append hw, hstars]
        · simp [hd]
    · simp [hc, hslash]

/-- Blanks at the end change no content. -/
theorem content?_append {w : Text} (hw : AllBlank w) (hn : '\n' ∉ w) :
    content? (line ++ w) = content? line := by
  rw [content?, content?, afterLeader?_append hw]
  cases hrest : afterLeader? line with
  | none => rfl
  | some rest =>
    have htrim := (afterLeader?_eq_some_iff.1 hrest).trimStart_rest
    by_cases hnil : rest = []
    · subst hnil
      simp [trimStart_eq_nil_iff.2 hw]
    · simp [trimStart_append_of_ne_nil hnil htrim, trimEnd_append _ hw, hn]

theorem ofText_append {w : Text} (hw : AllBlank w) (hn : '\n' ∉ w) :
    ofText (line ++ w) = ofText line := by
  rw [ofText, ofText, content?_append hw hn]

/-! ## Pieces of values -/

/-- What the line adds to the value of an entry. -/
def pieces : Line → List Text
  | blank => []
  | tag _ value => if value = [] then [] else [value]
  | prose content => [content]

theorem infix_of_mem_pieces_ofText {piece : Text} (h : piece ∈ (ofText line).pieces) :
    piece <:+: line := by
  unfold ofText at h
  split at h
  · next content hcontent =>
    obtain ⟨-, -, -, hin⟩ := content?_spec hcontent
    unfold ofContent at h
    split at h
    · cases h
    split at h
    · next key value htag =>
      simp only [pieces] at h
      split at h
      · cases h
      · rw [List.mem_singleton.1 h]
        exact (readTag?_spec htag).2.2.2.trans hin
    · rw [List.mem_singleton.1 h]
      exact hin
  · cases h

theorem newline_not_mem_pieces {l : Line} (hl : l.WellFormed) :
    ∀ piece ∈ l.pieces, '\n' ∉ piece := by
  intro piece hp
  cases l with
  | blank => cases hp
  | tag key value =>
    simp only [pieces] at hp
    split at hp
    · cases hp
    · rw [List.mem_singleton.1 hp]
      exact hl.2.1
  | prose content =>
    rw [List.mem_singleton.1 hp]
    exact hl.1

end DocComments.Line
