import DocComments.Text.Basic

/-!
# Offsets in bytes

A text is stored as the bytes of its UTF-8 encoding, and a place in it is the number of bytes before
it. A text can be cut only at such a place: an offset in the middle of a character, or one behind
the end of the text, is none.

* `byteLength` counts the bytes of a text, and `Text.IsBoundary` says which offsets are places in
  it; `Text.isBoundary_iff_isValid` compares them with those of `String`.
* `Text.cutAt?`, `Text.sliceFrom?` and `Text.slice?` cut a text at offsets.
* `Text.cutAt?_eq_some_iff`, `Text.sliceFrom?_eq_some_iff` and `Text.slice?_eq_some_iff` say what
  they give, `Text.isSome_sliceFrom?_iff` and `Text.isSome_slice?_iff` when they give something.
-/

namespace DocComments

/-- The number of bytes of the UTF-8 encoding of a text. -/
def byteLength (t : Text) : Nat :=
  t.foldr (fun c n => c.utf8Size + n) 0

theorem byteLength_cons (c : Char) (t : Text) :
    byteLength (c :: t) = c.utf8Size + byteLength t := rfl

theorem byteLength_pos {t : Text} (h : t ≠ []) : 0 < byteLength t := by
  obtain ⟨c, t, rfl⟩ := List.exists_cons_of_ne_nil h
  rw [byteLength_cons]
  exact Nat.add_pos_left c.utf8Size_pos _

theorem byteLength_append (a b : Text) : byteLength (a ++ b) = byteLength a + byteLength b := by
  induction a with
  | nil => simp [byteLength]
  | cons c a ih =>
    simp only [byteLength, List.cons_append, List.foldr_cons] at ih ⊢
    omega

theorem utf8ByteSize_ofList (t : Text) : (String.ofList t).utf8ByteSize = byteLength t := by
  induction t with
  | nil => rfl
  | cons c t ih =>
    rw [String.ofList_cons, String.utf8ByteSize_append, String.utf8ByteSize_singleton, ih,
      byteLength_cons]

namespace Text

variable {t u before after : Text} {i j n : Nat}

/-- The offset stands between two characters of the text, or at one of its ends. -/
def IsBoundary (t : Text) (i : Nat) : Prop :=
  ∃ before after, t = before ++ after ∧ byteLength before = i

theorem IsBoundary.le_byteLength (h : IsBoundary t i) : i ≤ byteLength t := by
  obtain ⟨before, after, rfl, rfl⟩ := h
  rw [byteLength_append]
  exact Nat.le_add_right ..

/-- These are the valid positions of the text as a string. -/
theorem isBoundary_iff_isValid :
    IsBoundary t i ↔ String.Pos.Raw.IsValid (String.ofList t) ⟨i⟩ := by
  rw [String.Pos.Raw.isValid_iff_exists_append]
  constructor
  · rintro ⟨before, after, rfl, rfl⟩
    refine ⟨.ofList before, .ofList after, String.ofList_append, ?_⟩
    rw [String.rawEndPos, utf8ByteSize_ofList]
  · rintro ⟨s₁, s₂, hs, hi⟩
    refine ⟨s₁.toList, s₂.toList, ?_, ?_⟩
    · rw [← String.toList_append, ← hs, String.toList_ofList]
    · rw [← utf8ByteSize_ofList, String.ofList_toList]
      exact (congrArg String.Pos.Raw.byteIdx hi).symm

/-! ## Cutting at an offset -/

/-- What stands before and after an offset. -/
def cutAt? : Text → Nat → Option (Text × Text)
  | t, 0 => some ([], t)
  | [], _ + 1 => none
  | c :: t, n + 1 =>
    if c.utf8Size ≤ n + 1 then
      (cutAt? t (n + 1 - c.utf8Size)).map fun (before, after) => (c :: before, after)
    else none

theorem cutAt?_append (before after : Text) :
    cutAt? (before ++ after) (byteLength before) = some (before, after) := by
  induction before with
  | nil => cases after <;> rfl
  | cons c before ih =>
    obtain ⟨n, hn⟩ := Nat.exists_eq_add_of_lt (Nat.add_pos_left c.utf8Size_pos (byteLength before))
    have hle : c.utf8Size ≤ n + 1 := by omega
    have hrest : n + 1 - c.utf8Size = byteLength before := by omega
    rw [byteLength_cons, hn, Nat.zero_add, List.cons_append, cutAt?, if_pos hle, hrest, ih]
    rfl

/-- **A cut is at a boundary**, and nothing of the text is lost. -/
theorem cutAt?_eq_some_iff :
    cutAt? t n = some (before, after) ↔ t = before ++ after ∧ byteLength before = n := by
  constructor
  · intro h
    fun_induction cutAt? t n generalizing before after with
    | case1 t =>
      cases h
      exact ⟨rfl, rfl⟩
    | case2 => cases h
    | case3 c t n hle ih =>
      obtain ⟨⟨b, a⟩, hcut, heq⟩ := Option.map_eq_some_iff.1 h
      cases heq
      obtain ⟨rfl, hb⟩ := ih hcut
      refine ⟨rfl, ?_⟩
      rw [byteLength_cons, hb]
      omega
    | case4 => cases h
  · rintro ⟨rfl, rfl⟩
    exact cutAt?_append before after

theorem isSome_cutAt?_iff : (cutAt? t n).isSome ↔ IsBoundary t n := by
  rw [Option.isSome_iff_exists, Prod.exists]
  simp only [cutAt?_eq_some_iff]
  rfl

/-- The text from an offset on. -/
def sliceFrom? (t : Text) (i : Nat) : Option Text :=
  (cutAt? t i).map Prod.snd

theorem sliceFrom?_eq_some_iff :
    sliceFrom? t i = some u ↔ ∃ before, t = before ++ u ∧ byteLength before = i := by
  simp [sliceFrom?, Option.map_eq_some_iff, cutAt?_eq_some_iff]

theorem sliceFrom?_append (before after : Text) :
    sliceFrom? (before ++ after) (byteLength before) = some after :=
  sliceFrom?_eq_some_iff.2 ⟨before, rfl, rfl⟩

theorem isSome_sliceFrom?_iff : (sliceFrom? t i).isSome ↔ IsBoundary t i := by
  rw [sliceFrom?, Option.isSome_map, isSome_cutAt?_iff]

/-- The text between two offsets. -/
def slice? (t : Text) (i j : Nat) : Option Text := do
  let (front, _) ← cutAt? t j
  sliceFrom? front i

/-- **A slice lies between two boundaries**, the first not behind the second. -/
theorem slice?_eq_some_iff :
    slice? t i j = some u ↔
      ∃ before after, t = before ++ u ++ after ∧ byteLength before = i ∧
        i + byteLength u = j := by
  rw [slice?, Option.bind_eq_bind, Option.bind_eq_some_iff]
  constructor
  · rintro ⟨⟨front, after⟩, hcut, hfrom⟩
    obtain ⟨rfl, hj⟩ := cutAt?_eq_some_iff.1 hcut
    obtain ⟨before, rfl, hi⟩ := sliceFrom?_eq_some_iff.1 hfrom
    refine ⟨before, after, rfl, hi, ?_⟩
    rw [← hj, byteLength_append, hi]
  · rintro ⟨before, after, rfl, hi, hj⟩
    refine ⟨(before ++ u, after), cutAt?_eq_some_iff.2 ⟨rfl, ?_⟩,
      sliceFrom?_eq_some_iff.2 ⟨before, rfl, hi⟩⟩
    rw [byteLength_append, hi, hj]

theorem slice?_append (before u after : Text) :
    slice? (before ++ u ++ after) (byteLength before) (byteLength before + byteLength u) =
      some u :=
  slice?_eq_some_iff.2 ⟨before, after, rfl, rfl, rfl⟩

theorem isSome_slice?_iff :
    (slice? t i j).isSome ↔ i ≤ j ∧ IsBoundary t i ∧ IsBoundary t j := by
  rw [Option.isSome_iff_exists]
  constructor
  · rintro ⟨u, hu⟩
    obtain ⟨before, after, rfl, rfl, rfl⟩ := slice?_eq_some_iff.1 hu
    refine ⟨Nat.le_add_right .., ⟨before, u ++ after, List.append_assoc .., rfl⟩,
      ⟨before ++ u, after, rfl, byteLength_append ..⟩⟩
  · rintro ⟨hle, ⟨before, b, rfl, rfl⟩, ⟨front, after, hfront, rfl⟩⟩
    -- the text before the first offset begins the text before the second
    obtain ⟨u, rfl⟩ : before <+: front := by
      rcases List.prefix_or_prefix_of_prefix ⟨b, rfl⟩ ⟨after, hfront.symm⟩ with h | ⟨u, rfl⟩
      · exact h
      · rw [byteLength_append] at hle
        cases u with
        | nil => simp
        | cons c u =>
          have hpos := c.utf8Size_pos
          rw [byteLength_cons] at hle
          omega
    refine ⟨u, slice?_eq_some_iff.2 ⟨before, after, hfront, rfl, ?_⟩⟩
    rw [byteLength_append]

end Text

end DocComments
