import DocComments.Json.Grammar

/-!
# The printer writes texts of the grammar

`written_write`: whatever the layout puts between the parts of a value, as long as it is space,
what `write` writes is a text of that value. The escapes are the short ones where there are any,
and four hexadecimal digits for the other characters below the space.
-/

namespace DocComments.Json

/-! ## Texts -/

theorem writtenUnit_hex4 {n : Nat} (hn : n < 0x20) : WrittenUnit n (hex4 n) := by
  have hzero : hexDigit? '0' = some 0 := by decide
  have hdigit : ∀ m < 16, hexDigit? m.digitChar = some m := by decide
  have hhex : ∀ m < 0x20, hex4 m = ['0', '0', (m / 16).digitChar, (m % 16).digitChar] := by decide
  have hsplit : ((0 * 16 + 0) * 16 + n / 16) * 16 + n % 16 = n := by omega
  have hunit := WrittenUnit.digits hzero hzero (hdigit (n / 16) (by omega))
    (hdigit (n % 16) (by omega))
  rwa [hsplit, ← hhex n hn] at hunit

theorem writtenChar_escape (c : Char) : WrittenChar c (escape c) := by
  unfold escape
  split
  · exact .short (by decide)
  · exact .short (by decide)
  · exact .short (by decide)
  · exact .short (by decide)
  · exact .short (by decide)
  · exact .short (by decide)
  · exact .short (by decide)
  · split
    · next hcontrol =>
      have hunit := WrittenChar.unit (writtenUnit_hex4 hcontrol) (.inl (by omega))
      rwa [Char.ofNat_toNat] at hunit
    · next hquote hbackslash _ _ _ _ _ hcontrol =>
      exact .plain (Nat.not_lt.1 hcontrol) hquote hbackslash

theorem writtenText_escape (t : Text) : WrittenText t (t.flatMap escape) := by
  induction t with
  | nil => exact .nil
  | cons c t ih => exact .cons (writtenChar_escape c) ih

/-! ## Layouts -/

/-- The layout puts nothing but space between the parts of a value. -/
structure Layout.OnlySpace (layout : Layout) : Prop where
  /-- What stands before an item or a closing bracket is space. -/
  lineBreak (depth : Nat) : AllSpace (layout.lineBreak depth)
  /-- What stands between a name and a value is a colon, with space around it. -/
  colon : ∃ w w', AllSpace w ∧ AllSpace w' ∧ layout.colon = w ++ ':' :: w'

theorem Layout.onlySpace_compact : Layout.compact.OnlySpace where
  lineBreak _ := List.forall_mem_nil _
  colon := ⟨[], [], by decide, by decide, rfl⟩

theorem Layout.onlySpace_indented : Layout.indented.OnlySpace where
  lineBreak depth c hc := by
    obtain rfl | hc := List.mem_cons.1 hc
    · rfl
    · rw [List.eq_of_mem_replicate hc]
      rfl
  colon := ⟨[], [' '], by decide, by decide, rfl⟩

/-! ## Values -/

theorem bracket_of_ne_nil (layout : Layout) (depth : Nat) (left right : Char) {items : List Text}
    (h : items ≠ []) :
    bracket layout depth left right items =
      left :: (List.intercalate [','] (items.map (layout.lineBreak (depth + 1) ++ ·)) ++
        layout.lineBreak depth) ++ [right] := by
  unfold bracket
  split
  · exact absurd rfl h
  · simp only [List.append_assoc, List.cons_append]

variable {layout : Layout}

mutual

/-- **Every value is written as the grammar has it**, in any layout that puts space only. -/
theorem written_write (hlayout : layout.OnlySpace) :
    ∀ (v : Json) (depth : Nat), Written v (write layout depth v)
  | .null, _ => .null
  | .number n, _ => .number n
  | .string t, _ => .string (writtenText_escape t)
  | .array [], _ => .emptyArray .nil
  | .array (item :: items), depth => by
    have hitems := writtenItems_write hlayout (hlayout.lineBreak depth) (item :: items)
      (List.cons_ne_nil item items) (depth + 1)
    have hne : writeItems layout (depth + 1) (item :: items) ≠ [] := List.cons_ne_nil _ _
    rw [write, bracket_of_ne_nil layout depth '[' ']' hne]
    exact .array hitems
  | .object [], _ => .emptyObject .nil
  | .object ((name, value) :: fields), depth => by
    have hfields := writtenFields_write hlayout (hlayout.lineBreak depth) ((name, value) :: fields)
      (List.cons_ne_nil _ _) (depth + 1)
    have hne : writeFields layout (depth + 1) ((name, value) :: fields) ≠ [] :=
      List.cons_ne_nil _ _
    rw [write, bracket_of_ne_nil layout depth '\x7b' '\x7d' hne]
    exact .object hfields

theorem writtenItems_write (hlayout : layout.OnlySpace) {w : Text} (hw : AllSpace w) :
    ∀ (items : List Json), items ≠ [] → ∀ depth : Nat,
      WrittenItems items
        (List.intercalate [',']
          ((writeItems layout depth items).map (layout.lineBreak depth ++ ·)) ++ w)
  | [item], _, depth => by
    have h := WrittenItems.last (hlayout.lineBreak depth) (written_write hlayout item depth) hw
    simpa [writeItems] using h
  | item :: next :: items, _, depth => by
    have hitems := writtenItems_write hlayout hw (next :: items) (List.cons_ne_nil _ _) depth
    have h := WrittenItems.more (hlayout.lineBreak depth) (written_write hlayout item depth) .nil
      hitems
    simpa [writeItems, List.intercalate_cons_cons] using h

theorem writtenFields_write (hlayout : layout.OnlySpace) {w : Text} (hw : AllSpace w) :
    ∀ (fields : List (Text × Json)), fields ≠ [] → ∀ depth : Nat,
      WrittenFields fields
        (List.intercalate [',']
          ((writeFields layout depth fields).map (layout.lineBreak depth ++ ·)) ++ w)
  | [(name, value)], _, depth => by
    obtain ⟨w₁, w₂, hw₁, hw₂, hcolon⟩ := hlayout.colon
    have h := WrittenFields.last (hlayout.lineBreak depth) (writtenText_escape name) hw₁ hw₂
      (written_write hlayout value depth) hw
    simpa [writeFields, quote, hcolon] using h
  | (name, value) :: next :: fields, _, depth => by
    obtain ⟨w₁, w₂, hw₁, hw₂, hcolon⟩ := hlayout.colon
    have hfields := writtenFields_write hlayout hw (next :: fields) (List.cons_ne_nil _ _) depth
    have h := WrittenFields.more (hlayout.lineBreak depth) (writtenText_escape name) hw₁ hw₂
      (written_write hlayout value depth) .nil hfields
    simpa [writeFields, quote, hcolon, List.intercalate_cons_cons] using h

end

theorem written_compact (v : Json) : Written v v.compact :=
  written_write Layout.onlySpace_compact v 0

theorem written_indented (v : Json) : Written v v.indented :=
  written_write Layout.onlySpace_indented v 0

end DocComments.Json
