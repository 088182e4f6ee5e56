import Mathlib.Data.List.DropRight
import DocComments.Json.Grammar

/-!
# The reader reads every written value

`readValue_written`: from the start of a text, `readValue` reads any value that is written there,
in whatever layout and with whatever escapes, and returns what follows it. The first argument has
to be at least the length of the written value, which is what bounds the nesting. `read?` and
`readMany?` give enough of it, so `read?_written` and `readMany?_written` have no such condition.

As `read?` is a function, a text has one value at most (`Written.value_eq`).
-/

namespace DocComments.Json

/-! ## Space -/

theorem eq_of_isSpace {c : Char} (hc : isSpace c = true) :
    c = ' ' ∨ c = '\n' ∨ c = '\r' ∨ c = '\t' := by
  simpa [isSpace, or_assoc] using hc

theorem skipSpace_append {w : Text} (hw : AllSpace w) (t : Text) :
    skipSpace (w ++ t) = skipSpace t :=
  List.dropWhile_append_of_pos hw

theorem skipSpace_cons {c : Char} (hc : isSpace c = false) (t : Text) :
    skipSpace (c :: t) = c :: t := by
  rw [skipSpace, List.dropWhile_cons_of_neg (by simp [hc])]

theorem skipSpace_skipSpace (t : Text) : skipSpace (skipSpace t) = skipSpace t :=
  List.dropWhile_idempotent isSpace t

theorem readValue_skipSpace (fuel : Nat) (t : Text) :
    readValue fuel (skipSpace t) = readValue fuel t := by
  cases fuel with
  | zero => rfl
  | succ fuel => simp only [readValue, skipSpace_skipSpace]

theorem readValue_append {w : Text} (hw : AllSpace w) (fuel : Nat) (t : Text) :
    readValue fuel (w ++ t) = readValue fuel t := by
  rw [← readValue_skipSpace, skipSpace_append hw, readValue_skipSpace]

theorem readItems_skipSpace (fuel : Nat) (t : Text) :
    readItems fuel (skipSpace t) = readItems fuel t := by
  cases fuel with
  | zero => rfl
  | succ fuel => simp only [readItems, readValue_skipSpace]

theorem readFields_skipSpace (fuel : Nat) (t : Text) :
    readFields fuel (skipSpace t) = readFields fuel t := by
  cases fuel with
  | zero => rfl
  | succ fuel => simp only [readFields, skipSpace_skipSpace]

/-! ## Texts -/

theorem readHex4_written {n : Nat} {t : Text} (h : WrittenUnit n t) (rest : Text) :
    readHex4 (t ++ rest) = some (n, rest) := by
  obtain ⟨ha, hb, hc, hd⟩ := h
  simp [readHex4, ha, hb, hc, hd]

theorem readUnit_unit {n : Nat} {t : Text} (h : WrittenUnit n t) (hn : n < 0xd800 ∨ 0xdfff < n)
    (rest : Text) : readUnit (t ++ rest) = some (Char.ofNat n, rest) := by
  simp [readUnit, readHex4_written h, hn]

theorem readUnit_pair {high low : Nat} {t u : Text} (ht : WrittenUnit high t)
    (hu : WrittenUnit low u) (hhigh : 0xd800 ≤ high ∧ high < 0xdc00)
    (hlow : 0xdc00 ≤ low ∧ low ≤ 0xdfff) (rest : Text) :
    readUnit (t ++ '\\' :: 'u' :: (u ++ rest)) =
      some (Char.ofNat (0x10000 + (high - 0xd800) * 0x400 + (low - 0xdc00)), rest) := by
  have hpair : ¬ (high < 0xd800 ∨ 0xdfff < high) := by omega
  simp [readUnit, readHex4_written ht, readHex4_written hu, hpair, hhigh.2, hlow]

theorem readEscaped_short {letter c : Char} (h : (letter, c) ∈ shortEscapes) (rest : Text) :
    readEscaped (letter :: rest) = some (c, rest) := by
  simp only [shortEscapes, List.mem_cons, Prod.mk.injEq, List.not_mem_nil, or_false] at h
  obtain ⟨rfl, rfl⟩ | ⟨rfl, rfl⟩ | ⟨rfl, rfl⟩ | ⟨rfl, rfl⟩ | ⟨rfl, rfl⟩ | ⟨rfl, rfl⟩ | ⟨rfl, rfl⟩ |
    ⟨rfl, rfl⟩ := h <;> rfl

theorem readQuoted_escaped {c : Char} {t rest : Text} (h : readEscaped t = some (c, rest))
    (fuel : Nat) :
    readQuoted (fuel + 1) ('\\' :: t) =
      (readQuoted fuel rest).map fun read => (c :: read.1, read.2) := by
  simp only [readQuoted, h, Option.bind_eq_bind, Option.bind_some]
  cases readQuoted fuel rest <;> rfl

theorem readQuoted_plain {c : Char} (hcontrol : 0x20 ≤ c.toNat) (hquote : c ≠ '"')
    (hbackslash : c ≠ '\\') (fuel : Nat) (t : Text) :
    readQuoted (fuel + 1) (c :: t) =
      (readQuoted fuel t).map fun read => (c :: read.1, read.2) := by
  rw [readQuoted, if_neg (Nat.not_lt.2 hcontrol)]
  · cases readQuoted fuel t <;> rfl
  · exact hquote
  · exact hbackslash

/-- A character as `readQuoted` reads it, whether it is escaped or not. -/
theorem readQuoted_writtenChar {c : Char} {u : Text} (h : WrittenChar c u) (fuel : Nat) (t : Text) :
    readQuoted (fuel + 1) (u ++ t) =
      (readQuoted fuel t).map fun read => (c :: read.1, read.2) := by
  cases h with
  | plain hcontrol hquote hbackslash => exact readQuoted_plain hcontrol hquote hbackslash fuel t
  | short h => exact readQuoted_escaped (readEscaped_short h t) fuel
  | @unit n v h hn =>
    have hread : readEscaped ('u' :: (v ++ t)) = some (Char.ofNat n, t) := readUnit_unit h hn t
    exact readQuoted_escaped hread fuel
  | @pair high low v w hv hw hhigh hlow =>
    have hread : readEscaped ('u' :: (v ++ '\\' :: 'u' :: (w ++ t))) = _ :=
      readUnit_pair hv hw hhigh hlow t
    simpa only [List.cons_append, List.append_assoc] using readQuoted_escaped hread fuel

theorem readQuoted_writtenText {t u : Text} (h : WrittenText t u) {fuel : Nat}
    (hfuel : t.length < fuel) (rest : Text) :
    readQuoted fuel (u ++ '"' :: rest) = some (t, rest) := by
  induction h generalizing fuel with
  | nil =>
    obtain ⟨fuel, rfl⟩ := Nat.exists_eq_add_one.2 hfuel
    rfl
  | @cons c t u v hu hv ih =>
    obtain ⟨fuel, rfl⟩ := Nat.exists_eq_add_one.2 (Nat.zero_lt_of_lt hfuel)
    rw [List.append_assoc, readQuoted_writtenChar hu, ih (Nat.lt_of_succ_lt_succ hfuel)]
    rfl

theorem WrittenChar.length_pos {c : Char} {u : Text} (h : WrittenChar c u) : 0 < u.length := by
  cases h <;> simp

theorem WrittenText.length_le {t u : Text} (h : WrittenText t u) : t.length ≤ u.length := by
  induction h with
  | nil => exact le_rfl
  | cons hu hv ih =>
    have := hu.length_pos
    simp only [List.length_cons, List.length_append]
    omega

/-! ## Numbers -/

theorem isDigit_of_mem_ofNat {n : Nat} : ∀ c ∈ Text.ofNat n, c.isDigit = true :=
  fun _ hc => Nat.isDigit_of_mem_toDigits (by decide) (by decide) hc

theorem exists_ofNat_eq_cons (n : Nat) : ∃ c u, Text.ofNat n = c :: u ∧ c.isDigit = true := by
  obtain ⟨c, u, h⟩ : ∃ c u, Text.ofNat n = c :: u :=
    List.exists_cons_of_ne_nil Nat.toDigits_ne_nil
  refine ⟨c, u, h, isDigit_of_mem_ofNat (n := n) c ?_⟩
  rw [h]
  exact List.mem_cons_self

theorem decimal_ofNat (n : Nat) : decimal (Text.ofNat n) = n := by
  have hfold : decimal (Text.ofNat n) = Nat.ofDigitChars 10 (Text.ofNat n) 0 := by
    simp only [decimal, Nat.ofDigitChars_eq_foldl, Nat.mul_comm]
  rw [hfold]
  exact Nat.ofDigitChars_ten_toDigits

theorem head?_ofNat_ne_zero {n : Nat} (hn : 0 < n) : (Text.ofNat n).head? ≠ some '0' := by
  induction n using Nat.strongRecOn with
  | ind n ih =>
    rw [Text.ofNat, Nat.toDigits_eq_if (by decide)]
    split
    · next hlt =>
      have hdigit : ∀ m < 10, 0 < m → m.digitChar ≠ '0' := by decide
      simpa using hdigit n hlt hn
    · next hge =>
      have hpos : 0 < n / 10 := Nat.div_pos (Nat.not_lt.1 hge) (by decide)
      rw [List.head?_append_of_ne_nil _ Nat.toDigits_ne_nil]
      exact ih (n / 10) (Nat.div_lt_self hn (by decide)) hpos

/-- No number is written with a zero before its other digits. -/
theorem length_ofNat_of_head? {n : Nat} (h : (Text.ofNat n).head? = some '0') :
    (Text.ofNat n).length = 1 := by
  obtain rfl : n = 0 := Nat.eq_zero_of_not_pos fun hn => head?_ofNat_ne_zero hn h
  rfl

theorem isSpace_of_isDigit {c : Char} (hc : c.isDigit = true) : isSpace c = false := by
  by_contra h
  obtain rfl | rfl | rfl | rfl := eq_of_isSpace (Bool.not_eq_false _ ▸ h) <;>
    exact absurd hc (by decide)

/-- What may follow a number. -/
def EndsNumber (rest : Text) : Prop :=
  ∀ c ∈ rest.head?, c.isDigit = false ∧ c ≠ '.' ∧ c ≠ 'e' ∧ c ≠ 'E'

theorem EndsNumber.cons {c : Char} (hc : c.isDigit = false ∧ c ≠ '.' ∧ c ≠ 'e' ∧ c ≠ 'E')
    (rest : Text) : EndsNumber (c :: rest) := by
  rintro _ ⟨⟩
  exact hc

theorem EndsNumber.append {w rest : Text} (hw : AllSpace w) (hrest : EndsNumber rest) :
    EndsNumber (w ++ rest) := by
  cases w with
  | nil => exact hrest
  | cons c w =>
    rintro c' ⟨⟩
    obtain rfl | rfl | rfl | rfl := eq_of_isSpace (hw c List.mem_cons_self) <;> decide

theorem readNumber_ofNat (n : Nat) {rest : Text} (hrest : EndsNumber rest) :
    readNumber (Text.ofNat n ++ rest) = some (.number n, rest) := by
  have htake : (Text.ofNat n ++ rest).takeWhile Char.isDigit = Text.ofNat n := by
    rw [List.takeWhile_append_of_pos isDigit_of_mem_ofNat]
    cases rest with
    | nil => exact List.append_nil _
    | cons c rest => simp [(hrest c rfl).1]
  have hdrop : (Text.ofNat n ++ rest).dropWhile Char.isDigit = rest := by
    rw [List.dropWhile_append_of_pos isDigit_of_mem_ofNat]
    cases rest with
    | nil => rfl
    | cons c rest => simp [(hrest c rfl).1]
  have hne : Text.ofNat n ≠ [] := Nat.toDigits_ne_nil
  have hzero : ¬ ((Text.ofNat n).head? = some '0' ∧ 1 < (Text.ofNat n).length) := by
    rintro ⟨hhead, hlen⟩
    rw [length_ofNat_of_head? hhead] at hlen
    exact lt_irrefl _ hlen
  simp only [readNumber, htake, hdrop, decimal_ofNat]
  cases rest with
  | nil => simp [hne, hzero]
  | cons c rest =>
    obtain ⟨-, hdot, he, hE⟩ := hrest c rfl
    simp [hne, hzero, hdot, he, hE]

/-! ## Values -/

/-- A value starts with a character that is no space and no closing bracket. -/
theorem Written.exists_eq_cons {v : Json} {t : Text} (h : Written v t) :
    ∃ c u, t = c :: u ∧ isSpace c = false ∧ c ≠ ']' := by
  cases h with
  | null => exact ⟨_, _, rfl, rfl, by decide⟩
  | number n =>
    obtain ⟨c, u, ht, hc⟩ := exists_ofNat_eq_cons n
    refine ⟨c, u, ht, isSpace_of_isDigit hc, ?_⟩
    rintro rfl
    exact absurd hc (by decide)
  | string h => exact ⟨_, _, rfl, rfl, by decide⟩
  | emptyArray hw => exact ⟨_, _, rfl, rfl, by decide⟩
  | array h => exact ⟨_, _, rfl, rfl, by decide⟩
  | emptyObject hw => exact ⟨_, _, rfl, rfl, by decide⟩
  | object h => exact ⟨_, _, rfl, rfl, by decide⟩

/-- A number at the start of a text, where no other value can start. -/
theorem readValue_ofNat (n fuel : Nat) {rest : Text} (hrest : EndsNumber rest) :
    readValue (fuel + 1) (Text.ofNat n ++ rest) = some (.number n, rest) := by
  obtain ⟨c, u, ht, hc⟩ := exists_ofNat_eq_cons n
  have hne {d : Char} (hd : d.isDigit = false) : c ≠ d := by
    rintro rfl
    exact absurd hc (by rw [hd]; decide)
  rw [← readNumber_ofNat n hrest, ht, List.cons_append, readValue,
    skipSpace_cons (isSpace_of_isDigit hc)]
  split
  · next h => exact absurd (List.cons.inj h).1 (hne rfl)
  · next h => exact absurd (List.cons.inj h).1 (hne rfl)
  · next h => exact absurd (List.cons.inj h).1 (hne rfl)
  · next h => exact absurd (List.cons.inj h).1 (hne rfl)
  · rfl

theorem readItems_last {fuel : Nat} {item : Json} {w t w' rest : Text} (hw : AllSpace w)
    (hw' : AllSpace w')
    (h : readValue fuel (t ++ (w' ++ ']' :: rest)) = some (item, w' ++ ']' :: rest)) :
    readItems (fuel + 1) (w ++ t ++ w' ++ ']' :: rest) = some ([item], rest) := by
  have hbracket : skipSpace (']' :: rest) = ']' :: rest := skipSpace_cons rfl rest
  rw [List.append_assoc, List.append_assoc, readItems, readValue_append hw, h]
  simp [skipSpace_append hw', hbracket]

theorem readItems_more {fuel : Nat} {item : Json} {items : List Json} {w t w' u rest : Text}
    (hw : AllSpace w) (hw' : AllSpace w')
    (h : readValue fuel (t ++ (w' ++ ',' :: u)) = some (item, w' ++ ',' :: u))
    (hs : readItems fuel u = some (items, rest)) :
    readItems (fuel + 1) (w ++ t ++ w' ++ ',' :: u) = some (item :: items, rest) := by
  have hcomma : skipSpace (',' :: u) = ',' :: u := skipSpace_cons rfl u
  rw [List.append_assoc, List.append_assoc, readItems, readValue_append hw, h]
  simp [skipSpace_append hw', hcomma, hs]

theorem skipSpace_field {w₀ : Text} (hw₀ : AllSpace w₀) (n w₁ w₂ t w₃ rest : Text) :
    skipSpace (w₀ ++ '"' :: n ++ '"' :: w₁ ++ ':' :: w₂ ++ t ++ w₃ ++ rest) =
      '"' :: (n ++ '"' :: (w₁ ++ ':' :: (w₂ ++ (t ++ (w₃ ++ rest))))) := by
  simp only [List.append_assoc, List.cons_append, skipSpace_append hw₀]
  exact skipSpace_cons rfl _

theorem skipSpace_colon {w₁ : Text} (hw₁ : AllSpace w₁) (t : Text) :
    skipSpace (w₁ ++ ':' :: t) = ':' :: t := by
  rw [skipSpace_append hw₁]
  exact skipSpace_cons rfl t

theorem readFields_last {fuel : Nat} {name n : Text} {value : Json} {w₀ w₁ w₂ w₃ t rest : Text}
    (hw₀ : AllSpace w₀) (hn : WrittenText name n) (hname : name.length < fuel)
    (hw₁ : AllSpace w₁) (hw₂ : AllSpace w₂) (hw₃ : AllSpace w₃)
    (h : readValue fuel (t ++ (w₃ ++ '\x7d' :: rest)) = some (value, w₃ ++ '\x7d' :: rest)) :
    readFields (fuel + 1) (w₀ ++ '"' :: n ++ '"' :: w₁ ++ ':' :: w₂ ++ t ++ w₃ ++ '\x7d' :: rest) =
      some ([(name, value)], rest) := by
  have hbrace : skipSpace ('\x7d' :: rest) = '\x7d' :: rest := skipSpace_cons rfl rest
  rw [readFields, skipSpace_field hw₀]
  simp [readQuoted_writtenText hn hname, skipSpace_colon hw₁, readValue_append hw₂, h,
    skipSpace_append hw₃, hbrace]

theorem readFields_more {fuel : Nat} {name n : Text} {value : Json}
    {fields : List (Text × Json)} {w₀ w₁ w₂ w₃ t u rest : Text} (hw₀ : AllSpace w₀)
    (hn : WrittenText name n) (hname : name.length < fuel) (hw₁ : AllSpace w₁)
    (hw₂ : AllSpace w₂) (hw₃ : AllSpace w₃)
    (h : readValue fuel (t ++ (w₃ ++ ',' :: u)) = some (value, w₃ ++ ',' :: u))
    (hs : readFields fuel u = some (fields, rest)) :
    readFields (fuel + 1) (w₀ ++ '"' :: n ++ '"' :: w₁ ++ ':' :: w₂ ++ t ++ w₃ ++ ',' :: u) =
      some ((name, value) :: fields, rest) := by
  have hcomma : skipSpace (',' :: u) = ',' :: u := skipSpace_cons rfl u
  rw [readFields, skipSpace_field hw₀]
  simp [readQuoted_writtenText hn hname, skipSpace_colon hw₁, readValue_append hw₂, h,
    skipSpace_append hw₃, hcomma, hs]

/-- Between brackets stands something that is no space and no closing bracket. -/
theorem WrittenItems.skipSpace_eq {items : List Json} {t : Text} (h : WrittenItems items t)
    (rest : Text) : ∃ c u, skipSpace (t ++ rest) = c :: u ∧ c ≠ ']' := by
  cases h with
  | @last v w t w' hw h hw' =>
    obtain ⟨c, u, rfl, hspace, hc⟩ := h.exists_eq_cons
    refine ⟨c, u ++ (w' ++ rest), ?_, hc⟩
    simp only [List.append_assoc, skipSpace_append hw, List.cons_append, skipSpace_cons hspace]
  | @more v items w t w' u hw h hw' hs =>
    obtain ⟨c, v, rfl, hspace, hc⟩ := h.exists_eq_cons
    refine ⟨c, v ++ (w' ++ ',' :: (u ++ rest)), ?_, hc⟩
    simp only [List.append_assoc, skipSpace_append hw, List.cons_append, skipSpace_cons hspace]

theorem WrittenFields.skipSpace_eq {fields : List (Text × Json)} {t : Text}
    (h : WrittenFields fields t) (rest : Text) :
    ∃ u, skipSpace (t ++ rest) = '"' :: u := by
  cases h with
  | last hw₀ =>
    simp only [List.append_assoc, skipSpace_append hw₀, List.cons_append]
    exact ⟨_, skipSpace_cons rfl _⟩
  | more hw₀ =>
    simp only [List.append_assoc, skipSpace_append hw₀, List.cons_append]
    exact ⟨_, skipSpace_cons rfl _⟩

mutual

/-- **The reader reads every value that is written**, and leaves what follows it. -/
theorem readValue_written {v : Json} {t rest : Text} (h : Written v t) {fuel : Nat}
    (hfuel : t.length ≤ fuel) (hrest : EndsNumber rest) :
    readValue fuel (t ++ rest) = some (v, rest) := by
  -- One step is left at least, as the value has a character.
  obtain ⟨fuel, rfl⟩ : ∃ k, fuel = k + 1 := by
    obtain ⟨c, u, rfl, -⟩ := h.exists_eq_cons
    exact Nat.exists_eq_add_one.2 (Nat.zero_lt_of_lt hfuel)
  cases h with
  | null => rfl
  | number n => exact readValue_ofNat n fuel hrest
  | @string t u h =>
    have hlength := h.length_le
    simp only [List.length_append, List.length_cons, List.length_nil] at hfuel
    have ht : t.length < fuel := by omega
    have hread := readQuoted_writtenText h ht rest
    simp [readValue, skipSpace_cons, isSpace, hread]
  | emptyArray hw => simp [readValue, skipSpace_cons, isSpace, skipSpace_append hw]
  | @array items t h =>
    simp only [List.length_append, List.length_cons, List.length_nil] at hfuel
    have ht : t.length < fuel := by omega
    have hread := readItems_written h ht rest
    -- The reader has looked for a closing bracket, so it is past the space before the items.
    obtain ⟨c, u, hskip, hc⟩ := h.skipSpace_eq (']' :: rest)
    rw [← readItems_skipSpace, hskip] at hread
    simp [readValue, skipSpace_cons, isSpace, hskip, hc, hread]
  | emptyObject hw => simp [readValue, skipSpace_cons, isSpace, skipSpace_append hw]
  | @object fields t h =>
    simp only [List.length_append, List.length_cons, List.length_nil] at hfuel
    have ht : t.length < fuel := by omega
    have hread := readFields_written h ht rest
    obtain ⟨u, hskip⟩ := h.skipSpace_eq ('\x7d' :: rest)
    rw [← readFields_skipSpace, hskip] at hread
    simp [readValue, skipSpace_cons, isSpace, hskip, hread]

theorem readItems_written {items : List Json} {t : Text} (h : WrittenItems items t) {fuel : Nat}
    (hfuel : t.length < fuel) (rest : Text) :
    readItems fuel (t ++ ']' :: rest) = some (items, rest) := by
  obtain ⟨fuel, rfl⟩ := Nat.exists_eq_add_one.2 (Nat.zero_lt_of_lt hfuel)
  cases h with
  | @last item w t w' hw h hw' =>
    simp only [List.length_append] at hfuel
    have hends : EndsNumber (w' ++ ']' :: rest) := .append hw' (.cons (by decide) rest)
    exact readItems_last hw hw' (readValue_written h (by omega) hends)
  | @more item items w t w' u hw h hw' hs =>
    simp only [List.length_append, List.length_cons] at hfuel
    have ht : t.length ≤ fuel := by omega
    have hu : u.length < fuel := by omega
    have hends : EndsNumber (w' ++ ',' :: (u ++ ']' :: rest)) := .append hw' (.cons (by decide) _)
    have hvalue := readValue_written h ht hends
    have hitems := readItems_written hs hu rest
    rw [List.append_assoc, List.cons_append]
    exact readItems_more hw hw' hvalue hitems

theorem readFields_written {fields : List (Text × Json)} {t : Text} (h : WrittenFields fields t)
    {fuel : Nat} (hfuel : t.length < fuel) (rest : Text) :
    readFields fuel (t ++ '\x7d' :: rest) = some (fields, rest) := by
  obtain ⟨fuel, rfl⟩ := Nat.exists_eq_add_one.2 (Nat.zero_lt_of_lt hfuel)
  cases h with
  | @last name n value w₀ w₁ w₂ w₃ t hw₀ hn hw₁ hw₂ h hw₃ =>
    have hname := hn.length_le
    simp only [List.length_append, List.length_cons] at hfuel
    have ht : t.length ≤ fuel := by omega
    have hends : EndsNumber (w₃ ++ '\x7d' :: rest) := .append hw₃ (.cons (by decide) rest)
    have hvalue := readValue_written h ht hends
    exact readFields_last hw₀ hn (by omega) hw₁ hw₂ hw₃ hvalue
  | @more name n value fields w₀ w₁ w₂ w₃ t u hw₀ hn hw₁ hw₂ h hw₃ hs =>
    have hname := hn.length_le
    simp only [List.length_append, List.length_cons] at hfuel
    have ht : t.length ≤ fuel := by omega
    have hu : u.length < fuel := by omega
    have hends : EndsNumber (w₃ ++ ',' :: (u ++ '\x7d' :: rest)) :=
      .append hw₃ (.cons (by decide) _)
    have hvalue := readValue_written h ht hends
    have hfields := readFields_written hs hu rest
    rw [List.append_assoc _ (',' :: u), List.cons_append]
    exact readFields_more hw₀ hn (by omega) hw₁ hw₂ hw₃ hvalue hfields

end

/-! ## Whole texts -/

theorem read?_written {v : Json} {t w w' : Text} (hw : AllSpace w) (h : Written v t)
    (hw' : AllSpace w') : read? (w ++ t ++ w') = some v := by
  have hends : EndsNumber (w' ++ []) := .append hw' (by rintro _ ⟨⟩)
  rw [List.append_nil] at hends
  have hread : readValue ((w ++ t ++ w').length + 1) (w ++ t ++ w') = some (v, w') := by
    rw [List.append_assoc, readValue_append hw]
    refine readValue_written h ?_ hends
    simp only [List.length_append]
    omega
  rw [read?, hread]
  exact if_pos (List.dropWhile_eq_nil_iff.2 hw')

/-- A text has one value at most. -/
theorem Written.value_eq {v v' : Json} {t : Text} (h : Written v t) (h' : Written v' t) :
    v = v' := by
  have hread := read?_written .nil h .nil
  rw [read?_written .nil h' .nil] at hread
  exact (Option.some.inj hread).symm

/-- A text that stands for a value stands for no other. -/
theorem Written.iff_eq {v v' : Json} {t : Text} (h : Written v' t) : Written v t ↔ v = v' := by
  constructor
  · intro h'
    exact h'.value_eq h
  · rintro rfl
    exact h

theorem readManyFrom_written {vs : List Json} {ts : List Text} (h : List.Forall₂ Written vs ts)
    {fuel : Nat} (hfuel : ts.length < fuel) {w : Text} (hw : AllSpace w) :
    readManyFrom fuel (w ++ ts.flatMap fun t => t ++ ['\n']) = some vs := by
  induction h generalizing fuel w with
  | nil =>
    obtain ⟨fuel, rfl⟩ := Nat.exists_eq_add_one.2 hfuel
    rw [List.flatMap_nil, List.append_nil, readManyFrom]
    exact if_pos (List.dropWhile_eq_nil_iff.2 hw)
  | @cons v t vs ts h hs ih =>
    obtain ⟨fuel, rfl⟩ := Nat.exists_eq_add_one.2 (Nat.zero_lt_of_lt hfuel)
    have hnewline : AllSpace ['\n'] := by decide
    have hrest := ih (Nat.lt_of_succ_lt_succ hfuel) hnewline
    set rest := ['\n'] ++ ts.flatMap fun t => t ++ ['\n'] with hdef
    have hsplit : (w ++ (t :: ts).flatMap fun t => t ++ ['\n']) = w ++ (t ++ rest) := by
      rw [List.flatMap_cons, List.append_assoc]
    have hends : EndsNumber rest := .cons (by decide) _
    have hread : readValue ((w ++ (t ++ rest)).length + 1) (w ++ (t ++ rest)) = some (v, rest) := by
      rw [readValue_append hw]
      refine readValue_written h ?_ hends
      simp only [List.length_append]
      omega
    have hne : skipSpace (w ++ (t ++ rest)) ≠ [] := by
      obtain ⟨c, u, rfl, hc, -⟩ := h.exists_eq_cons
      rw [skipSpace_append hw, List.cons_append, skipSpace_cons hc]
      exact List.cons_ne_nil _ _
    rw [hsplit, readManyFrom, if_neg hne, hread]
    simp [hrest]

theorem length_le_length_lines (ts : List Text) :
    ts.length ≤ (ts.flatMap fun t => t ++ ['\n']).length := by
  induction ts with
  | nil => exact le_rfl
  | cons t ts ih =>
    simp only [List.flatMap_cons, List.length_append, List.length_cons, List.length_nil]
    omega

/-- The reader reads values that stand on lines of their own. -/
theorem readMany?_written {vs : List Json} {ts : List Text} (h : List.Forall₂ Written vs ts) :
    readMany? (ts.flatMap fun t => t ++ ['\n']) = some vs :=
  readManyFrom_written h (Nat.lt_succ_of_le (length_le_length_lines ts)) .nil

end DocComments.Json
