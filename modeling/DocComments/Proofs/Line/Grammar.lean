import DocComments.Proofs.Line
import DocComments.Proofs.Text.Expression

/-!
# The grammar of lines

What a line contributes is settled by two regular expressions, one for lines that are decorated and
one for contents that open a tag. Blanks, stars and the rest of a line can overlap, so there are
many ways to match them; but the way that counts is the only one in which the decoration takes all
that it can.

* `decorated` and `tagged` are the expressions.
* `Decoration line` cuts a line into the parts of its decoration and its rest. There is at most one
  (`Decoration.ext_line`), and it is the way in which the expression matches
  (`firstWay?_decorated_eq_some_iff`).
* `line_grammar` gives `content?` and `readTag?` by what a line is made of, and by the expressions.
-/

namespace DocComments.Line

open Text Entry Expression

variable {line content key value : Text} {ws : List Text}

/-! ## The expressions -/

/-- Blanks, a slash or none, stars, blanks, and the rest of the line. -/
def decorated : Expression :=
  [.any isBlank, .optional (· == '/'), .some (· == '*'), .any isBlank, .any (· != '\n')]

/-- An at sign, a word, and the rest of the line. -/
def tagged : Expression :=
  [.one (· == '@'), .some isWord, .any (· != '\n')]

/-- The content of a decorated line, from its parts. -/
def capturedContent? : List Text → Option Text
  | [_, _, _, _, rest] => if trim rest = ['/'] then none else some (trim rest)
  | _ => none

/-- The key and the value of a tag, from the parts of its content. -/
def capturedTag? : List Text → Option (Text × Text)
  | [_, key, rest] => some (key, trim rest)
  | _ => none

/-! ## Decorated lines -/

/-- The parts of a decorated line, each as long as it can be. -/
@[ext]
structure Decoration (line : Text) where
  /-- The blanks at the start. -/
  before : Text
  /-- The slash, if there is one. -/
  slash : Text
  /-- The number of stars. -/
  stars : ℕ
  /-- The blanks after the stars. -/
  after : Text
  /-- The rest of the line. -/
  rest : Text
  /-- These are all of the line. -/
  line_eq : line = before ++ (slash ++ (List.replicate stars '*' ++ (after ++ rest)))
  /-- Only blanks stand at the start. -/
  allBlank_before : AllBlank before
  /-- There is at most one slash. -/
  slash_eq : slash = [] ∨ slash = ['/']
  /-- There is at least one star. -/
  stars_pos : 0 < stars
  /-- Only blanks stand after the stars. -/
  allBlank_after : AllBlank after
  /-- No star is left. -/
  head?_rest_ne : after = [] → rest.head? ≠ some '*'
  /-- No blank is left. -/
  isBlank_head?_rest : ∀ c ∈ rest.head?, isBlank c = false
  /-- The line ends with its rest. -/
  newline_not_mem : '\n' ∉ rest

namespace Decoration

/-- What the parts of the expression take. -/
def parts (d : Decoration line) : List Text :=
  [d.before, d.slash, List.replicate d.stars '*', d.after, d.rest]

theorem trimStart_rest (d : Decoration line) : trimStart d.rest = d.rest :=
  trimStart_eq_self_iff.2 d.isBlank_head?_rest

theorem decorated_rest (d : Decoration line) : Decorated line d.rest := by
  obtain ⟨n, hn⟩ := Nat.exists_eq_succ_of_ne_zero d.stars_pos.ne'
  refine ⟨d.before, d.slash, n, d.after, d.allBlank_before, d.slash_eq, d.allBlank_after,
    d.head?_rest_ne, d.trimStart_rest, ?_⟩
  rw [← Nat.succ_eq_add_one, ← hn]
  exact d.line_eq

theorem exists_rest_eq {rest : Text} (h : Decorated line rest) (hn : '\n' ∉ rest) :
    ∃ d : Decoration line, d.rest = rest := by
  obtain ⟨w₁, slash, n, w₂, hw₁, hslash, hw₂, hstar, hrest, hline⟩ := h
  exact ⟨⟨w₁, slash, n + 1, w₂, rest, hline, hw₁, hslash, n.succ_pos, hw₂, hstar,
    trimStart_eq_self_iff.1 hrest, hn⟩, rfl⟩

/-- **A decoration is the way in which its line matches.** -/
theorem firstWay?_decorated (d : Decoration line) : firstWay? decorated line = some d.parts := by
  obtain ⟨before, slash, n, after, rest, rfl, hbefore, hslash, hn, hafter, hstar, hblank, hnew⟩ := d
  have hstars : (List.replicate n '*' ++ (after ++ rest)).head? = some '*' := by
    rw [List.head?_append_of_ne_nil _ (by simp; omega), List.head?_replicate, if_neg hn.ne']
  have hrest : firstWay? [.any (· != '\n')] rest = some [rest] := by
    have hall : ∀ c ∈ rest, (c != '\n') = true := fun c hc => by
      simpa using fun h : c = '\n' => hnew (h ▸ hc)
    simpa using firstWay?_any (b := []) hall (by simp) (e := []) rfl
  have hblanks : firstWay? [.any isBlank, .any (· != '\n')] (after ++ rest) = some [after, rest] :=
    firstWay?_any hafter hblank hrest
  have hrun : firstWay? [.some (· == '*'), .any isBlank, .any (· != '\n')]
      (List.replicate n '*' ++ (after ++ rest)) = some [List.replicate n '*', after, rest] := by
    refine firstWay?_some (by simp; omega) (by simp) (fun c hc => ?_) hblanks
    cases after with
    | nil => simpa using fun h : c = '*' => hstar rfl (h ▸ hc)
    | cons w after =>
      obtain rfl : w = c := by simpa using hc
      simpa using ne_star_of_isBlank (hafter w (List.mem_cons_self ..))
  have hfrom : firstWay? [.optional (· == '/'), .some (· == '*'), .any isBlank, .any (· != '\n')]
      (slash ++ (List.replicate n '*' ++ (after ++ rest))) =
        some [slash, List.replicate n '*', after, rest] := by
    refine firstWay?_optional (by simpa using hslash) ?_ hrun
    rw [hstars]
    rintro _ ⟨⟩
    rfl
  refine firstWay?_any hbefore ?_ hfrom
  rcases hslash with rfl | rfl
  · rw [List.nil_append, hstars]
    rintro _ ⟨⟩
    decide
  · rintro _ ⟨⟩
    decide

/-- A line is decorated in one way only. -/
theorem ext_line (d d' : Decoration line) : d = d' := by
  have hparts : d.parts = d'.parts :=
    Option.some.inj (d.firstWay?_decorated.symm.trans d'.firstWay?_decorated)
  simp only [parts, List.cons.injEq] at hparts
  obtain ⟨hbefore, hslash, hstars, hafter, hrest, -⟩ := hparts
  have hlength := congrArg List.length hstars
  simp only [List.length_replicate] at hlength
  exact Decoration.ext hbefore hslash hlength hafter hrest

/-- However the stars and the blanks give back what they could take, no more of the line is left
than its rest. -/
theorem trimStart_dropWhile_suffix {w : Text} (hw : AllBlank w) (t : Text) :
    trimStart ((w ++ t).dropWhile (· == '*')) <:+ t := by
  cases w with
  | nil => exact (trimStart_suffix_self _).trans (List.dropWhile_suffix _)
  | cons c w =>
    have hc : c ≠ '*' := ne_star_of_isBlank (hw c (List.mem_cons_self ..))
    rw [List.cons_append, List.dropWhile_cons_of_neg (by simpa using hc), ← List.cons_append,
      trimStart_append hw]
    exact trimStart_suffix_self t

/-- **A line that matches in any way is decorated.** -/
theorem nonempty_of_mem_ways (h : ws ∈ ways decorated line) : Nonempty (Decoration line) := by
  obtain ⟨rfl, hall⟩ := mem_ways_iff.1 h
  obtain ⟨before, _, ⟨hbefore, -⟩, h₁, rfl⟩ := List.forall₂_cons_left_iff.1 hall
  obtain ⟨slash, _, ⟨hslash, -, hone⟩, h₂, rfl⟩ := List.forall₂_cons_left_iff.1 h₁
  obtain ⟨stars, _, ⟨hstars, hsome, -⟩, h₃, rfl⟩ := List.forall₂_cons_left_iff.1 h₂
  obtain ⟨after, _, ⟨hafter, -⟩, h₄, rfl⟩ := List.forall₂_cons_left_iff.1 h₃
  obtain ⟨rest, _, ⟨hrest, -⟩, h₅, rfl⟩ := List.forall₂_cons_left_iff.1 h₄
  obtain rfl := List.forall₂_nil_left_iff.1 h₅
  obtain ⟨n, w, hw, hstar, hsplit⟩ := exists_eq_stars_append (after ++ rest)
  have hstars : stars = List.replicate stars.length '*' :=
    List.eq_replicate_of_mem fun c hc => beq_iff_eq.1 (hstars c hc)
  have hslash : slash = [] ∨ slash = ['/'] := by
    have hlength := hone 1 rfl
    cases slash with
    | nil => exact .inl rfl
    | cons c slash =>
      obtain rfl : slash = [] := by simpa using hlength
      rw [beq_iff_eq.1 (hslash c (List.mem_singleton_self c))]
      exact .inr rfl
  have hnew : '\n' ∉ trimStart ((after ++ rest).dropWhile (· == '*')) := fun hn =>
    absurd (hrest _ ((trimStart_dropWhile_suffix hafter rest).subset hn)) (by decide)
  refine ⟨⟨before, slash, stars.length + n, w, _, ?_, hbefore, hslash, Nat.add_pos_left hsome n, hw,
    hstar, trimStart_eq_self_iff.1 (trimStart_trimStart _), hnew⟩⟩
  rw [← List.replicate_append_replicate, ← hstars, List.append_assoc, ← hsplit]
  simp

theorem firstWay?_decorated_eq_some_iff :
    firstWay? decorated line = some ws ↔ ∃ d : Decoration line, d.parts = ws := by
  constructor
  · intro h
    obtain ⟨d⟩ := nonempty_of_mem_ways (mem_ways_of_firstWay? h)
    exact ⟨d, Option.some.inj (d.firstWay?_decorated.symm.trans h)⟩
  · rintro ⟨d, rfl⟩
    exact d.firstWay?_decorated

end Decoration

/-- **The content of a line** is the rest of its decoration. -/
theorem content?_eq_some_iff :
    content? line = some content ↔
      ∃ d : Decoration line, trimEnd d.rest = content ∧ content ≠ ['/'] := by
  constructor
  · intro h
    obtain ⟨rest, hrest, hif⟩ := Option.bind_eq_some_iff.1 h
    split at hif
    · cases hif
    next hcond =>
    cases hif
    simp only [Bool.or_eq_true, List.contains_iff_mem, beq_iff_eq, not_or] at hcond
    obtain ⟨d, rfl⟩ := Decoration.exists_rest_eq (afterLeader?_eq_some_iff.1 hrest) hcond.1
    exact ⟨d, rfl, hcond.2⟩
  · rintro ⟨d, rfl, hslash⟩
    exact content?_of_decorated d.decorated_rest d.newline_not_mem hslash

theorem content?_eq_captured (line : Text) :
    content? line = (firstWay? decorated line).bind capturedContent? := by
  ext content
  rw [content?_eq_some_iff, Option.bind_eq_some_iff]
  simp only [Decoration.firstWay?_decorated_eq_some_iff]
  constructor
  · rintro ⟨d, rfl, hslash⟩
    refine ⟨_, ⟨d, rfl⟩, ?_⟩
    rw [Decoration.parts, capturedContent?, trim_eq_trimEnd d.trimStart_rest, if_neg hslash]
  · rintro ⟨_, ⟨d, rfl⟩, h⟩
    rw [Decoration.parts, capturedContent?, trim_eq_trimEnd d.trimStart_rest] at h
    split at h
    · cases h
    · next hslash =>
      cases h
      exact ⟨d, rfl, hslash⟩

/-! ## Contents that open a tag -/

/-- The content is an at sign, a key, and a rest that does not go on with the key. -/
structure Opens (content key rest : Text) : Prop where
  /-- These are all of the content. -/
  content_eq : content = '@' :: (key ++ rest)
  /-- The key is a word. -/
  isKey : IsKey key
  /-- The word is not longer. -/
  isWord_head?_rest : ∀ c ∈ rest.head?, isWord c = false
  /-- The line ends with the rest. -/
  newline_not_mem : '\n' ∉ rest

theorem opens_takeWhile {t : Text} (hne : t.takeWhile isWord ≠ []) (hn : '\n' ∉ t.dropWhile isWord) :
    Opens ('@' :: t) (t.takeWhile isWord) (t.dropWhile isWord) where
  content_eq := by rw [List.takeWhile_append_dropWhile]
  isKey := ⟨hne, fun c hc => List.mem_takeWhile_imp hc⟩
  isWord_head?_rest c hc := by
    have hstop := List.head?_dropWhile_not isWord t
    rw [Option.mem_def.1 hc] at hstop
    simpa using hstop
  newline_not_mem := hn

/-- **A tag is read from the word after the at sign** and from what follows it. -/
theorem readTag?_eq_some_iff :
    readTag? content = some (key, value) ↔ ∃ rest, Opens content key rest ∧ trim rest = value := by
  constructor
  · intro h
    unfold readTag? at h
    split at h
    · next t =>
      dsimp only at h
      split at h
      · cases h
      next hcond =>
      cases h
      simp only [Bool.or_eq_true, List.isEmpty_iff, List.contains_iff_mem, not_or] at hcond
      exact ⟨_, opens_takeWhile hcond.1 hcond.2, rfl⟩
    · cases h
  · rintro ⟨rest, ⟨rfl, hkey, hstop, hnew⟩, rfl⟩
    exact readTag?_at hkey rest hstop hnew

theorem Opens.firstWay?_tagged {rest : Text} (h : Opens content key rest) :
    firstWay? tagged content = some [['@'], key, rest] := by
  obtain ⟨rfl, hkey, hstop, hnew⟩ := h
  have hall : ∀ c ∈ rest, (c != '\n') = true := fun c hc => by
    simpa using fun h : c = '\n' => hnew (h ▸ hc)
  have hrest : firstWay? [.any (· != '\n')] rest = some [rest] := by
    simpa using firstWay?_any (b := []) hall (by simp) (e := []) rfl
  exact firstWay?_one rfl (firstWay?_some hkey.1 hkey.2 hstop hrest)

/-- A content that matches in any way opens a tag: the word takes what it has given back. -/
theorem exists_opens_of_mem_ways (h : ws ∈ ways tagged content) :
    ∃ key rest, Opens content key rest := by
  obtain ⟨rfl, hall⟩ := mem_ways_iff.1 h
  obtain ⟨at', _, ⟨hat, hleast, hone⟩, h₁, rfl⟩ := List.forall₂_cons_left_iff.1 hall
  obtain ⟨key, _, ⟨hkey, hsome, -⟩, h₂, rfl⟩ := List.forall₂_cons_left_iff.1 h₁
  obtain ⟨rest, _, ⟨hrest, -⟩, h₃, rfl⟩ := List.forall₂_cons_left_iff.1 h₂
  obtain rfl := List.forall₂_nil_left_iff.1 h₃
  obtain ⟨c, rfl⟩ := List.length_eq_one_iff.1 (Nat.le_antisymm (hone 1 rfl) hleast)
  obtain rfl := beq_iff_eq.1 (hat c (List.mem_singleton_self c))
  have htake : (key ++ rest).takeWhile isWord = key ++ rest.takeWhile isWord :=
    List.takeWhile_append_of_pos hkey
  have hdrop : (key ++ rest).dropWhile isWord = rest.dropWhile isWord :=
    List.dropWhile_append_of_pos hkey
  rw [show [['@'], key, rest].flatten = '@' :: (key ++ rest) by simp]
  refine ⟨_, _, opens_takeWhile ?_ ?_⟩
  · rw [htake]
    exact List.append_ne_nil_of_left_ne_nil (List.length_pos_iff.1 hsome) _
  · rw [hdrop]
    exact fun hn => absurd (hrest _ ((List.dropWhile_suffix _).subset hn)) (by decide)

theorem firstWay?_tagged_eq_some_iff :
    firstWay? tagged content = some ws ↔
      ∃ key rest, Opens content key rest ∧ [['@'], key, rest] = ws := by
  constructor
  · intro h
    obtain ⟨key, rest, hopens⟩ := exists_opens_of_mem_ways (mem_ways_of_firstWay? h)
    exact ⟨key, rest, hopens, Option.some.inj (hopens.firstWay?_tagged.symm.trans h)⟩
  · rintro ⟨key, rest, hopens, rfl⟩
    exact hopens.firstWay?_tagged

theorem readTag?_eq_captured (content : Text) :
    readTag? content = (firstWay? tagged content).bind capturedTag? := by
  ext ⟨key, value⟩
  rw [readTag?_eq_some_iff, Option.bind_eq_some_iff]
  simp only [firstWay?_tagged_eq_some_iff]
  constructor
  · rintro ⟨rest, hopens, rfl⟩
    exact ⟨_, ⟨key, rest, hopens, rfl⟩, rfl⟩
  · rintro ⟨_, ⟨key', rest, hopens, rfl⟩, h⟩
    cases h
    exact ⟨rest, hopens, rfl⟩

/-- On one line, an at sign and a word character are enough. -/
theorem isSome_readTag?_iff (hn : '\n' ∉ content) :
    (readTag? content).isSome = true ↔ ∃ c t, content = '@' :: c :: t ∧ isWord c = true := by
  constructor
  · intro h
    obtain ⟨⟨key, value⟩, htag⟩ := Option.isSome_iff_exists.1 h
    obtain ⟨rest, hopens, -⟩ := readTag?_eq_some_iff.1 htag
    obtain ⟨c, key, rfl⟩ := List.exists_cons_of_ne_nil hopens.isKey.1
    exact ⟨c, key ++ rest, hopens.content_eq, hopens.isKey.2 c (List.mem_cons_self ..)⟩
  · rintro ⟨c, t, rfl, hc⟩
    have hkey : (c :: t).takeWhile isWord ≠ [] := by simp [hc]
    have hnew : '\n' ∉ (c :: t).dropWhile isWord := fun hmem =>
      hn (List.mem_cons_of_mem _ ((List.dropWhile_suffix _).subset hmem))
    exact Option.isSome_iff_exists.2
      ⟨_, readTag?_eq_some_iff.2 ⟨_, opens_takeWhile hkey hnew, rfl⟩⟩

/-! ## The grammar -/

/-- **The grammar of lines.** A content is the rest of a line after its decoration, which is unique,
without the blanks at its end; a lone slash is none. A tag is read from a content by the word after
an at sign. Both are what the expressions match. A content is on one line, so that an at sign and a
word character make it a tag. -/
theorem line_grammar :
    (∀ line content, content? line = some content ↔
      ∃ d : Decoration line, trimEnd d.rest = content ∧ content ≠ ['/']) ∧
    (∀ line, Subsingleton (Decoration line)) ∧
    (∀ line, content? line = (firstWay? decorated line).bind capturedContent?) ∧
    (∀ content key value, readTag? content = some (key, value) ↔
      ∃ rest, Opens content key rest ∧ trim rest = value) ∧
    (∀ content, readTag? content = (firstWay? tagged content).bind capturedTag?) ∧
    (∀ line, ∀ content ∈ content? line, '\n' ∉ content ∧
      ((readTag? content).isSome = true ↔ ∃ c t, content = '@' :: c :: t ∧ isWord c = true)) := by
  refine ⟨fun _ _ => content?_eq_some_iff, fun line => ⟨Decoration.ext_line⟩, content?_eq_captured,
    fun _ _ _ => readTag?_eq_some_iff, readTag?_eq_captured, fun line content hcontent => ?_⟩
  obtain ⟨-, hn, -, -⟩ := content?_spec hcontent
  exact ⟨hn, isSome_readTag?_iff hn⟩

/-- A line feed among the blanks after the stars is part of the decoration. -/
theorem line_grammar_see :
    let line := " /*** \n @see b ".toList
    content? line = some "@see b".toList ∧ (readTag? "@see b".toList).isSome = true := by
  intro line
  have hcontent : content? line = some "@see b".toList := by decide +kernel
  obtain ⟨-, -, -, -, -, hline⟩ := line_grammar
  obtain ⟨-, htag⟩ := hline line _ hcontent
  exact ⟨hcontent, htag.2 ⟨'s', "ee b".toList, rfl, by decide +kernel⟩⟩

end DocComments.Line
