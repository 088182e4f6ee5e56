import DocComments.Text.Expression
import Mathlib.Data.List.Forall2

/-!
# Matching a regular expression

The ways in which an expression matches a text are the ways to write the text as one piece for each
part. Which of them counts is settled part by part: a part takes the longest run it can, and if the
rest matches after it, nothing is given back.

* `mem_ways_iff` says which ways there are.
* `head?_cuts` and `firstWay?_cons` find the first one; `firstWay?_any`, `firstWay?_some`,
  `firstWay?_one` and `firstWay?_optional` are the cases of the four kinds of parts.
-/

namespace DocComments.Expression

variable {p : Char → Bool} {least : ℕ} {most : Option ℕ} {c d : Char} {t a b : Text} {part : Part}
  {e : Expression} {ws : List Text}

/-! ## One part -/

theorem nil_mem_cuts_iff : ([], b) ∈ cuts p least most t ↔ b = t ∧ least = 0 := by
  cases t <;> simp [cuts, and_comm]

theorem cons_mem_cuts_iff :
    (d :: a, b) ∈ cuts p least most (c :: t) ↔
      c = d ∧ p c = true ∧ most ≠ some 0 ∧ (a, b) ∈ cuts p (least - 1) (most.map (· - 1)) t := by
  by_cases h : p c = true ∧ most ≠ some 0
  · simp [cuts, h, and_comm]
  · simp [cuts, h, ← and_assoc]

/-- **What a part can take**: characters of its class, within its bounds. -/
theorem mem_cuts_iff :
    (a, b) ∈ cuts p least most t ↔
      a ++ b = t ∧ (∀ c ∈ a, p c = true) ∧ least ≤ a.length ∧ ∀ m ∈ most, a.length ≤ m := by
  induction t generalizing least most a with
  | nil =>
    cases a with
    | nil => simp [nil_mem_cuts_iff]
    | cons d a => simp [cuts]
  | cons c t ih =>
    cases a with
    | nil => simp [nil_mem_cuts_iff]
    | cons d a =>
      have hleast : least - 1 ≤ a.length ↔ least ≤ (d :: a).length := by
        rw [List.length_cons, Nat.sub_le_iff_le_add]
      have hmost : (most ≠ some 0 ∧ ∀ m ∈ most.map (· - 1), a.length ≤ m) ↔
          ∀ m ∈ most, (d :: a).length ≤ m := by
        cases most with
        | none => simp
        | some m =>
          simp only [ne_eq, Option.some.injEq, Option.map_some, Option.mem_some_iff, forall_eq',
            List.length_cons]
          omega
      rw [cons_mem_cuts_iff, ih, ← hleast, ← hmost, List.cons_append, List.cons.injEq,
        List.forall_mem_cons]
      constructor
      · rintro ⟨rfl, hc, hzero, rfl, ha, hleast, hmost⟩
        exact ⟨⟨rfl, rfl⟩, ⟨hc, ha⟩, hleast, hzero, hmost⟩
      · rintro ⟨⟨rfl, rfl⟩, ⟨hc, ha⟩, hleast, hzero, hmost⟩
        exact ⟨rfl, hc, hzero, rfl, ha, hleast, hmost⟩

/-- A part takes the longest run of its class, or as much of it as it can. -/
theorem head?_cuts (ha : ∀ c ∈ a, p c = true) (hleast : least ≤ a.length)
    (hmost : ∀ m ∈ most, a.length ≤ m) (hstop : most = some a.length ∨ ∀ c ∈ b.head?, p c = false) :
    (cuts p least most (a ++ b)).head? = some (a, b) := by
  induction a generalizing least most with
  | nil =>
    obtain rfl : least = 0 := Nat.le_zero.1 hleast
    cases b with
    | nil => rfl
    | cons c b =>
      have hno : ¬ (p c = true ∧ most ≠ some 0) := by
        rintro ⟨hc, hmost⟩
        rcases hstop with hstop | hstop
        · exact hmost hstop
        · simp [hstop c rfl] at hc
      rw [List.nil_append, cuts, if_neg hno]
      rfl
  | cons c a ih =>
    obtain ⟨hc, ha⟩ := List.forall_mem_cons.1 ha
    rw [List.length_cons] at hleast
    have hmore : most ≠ some 0 := by
      rintro rfl
      simpa using hmost 0 rfl
    have hfirst : (cuts p (least - 1) (most.map (· - 1)) (a ++ b)).head? = some (a, b) := by
      refine ih ha (by omega) ?_ ?_
      · cases most with
        | none => simp
        | some m =>
          have hm := hmost m rfl
          rw [List.length_cons] at hm
          simp only [Option.map_some, Option.mem_some_iff, forall_eq']
          omega
      · refine hstop.imp_left ?_
        rintro rfl
        simp
    simp [cuts, hc, hmore, hfirst]

/-! ## All parts -/

/-- The part can take the text, as far as it is concerned. -/
def Part.Takes (part : Part) (a : Text) : Prop :=
  (∀ c ∈ a, part.accepts c = true) ∧ part.least ≤ a.length ∧ ∀ m ∈ part.most, a.length ≤ m

/-- **The ways in which an expression matches** are the ways to put the text together from what its
parts can take. -/
theorem mem_ways_iff : ws ∈ ways e t ↔ ws.flatten = t ∧ List.Forall₂ Part.Takes e ws := by
  induction e generalizing t ws with
  | nil =>
    rw [ways, List.mem_ite_nil_right, List.mem_singleton, List.forall₂_nil_left_iff]
    constructor
    · rintro ⟨rfl, rfl⟩
      exact ⟨rfl, rfl⟩
    · rintro ⟨rfl, rfl⟩
      exact ⟨rfl, rfl⟩
  | cons part parts ih =>
    simp only [ways, List.mem_flatMap, List.mem_map]
    constructor
    · rintro ⟨⟨a, b⟩, hcut, ws, hws, rfl⟩
      obtain ⟨rfl, htakes⟩ := mem_cuts_iff.1 hcut
      obtain ⟨rfl, hall⟩ := ih.1 hws
      exact ⟨rfl, .cons htakes hall⟩
    · rintro ⟨rfl, hall⟩
      cases hall with
      | cons htakes hall =>
        exact ⟨⟨_, _⟩, mem_cuts_iff.2 ⟨rfl, htakes⟩, _, ih.2 ⟨rfl, hall⟩, rfl⟩

theorem mem_ways_of_firstWay? (h : firstWay? e t = some ws) : ws ∈ ways e t :=
  List.mem_of_mem_head? h

/-- If the rest matches after the most that a part can take, nothing is given back. -/
theorem firstWay?_cons (hcut : (cuts part.accepts part.least part.most t).head? = some (a, b))
    (hrest : firstWay? e b = some ws) : firstWay? (part :: e) t = some (a :: ws) := by
  obtain ⟨others, hcuts⟩ := List.head?_eq_some_iff.1 hcut
  rw [firstWay?] at hrest ⊢
  rw [ways, hcuts, List.flatMap_cons, List.head?_append, List.head?_map, hrest]
  rfl

theorem firstWay?_any (ha : ∀ c ∈ a, p c = true) (hstop : ∀ c ∈ b.head?, p c = false)
    (hrest : firstWay? e b = some ws) : firstWay? (.any p :: e) (a ++ b) = some (a :: ws) :=
  firstWay?_cons (head?_cuts ha (Nat.zero_le _) nofun (.inr hstop)) hrest

theorem firstWay?_some (hne : a ≠ []) (ha : ∀ c ∈ a, p c = true)
    (hstop : ∀ c ∈ b.head?, p c = false) (hrest : firstWay? e b = some ws) :
    firstWay? (.some p :: e) (a ++ b) = some (a :: ws) :=
  firstWay?_cons (head?_cuts ha (List.length_pos_iff.2 hne) nofun (.inr hstop)) hrest

theorem firstWay?_one (hc : p c = true) (hrest : firstWay? e b = some ws) :
    firstWay? (.one p :: e) (c :: b) = some ([c] :: ws) :=
  firstWay?_cons (head?_cuts (a := [c]) (List.forall_mem_singleton.2 hc) (Nat.le_refl _)
    (by rintro _ ⟨⟩; exact Nat.le_refl _) (.inl rfl)) hrest

theorem firstWay?_optional (ha : a = [] ∨ ∃ c, a = [c] ∧ p c = true)
    (hstop : ∀ c ∈ b.head?, p c = false) (hrest : firstWay? e b = some ws) :
    firstWay? (.optional p :: e) (a ++ b) = some (a :: ws) := by
  refine firstWay?_cons (head?_cuts ?_ (Nat.zero_le _) ?_ (.inr hstop)) hrest
  · rcases ha with rfl | ⟨c, rfl, hc⟩
    · exact List.forall_mem_nil _
    · exact List.forall_mem_singleton.2 hc
  · rintro _ ⟨⟩
    rcases ha with rfl | ⟨c, rfl, -⟩
    · exact Nat.zero_le _
    · exact Nat.le_refl _

end DocComments.Expression
