import Mathlib.Data.List.Basic
import Mathlib.Data.List.Forall2

/-!
# The first failure on a list

A step that can fail is done for the elements of a list one after the other, until it fails. What
comes of it is the failure of the first element that it fails on.

* `FailsFirst step xs e` says that this failure is `e`; there is one exactly if the step fails on
  any element (`exists_failsFirst_iff`).
* `mapM_eq_error_iff` and `forM_eq_error_iff` say that going through a list ends with it, and
  `forM_flatMap` that lists of lists are gone through like one list.
* `failsFirst_iff_getElem?` and `failsFirst_flatMap_iff` give the first failure its position.
* `mapM_eq_ok_iff`: without a failure, there is a result for each element.
-/

namespace DocComments

variable {α β γ ε : Type} {step : α → Except ε β} {x : α} {xs : List α} {e : ε}

/-- The step fails with `e` on an element of the list, and on none before it. -/
def FailsFirst (step : α → Except ε β) (xs : List α) (e : ε) : Prop :=
  ∃ before x after, xs = before ++ x :: after ∧ step x = .error e ∧
    ∀ y ∈ before, ∃ b, step y = .ok b

theorem failsFirst_nil : ¬ FailsFirst step [] e := by
  rintro ⟨before, x, after, h, -⟩
  cases before <;> cases h

theorem failsFirst_cons_of_error {e' : ε} (hx : step x = .error e') :
    FailsFirst step (x :: xs) e ↔ e' = e := by
  constructor
  · rintro ⟨before, y, after, h, hy, hbefore⟩
    cases before with
    | nil =>
      cases h
      exact Except.error.inj (hx.symm.trans hy)
    | cons z before =>
      cases h
      obtain ⟨b, hb⟩ := hbefore x (List.mem_cons_self ..)
      cases hx.symm.trans hb
  · rintro rfl
    exact ⟨[], x, xs, rfl, hx, List.forall_mem_nil _⟩

theorem failsFirst_cons_of_ok {b : β} (hx : step x = .ok b) :
    FailsFirst step (x :: xs) e ↔ FailsFirst step xs e := by
  constructor
  · rintro ⟨before, y, after, h, hy, hbefore⟩
    cases before with
    | nil =>
      cases h
      cases hx.symm.trans hy
    | cons z before =>
      cases h
      exact ⟨before, y, after, rfl, hy, (List.forall_mem_cons.1 hbefore).2⟩
  · rintro ⟨before, y, after, rfl, hy, hbefore⟩
    exact ⟨x :: before, y, after, rfl, hy, List.forall_mem_cons.2 ⟨⟨b, hx⟩, hbefore⟩⟩

/-- **There is a first failure exactly if there is any.** -/
theorem exists_failsFirst_iff :
    (∃ e, FailsFirst step xs e) ↔ ∃ x ∈ xs, ∃ e, step x = .error e := by
  induction xs with
  | nil => simp [failsFirst_nil]
  | cons x xs ih =>
    rw [List.exists_mem_cons_iff]
    cases hx : step x with
    | error e => simp [failsFirst_cons_of_error hx]
    | ok b => simpa [failsFirst_cons_of_ok hx] using ih

theorem mapM_eq_error_iff : xs.mapM step = .error e ↔ FailsFirst step xs e := by
  induction xs with
  | nil => simp [failsFirst_nil, pure, Except.pure]
  | cons x xs ih =>
    rw [List.mapM_cons]
    cases hx : step x with
    | error e' =>
      rw [failsFirst_cons_of_error hx]
      exact ⟨fun h => Except.error.inj h, fun h => congrArg Except.error h⟩
    | ok b =>
      rw [failsFirst_cons_of_ok hx, ← ih]
      cases xs.mapM step <;> simp [bind, Except.bind, pure, Except.pure]

theorem forM_eq_error_iff {step : α → Except ε Unit} :
    xs.forM step = .error e ↔ FailsFirst step xs e := by
  induction xs with
  | nil => simp [failsFirst_nil, pure, Except.pure]
  | cons x xs ih =>
    change (step x >>= fun _ => xs.forM step) = _ ↔ _
    cases hx : step x with
    | error e' =>
      rw [failsFirst_cons_of_error hx]
      exact ⟨fun h => Except.error.inj h, fun h => congrArg Except.error h⟩
    | ok b =>
      rw [failsFirst_cons_of_ok hx, ← ih]
      rfl

theorem forM_flatMap {f : γ → List α} (step : α → Except ε Unit) (ys : List γ) :
    (ys.flatMap f).forM step = ys.forM fun y => (f y).forM step := by
  induction ys with
  | nil => rfl
  | cons y ys ih =>
    simp only [List.forM_eq_forM] at ih ⊢
    rw [List.flatMap_cons, List.forM_append, List.forM_cons, ih]

theorem forM_eq_ok_iff {step : α → Except ε Unit} :
    xs.forM step = .ok () ↔ ∀ x ∈ xs, ∃ u, step x = .ok u := by
  have herror : (∃ e, xs.forM step = .error e) ↔ ∃ x ∈ xs, ∃ e, step x = .error e := by
    simp only [forM_eq_error_iff, exists_failsFirst_iff]
  have hstep : ∀ x, (∃ u, step x = .ok u) ↔ ¬ ∃ e, step x = .error e := by
    intro x
    cases step x <;> simp
  have hloop : xs.forM step = .ok () ↔ ¬ ∃ e, xs.forM step = .error e := by
    cases xs.forM step <;> simp
  rw [hloop, herror]
  simp only [hstep, not_exists, not_and]

/-! ## Where the first failure is -/

/-- The first failure, by the position of the element. -/
theorem failsFirst_iff_getElem? :
    FailsFirst step xs e ↔ ∃ (i : ℕ) (x : α), xs[i]? = some x ∧ step x = .error e ∧
      ∀ i' < i, ∀ y, xs[i']? = some y → ∃ b, step y = .ok b := by
  constructor
  · rintro ⟨before, x, after, rfl, hx, hbefore⟩
    refine ⟨before.length, x, by simp, hx, fun i hi y hy => hbefore y ?_⟩
    rw [List.getElem?_append_left hi] at hy
    exact List.mem_of_getElem? hy
  · rintro ⟨i, x, hx, hstep, hbefore⟩
    obtain ⟨hi, rfl⟩ := List.getElem?_eq_some_iff.1 hx
    refine ⟨xs.take i, xs[i], xs.drop (i + 1), ?_, hstep, fun y hy => ?_⟩
    · rw [← List.drop_eq_getElem_cons hi, List.take_append_drop]
    · obtain ⟨i', hi', rfl⟩ := List.mem_take_iff_getElem.1 hy
      exact hbefore i' (by omega) _ (List.getElem?_eq_getElem _)

/-- **The first failure on lists of lists**, by the position of the list. -/
theorem failsFirst_flatMap_iff {step : α → Except ε Unit} {f : γ → List α} {ys : List γ} :
    FailsFirst step (ys.flatMap f) e ↔
      ∃ (i : ℕ) (y : γ), ys[i]? = some y ∧ FailsFirst step (f y) e ∧
        ∀ i' < i, ∀ z, ys[i']? = some z → ∀ x ∈ f z, ∃ u, step x = .ok u := by
  have hok : ∀ z, (∃ u, (f z).forM step = .ok u) ↔ ∀ x ∈ f z, ∃ u, step x = .ok u := by
    intro z
    rw [← forM_eq_ok_iff]
    exact ⟨fun ⟨_, h⟩ => h, fun h => ⟨_, h⟩⟩
  rw [← forM_eq_error_iff, forM_flatMap, forM_eq_error_iff, failsFirst_iff_getElem?]
  simp only [forM_eq_error_iff, hok]

/-! ## Results -/

/-- A step that goes on with the result of another fails if either of them does. -/
theorem bind_eq_error_iff {first : Except ε α} {next : α → Except ε β} :
    first.bind next = .error e ↔ first = .error e ∨ ∃ a, first = .ok a ∧ next a = .error e := by
  cases first <;> simp [Except.bind]

theorem map_eq_error_iff {first : Except ε α} {g : α → β} :
    first.map g = .error e ↔ first = .error e := by
  cases first <;> simp [Except.map]

theorem bind_eq_ok_iff {first : Except ε α} {next : α → Except ε β} {b : β} :
    first.bind next = .ok b ↔ ∃ a, first = .ok a ∧ next a = .ok b := by
  cases first <;> simp [Except.bind]

theorem map_eq_ok_iff {first : Except ε α} {g : α → β} {b : β} :
    first.map g = .ok b ↔ ∃ a, first = .ok a ∧ g a = b := by
  cases first <;> simp [Except.map]

/-- A list is gone through without a failure exactly if each element gives its result. -/
theorem mapM_eq_ok_iff {ys : List β} :
    xs.mapM step = .ok ys ↔ List.Forall₂ (fun x y => step x = .ok y) xs ys := by
  induction xs generalizing ys with
  | nil =>
    rw [List.forall₂_nil_left_iff]
    exact ⟨fun h => (Except.ok.inj h).symm, fun h => congrArg Except.ok h.symm⟩
  | cons x xs ih =>
    rw [List.mapM_cons, List.forall₂_cons_left_iff]
    constructor
    · intro h
      obtain ⟨b, hb, h⟩ := bind_eq_ok_iff.1 h
      obtain ⟨bs, hbs, h⟩ := bind_eq_ok_iff.1 h
      exact ⟨b, bs, hb, ih.1 hbs, (Except.ok.inj h).symm⟩
    · rintro ⟨b, bs, hb, hbs, rfl⟩
      rw [hb, ih.2 hbs]
      rfl

/-- What comes of a list that is gone through without a failure comes of its elements. -/
theorem exists_of_mem_of_mapM_eq_ok {ys : List β} {y : β} (h : xs.mapM step = .ok ys)
    (hy : y ∈ ys) : ∃ x ∈ xs, step x = .ok y := by
  induction mapM_eq_ok_iff.1 h with
  | nil => cases hy
  | @cons x y' xs ys hstep hsteps ih =>
    rcases List.mem_cons.1 hy with rfl | hy
    · exact ⟨x, List.mem_cons_self .., hstep⟩
    · obtain ⟨x', hx', hstep'⟩ := ih (mapM_eq_ok_iff.2 hsteps) hy
      exact ⟨x', List.mem_cons_of_mem _ hx', hstep'⟩

theorem exists_mem_of_mapM_eq_ok {ys : List β} (h : xs.mapM step = .ok ys) (hx : x ∈ xs) :
    ∃ y ∈ ys, step x = .ok y := by
  induction mapM_eq_ok_iff.1 h with
  | nil => cases hx
  | @cons x' y xs ys hstep hsteps ih =>
    rcases List.mem_cons.1 hx with rfl | hx
    · exact ⟨y, List.mem_cons_self .., hstep⟩
    · obtain ⟨y', hy', hstep'⟩ := ih (mapM_eq_ok_iff.2 hsteps) hx
      exact ⟨y', List.mem_cons_of_mem _ hy', hstep'⟩

/-- What is made of the results, each on its own, can be made of the elements. -/
theorem flatMap_of_mapM_eq_ok {ys : List β} {f : α → List γ} {g : β → List γ}
    (h : xs.mapM step = .ok ys) (hfg : ∀ x ∈ xs, ∀ y, step x = .ok y → f x = g y) :
    xs.flatMap f = ys.flatMap g := by
  induction mapM_eq_ok_iff.1 h with
  | nil => rfl
  | @cons x y xs ys hstep hsteps ih =>
    obtain ⟨hx, hxs⟩ := List.forall_mem_cons.1 hfg
    rw [List.flatMap_cons, List.flatMap_cons, hx y hstep, ih (mapM_eq_ok_iff.2 hsteps) hxs]

theorem eq_ok_of_toOption {first : Except ε α} {a : α} (h : first.toOption = some a) :
    first = .ok a := by
  cases first with
  | error e => cases h
  | ok b => exact congrArg Except.ok (Option.some.inj h)

end DocComments
