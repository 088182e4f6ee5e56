import DocComments.Files.System
import DocComments.Proofs.Text.Lines

/-!
# Following paths

A path is followed one name at a time, and each step needs a directory to stand in. So a path leads
to the same location as long as directories stay directories and nothing goes away, whatever else
is made or written.

* `enter_eq_ok_iff` and `resolveSteps_eq_ok_iff`: where one step leads, and all of them.
* `FileSystem.Extends` is that relation, and `Extends.resolve` what it keeps.
-/

namespace DocComments

variable {fs fs' fs'' : FileSystem} {loc loc' : Location} {name : Text} {p : Path}
  {steps : List Text}

/-! ## One step -/

/-- A name that an entry of a directory can have. -/
structure IsName (name : Text) : Prop where
  /-- It is no path. -/
  slash_not_mem : '/' ∉ name
  /-- It does not stay in the directory. -/
  ne_nil : name ≠ []
  /-- Nor does it by a dot. -/
  ne_dot : name ≠ ['.']
  /-- It does not leave the directory upwards. -/
  ne_dots : name ≠ ['.', '.']

theorem IsName.step_eq (h : IsName name) (loc : Location) : loc.step name = loc ++ [name] := by
  simp [Location.step, h.ne_nil, h.ne_dot, h.ne_dots]

@[simp] theorem Location.step_nil (loc : Location) : loc.step [] = loc := by
  simp [Location.step]

namespace FileSystem

@[simp] theorem node?_nil (fs : FileSystem) : fs.node? [] = some .directory := rfl

theorem ne_nil_of_node?_eq_none (h : fs.node? loc = none) : loc ≠ [] := by
  rintro rfl
  cases h

theorem enter_eq_ok_iff :
    fs.enter loc name = .ok loc' ↔
      fs.node? loc = some .directory ∧ byteLength name ≤ nameLimit ∧
        fs.node? (loc.step name) ≠ none ∧ loc.step name = loc' := by
  unfold enter
  split
  · next h => simp [h]
  split
  · next h => simp [Nat.not_le.2 h]
  split
  · next h => simp [Option.isNone_iff_eq_none.1 h]
  · next h₁ h₂ h₃ =>
    rw [Option.isNone_iff_eq_none] at h₃
    simp [not_not.1 h₁, Nat.not_lt.1 h₂, h₃]

theorem enter_eq_noEntry_iff :
    fs.enter loc name = .error .noEntry ↔
      fs.node? loc = some .directory ∧ byteLength name ≤ nameLimit ∧
        fs.node? (loc.step name) = none := by
  unfold enter
  split
  · next h => simp [h]
  split
  · next h => simp [Nat.not_le.2 h]
  split
  · next h₁ h₂ h₃ =>
    simp [not_not.1 h₁, Nat.not_lt.1 h₂, Option.isNone_iff_eq_none.1 h₃]
  · next h =>
    rw [Option.isNone_iff_eq_none] at h
    simp [h]

/-- Nothing is a step that stays in the directory. -/
theorem enter_nil (h : fs.node? loc = some .directory) : fs.enter loc [] = .ok loc :=
  enter_eq_ok_iff.2 ⟨h, Nat.zero_le _, by simp [h], Location.step_nil loc⟩

/-! ## All steps -/

theorem resolveSteps_eq_ok_iff :
    fs.resolveSteps p steps = .ok loc ↔
      p ≠ [] ∧ byteLength p ≤ pathLimit ∧ steps.foldlM fs.enter (fs.start p) = .ok loc := by
  unfold resolveSteps
  split
  · next h => simp [List.isEmpty_iff.1 h]
  split
  · next h => simp [Nat.not_le.2 h]
  · next h₁ h₂ =>
    rw [List.isEmpty_iff] at h₁
    simp [h₁, Nat.not_lt.1 h₂]

theorem foldlM_enter_append_singleton_eq_ok_iff {start : Location} :
    (steps ++ [name]).foldlM fs.enter start = .ok loc ↔
      ∃ loc', steps.foldlM fs.enter start = .ok loc' ∧ fs.enter loc' name = .ok loc := by
  rw [List.foldlM_append]
  simp only [List.foldlM_cons, List.foldlM_nil, bind_pure]
  cases steps.foldlM fs.enter start <;> simp [bind, Except.bind]

/-- Steps that go nowhere make no difference at the end. -/
theorem foldlM_enter_append_replicate_nil {start : Location} (n : ℕ)
    (h : steps.foldlM fs.enter start = .ok loc) (hloc : fs.node? loc = some .directory) :
    (steps ++ List.replicate n []).foldlM fs.enter start = .ok loc := by
  induction n with
  | zero => simpa using h
  | succ n ih =>
    rw [List.replicate_succ', ← List.append_assoc, foldlM_enter_append_singleton_eq_ok_iff]
    exact ⟨loc, ih, enter_nil hloc⟩

/-! ## More files -/

/-- What is in the first file system is in the second, and directories are directories there. Files
can differ. -/
structure Extends (fs fs' : FileSystem) : Prop where
  /-- They are seen from one standpoint. -/
  standpoint_eq : fs'.standpoint = fs.standpoint
  /-- Directories stay. -/
  directory : ∀ loc, fs.node? loc = some .directory → fs'.node? loc = some .directory
  /-- Nothing goes away. -/
  ne_none : ∀ loc, fs.node? loc ≠ none → fs'.node? loc ≠ none

theorem Extends.refl (fs : FileSystem) : fs.Extends fs :=
  ⟨rfl, fun _ h => h, fun _ h => h⟩

theorem Extends.trans (h : fs.Extends fs') (h' : fs'.Extends fs'') : fs.Extends fs'' :=
  ⟨h'.standpoint_eq.trans h.standpoint_eq, fun loc hloc => h'.directory loc (h.directory loc hloc),
    fun loc hloc => h'.ne_none loc (h.ne_none loc hloc)⟩

theorem node?_put {node : Node} (h : loc ≠ []) (other : Location) :
    (fs.put loc node).node? other = if other = loc then some node else fs.node? other := by
  split
  · next he => rw [he, node?_put_self node h]
  · next he => exact node?_put_of_ne node he

theorem extends_put (hne : loc ≠ []) (h : fs.node? loc ≠ some .directory) (node : Node) :
    fs.Extends (fs.put loc node) := by
  refine ⟨rfl, fun other hother => ?_, fun other hother => ?_⟩
  · rw [node?_put_of_ne node, hother]
    rintro rfl
    exact h hother
  · rw [node?_put hne]
    split
    · simp
    · exact hother

namespace Extends

theorem start_eq (h : fs.Extends fs') (p : Path) : fs'.start p = fs.start p := by
  rw [start, start, working, working, h.standpoint_eq]

theorem enter (h : fs.Extends fs') (henter : fs.enter loc name = .ok loc') :
    fs'.enter loc name = .ok loc' := by
  obtain ⟨hloc, hname, hstep, rfl⟩ := enter_eq_ok_iff.1 henter
  exact enter_eq_ok_iff.2 ⟨h.directory _ hloc, hname, h.ne_none _ hstep, rfl⟩

theorem foldlM_enter (h : fs.Extends fs') {start : Location}
    (hsteps : steps.foldlM fs.enter start = .ok loc) :
    steps.foldlM fs'.enter start = .ok loc := by
  induction steps using List.reverseRecOn generalizing loc with
  | nil => exact hsteps
  | append_singleton steps name ih =>
    obtain ⟨loc', hloc', henter⟩ := foldlM_enter_append_singleton_eq_ok_iff.1 hsteps
    exact foldlM_enter_append_singleton_eq_ok_iff.2 ⟨loc', ih hloc', h.enter henter⟩

theorem resolveSteps (h : fs.Extends fs') (hsteps : fs.resolveSteps p steps = .ok loc) :
    fs'.resolveSteps p steps = .ok loc := by
  obtain ⟨hp, hlength, hfold⟩ := resolveSteps_eq_ok_iff.1 hsteps
  refine resolveSteps_eq_ok_iff.2 ⟨hp, hlength, ?_⟩
  rw [h.start_eq]
  exact h.foldlM_enter hfold

/-- **A path leads to the same location** where there is more. -/
theorem resolve (h : fs.Extends fs') (hp : fs.resolve p = .ok loc) : fs'.resolve p = .ok loc :=
  h.resolveSteps hp

end Extends

end FileSystem

end DocComments
