import DocComments.Proofs.Files.Write

/-!
# File systems that are trees

In a tree, everything stands in a directory, and so a path that leads to a file ends in the name of
the file. What changes a file system puts something one step on from a directory, and never in place
of one, so trees stay trees, whether or not the change can be made as a whole.

* `FileSystem.IsTree` is the property, and `IsTree.step_eq` what it says of one step.
* `IsTree.fileName?_isSome`: paths of files end in names.
* `IsTree.put_step` is what changes have in common; `IsTree.writeFile` and `IsTree.makeDirectories`
  say that they keep a tree.
-/

namespace DocComments

variable {fs fs' made : FileSystem} {loc : Location} {name : Text} {p : Path}
  {content : ByteArray}

namespace FileSystem

/-! ## Trees -/

/-- Everything stands in a directory. -/
def IsTree (fs : FileSystem) : Prop :=
  ∀ entry ∈ fs.contents, fs.node? entry.1.dropLast = some .directory

instance (fs : FileSystem) : Decidable fs.IsTree :=
  inferInstanceAs (Decidable (∀ entry ∈ fs.contents, fs.node? entry.1.dropLast = some .directory))

theorem IsTree.node?_dropLast (h : fs.IsTree) (hloc : fs.node? loc ≠ none) :
    fs.node? loc.dropLast = some .directory := by
  by_cases hne : loc = []
  · rw [hne]
    exact node?_nil fs
  · rw [node?, if_neg hne] at hloc
    rw [ne_eq, Option.map_eq_none_iff] at hloc
    obtain ⟨entry, hentry⟩ := Option.ne_none_iff_exists'.1 hloc
    have hmem := h entry (List.mem_of_find?_eq_some hentry)
    rwa [show entry.1 = loc by simpa using List.find?_some hentry] at hmem

/-- In a tree, a step to anything but a directory is a step to an entry: one that stays or goes up
ends in a directory. -/
theorem IsTree.step_eq (h : fs.IsTree) (hloc : fs.node? loc = some .directory)
    (hno : fs.node? (loc.step name) ≠ some .directory) :
    Path.Component.ofStep? name = some (.name name) ∧ loc.step name = loc ++ [name] := by
  by_cases hstay : name = [] ∨ name = ['.']
  · rw [Location.step, if_pos hstay] at hno
    exact absurd hloc hno
  by_cases hup : name = ['.', '.']
  · rw [Location.step, if_neg hstay, if_pos hup] at hno
    exact absurd (h.node?_dropLast (by simp [hloc])) hno
  · rw [Path.Component.ofStep?, Location.step, if_neg hstay, if_neg hup, if_neg hstay, if_neg hup]
    exact ⟨rfl, rfl⟩

end FileSystem

/-! ## Names of files -/

theorem Path.slash_not_mem_of_fileName? (h : p.fileName? = some name) : '/' ∉ name := by
  have hmem : Component.name name ∈ p.components := by
    unfold Path.fileName? at h
    split at h
    · next n hlast =>
      cases h
      exact List.mem_of_getLast? hlast
    · cases h
  rw [Path.components, List.mem_append] at hmem
  rcases hmem with hmem | hmem
  · split at hmem
    · simp at hmem
    split at hmem
    · simp at hmem
    · cases hmem
  · obtain ⟨step, hstep, hname⟩ := List.mem_filterMap.1 hmem
    have heq : step = name := by
      unfold Path.Component.ofStep? at hname
      split at hname
      · cases hname
      split at hname <;> cases hname
      rfl
    rw [← heq]
    exact Text.not_mem_of_mem_splitOn hstep

namespace FileSystem

/-- In a tree, a path that leads to a file ends in a name. -/
theorem IsTree.fileName?_isSome (h : fs.IsTree) (hp : fs.resolve p = .ok loc)
    (hloc : fs.node? loc ≠ some .directory) : p.fileName?.isSome = true := by
  obtain ⟨-, -, hfold⟩ := resolveSteps_eq_ok_iff.1 hp
  obtain ⟨steps, last, hsteps⟩ : ∃ steps last, p.splitOn '/' = steps ++ [last] :=
    ⟨_, _, (List.dropLast_append_getLast (List.splitOn_ne_nil '/' p)).symm⟩
  rw [hsteps] at hfold
  -- Only the last step counts, since it starts from a directory in any case.
  obtain ⟨above, -, henter⟩ := foldlM_enter_append_singleton_eq_ok_iff.1 hfold
  obtain ⟨habove, -, -, rfl⟩ := enter_eq_ok_iff.1 henter
  obtain ⟨hname, -⟩ := h.step_eq habove hloc
  have hlast : p.components.getLast? = some (.name last) := by
    rw [Path.components, hsteps, List.filterMap_append]
    simp [hname]
  simp [Path.fileName?, hlast]

theorem IsTree.fileName?_isSome_of_readText {content : Text} (h : fs.IsTree)
    (hread : fs.readText p = .ok content) : p.fileName?.isSome = true := by
  obtain ⟨loc, file, hloc, -, hfile, -⟩ := readText_eq_ok_iff.1 hread
  exact h.fileName?_isSome hloc (by simp [hfile])

/-! ## Changes -/

/-- **What is put one step on from a directory, and not in place of one, stands in a directory.** -/
theorem IsTree.put_step (h : fs.IsTree) (hloc : fs.node? loc = some .directory)
    (hno : fs.node? (loc.step name) ≠ some .directory) (node : Node) :
    (fs.put (loc.step name) node).IsTree := by
  obtain ⟨-, hstep⟩ := h.step_eq hloc hno
  rw [hstep] at hno ⊢
  have hext := extends_put (List.append_ne_nil_of_right_ne_nil loc (List.cons_ne_nil _ _)) hno node
  intro entry hentry
  rw [put, List.mem_append, List.mem_filter, List.mem_singleton] at hentry
  rcases hentry with ⟨hold, -⟩ | rfl
  · exact hext.directory _ (h entry hold)
  · rw [List.dropLast_concat]
    exact hext.directory _ hloc

/-- Writing a file keeps a tree. -/
theorem IsTree.writeFile (h : fs.IsTree) (hwrite : fs.writeFile p content = .ok fs') :
    fs'.IsTree := by
  obtain ⟨loc, name, -, hloc, hno, rfl⟩ := eq_put_of_writeFile hwrite
  exact h.put_step hloc hno _

/-- Making a directory keeps a tree. -/
theorem IsTree.makeDirectory (h : fs.IsTree) (hmake : fs.makeDirectory p = .ok made) :
    made.IsTree := by
  obtain ⟨above, name, n, loc, -, -, henter, rfl⟩ := exists_put_of_makeDirectory hmake
  obtain ⟨hloc, -, hnone⟩ := enter_eq_noEntry_iff.1 henter
  exact h.put_step hloc (by simp [hnone]) _

/-- **Making directories keeps a tree**, also if they cannot all be made. -/
theorem IsTree.makeDirectories (h : fs.IsTree) (p : Path) : (fs.makeDirectories p).1.IsTree := by
  rw [FileSystem.makeDirectories]
  split
  · exact h
  · exact makeUpwards_induction h fun _ _ _ _ hbelow hmake => hbelow.makeDirectory hmake

end FileSystem

end DocComments
