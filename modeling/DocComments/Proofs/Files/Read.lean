import DocComments.Proofs.Files.Resolve

/-!
# Reading files and directories

A path is read at the location that it leads to. A file is closed or its bytes are no text where it
cannot be read, and a directory is closed where it cannot be listed; there are no other reasons.

* `hasFile_iff` and `hasDirectory_iff`: what stands at a path.
* `mem_namesAt_iff`: the names in a directory are those of its entries.
* `names_eq_ok_iff` and `readText_eq_ok_iff`: what is read.
* `names_eq_error_iff` and `exists_readText_eq_error_iff`: when reading fails.
-/

namespace DocComments.FileSystem

variable {fs : FileSystem} {loc : Location} {name : Text} {p : Path} {e : SystemError}
  {names : List Text}

/-! ## What stands at a path -/

theorem hasFile_iff :
    fs.hasFile p = true ↔
      ∃ loc content, fs.resolve p = .ok loc ∧ fs.node? loc = some (.file content) := by
  unfold hasFile lookup?
  cases fs.resolve p with
  | error e => simp
  | ok loc =>
    cases hnode : fs.node? loc with
    | none => simp [hnode]
    | some node => cases node <;> simp [hnode]

theorem hasDirectory_iff :
    fs.hasDirectory p = true ↔ ∃ loc, fs.resolve p = .ok loc ∧ fs.node? loc = some .directory := by
  rw [hasDirectory, decide_eq_true_eq, lookup?]
  cases fs.resolve p <;> simp

/-- A path that is too long leads to no file. -/
theorem hasFile_eq_false_of_lt (h : pathLimit < byteLength p) : fs.hasFile p = false := by
  rw [← Bool.not_eq_true, hasFile_iff]
  rintro ⟨loc, content, hloc, -⟩
  obtain ⟨-, hlength, -⟩ := resolveSteps_eq_ok_iff.1 hloc
  omega

/-- A directory is no file. -/
theorem hasFile_eq_false (h : fs.hasDirectory p = true) : fs.hasFile p = false := by
  rw [hasDirectory, decide_eq_true_eq] at h
  rw [hasFile, h]

/-! ## Directories -/

/-- **The names in a directory are those of its entries.** -/
theorem mem_namesAt_iff : name ∈ fs.namesAt loc ↔ fs.node? (loc ++ [name]) ≠ none := by
  have hentry : ∀ there : Location, there.dropLast = loc ∧ there.getLast? = some name ↔
      there = loc ++ [name] := by
    intro there
    constructor
    · rintro ⟨rfl, hlast⟩
      exact (List.dropLast_append_getLast? _ hlast).symm
    · rintro rfl
      simp
  rw [namesAt, Text.sort, List.mem_mergeSort, List.mem_filterMap, node?, if_neg (by simp)]
  simp only [Option.ite_none_right_eq_some, hentry, ne_eq, Option.map_eq_none_iff,
    List.find?_eq_none, decide_eq_true_eq, not_forall, not_not, exists_prop]

/-- A directory that is open is listed. -/
theorem names_eq_ok_iff :
    fs.names p = .ok names ↔ ∃ loc, fs.resolve p = .ok loc ∧ fs.node? loc = some .directory ∧
      fs.isClosed loc = false ∧ fs.namesAt loc = names := by
  unfold FileSystem.names
  cases hloc : fs.resolve p with
  | error e => simp
  | ok loc =>
    by_cases hdirectory : fs.node? loc = some .directory
    · cases hclosed : fs.isClosed loc <;> simp [hdirectory, hclosed]
    · simp [hdirectory]

/-- **A directory cannot be listed exactly if it is closed.** -/
theorem names_eq_error_iff (h : fs.hasDirectory p = true) :
    fs.names p = .error e ↔
      ∃ loc, fs.resolve p = .ok loc ∧ fs.isClosed loc = true ∧ e = .accessDenied := by
  obtain ⟨loc, hloc, hdirectory⟩ := hasDirectory_iff.1 h
  unfold FileSystem.names
  cases hclosed : fs.isClosed loc <;> simp [hloc, hdirectory, hclosed, @eq_comm _ e]

/-! ## Files -/

/-- A file that is open is read as the text that its bytes encode. -/
theorem readText_eq_ok_iff {text : Text} :
    fs.readText p = .ok text ↔ ∃ loc content, fs.resolve p = .ok loc ∧ fs.isClosed loc = false ∧
      fs.node? loc = some (.file content) ∧ decodeText content = .ok text := by
  unfold readText
  cases hloc : fs.resolve p with
  | error e => simp
  | ok loc =>
    cases hclosed : fs.isClosed loc with
    | true => simp [hclosed]
    | false =>
      cases hnode : fs.node? loc with
      | none => simp [hclosed, hnode]
      | some node => cases node <;> simp [hclosed, hnode]

/-- **A file cannot be read exactly if it is closed or no text.** -/
theorem exists_readText_eq_error_iff (h : fs.hasFile p = true) :
    (∃ e, fs.readText p = .error e) ↔
      ∃ loc, fs.resolve p = .ok loc ∧ (fs.isClosed loc = true ∨
        ∃ content e, fs.node? loc = some (.file content) ∧ decodeText content = .error e) := by
  obtain ⟨loc, content, hloc, hfile⟩ := hasFile_iff.1 h
  unfold readText
  cases hclosed : fs.isClosed loc <;> simp [hloc, hfile, hclosed]

end DocComments.FileSystem
