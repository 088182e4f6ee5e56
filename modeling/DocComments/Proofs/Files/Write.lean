import DocComments.Proofs.Files.Read

/-!
# Making directories and writing files

A file that is written to a name in a directory stands there afterwards, and everything else is as
before. Making a directory that is missing makes its ancestors too, and changes nothing that is
there.

* `eq_put_of_writeFile_join` is what writing a file of a directory does.
* `makeUpwards_induction`: what making one directory preserves, making several does.
* `gainsDirectories_of_makeDirectories` is what making a directory does: the path leads to a
  directory, and nothing but directories is new.
-/

namespace DocComments

variable {fs fs' fs'' made : FileSystem} {loc : Location} {name : Text} {p directory : Path}
  {content : ByteArray} {ps : List Path} {steps : List Text}

/-! ## Steps of a path -/

theorem splitOn_replicate_slash (n : ℕ) :
    (List.replicate n '/').splitOn '/' = List.replicate (n + 1) [] := by
  induction n with
  | zero => rfl
  | succ n ih =>
    rw [List.replicate_succ, List.splitOn_cons_eq_if_modifyHead, if_pos (by simp), ih]
    rfl

/-- Slashes at the end add steps that go nowhere. -/
theorem splitOn_append_replicate_slash (t : Text) (n : ℕ) :
    (t ++ List.replicate n '/').splitOn '/' = t.splitOn '/' ++ List.replicate n [] := by
  cases n with
  | zero => simp
  | succ n => rw [List.replicate_succ, List.splitOn_append_cons_self, splitOn_replicate_slash]

theorem Path.exists_splitOn_eq_append (p : Path) :
    ∃ n, p.splitOn '/' =
      (Text.dropEndWhile (· == '/') p).splitOn '/' ++ List.replicate n [] := by
  have hend : Text.takeEndWhile (· == '/') p =
      List.replicate (Text.takeEndWhile (· == '/') p).length '/' := by
    refine List.eq_replicate_iff.2 ⟨rfl, fun c hc => ?_⟩
    simpa using List.mem_takeWhile_imp (List.mem_reverse.1 hc)
  refine ⟨(Text.takeEndWhile (· == '/') p).length, ?_⟩
  rw [← splitOn_append_replicate_slash, ← hend, Text.dropEndWhile_append_takeEndWhile]

theorem Path.isAbsolute_eq_false (hname : '/' ∉ name) : Path.isAbsolute name = false := by
  cases name with
  | nil => rfl
  | cons c name => simpa [Path.isAbsolute] using fun h => hname (by simp [h])

theorem Path.prefix_join (hname : '/' ∉ name) (hdirectory : directory ≠ []) :
    directory <+: directory.join name := by
  rw [Path.join, isAbsolute_eq_false hname, if_neg (by simpa using hdirectory)]
  split
  · exact List.prefix_append _ _
  · exact List.prefix_append _ _

theorem Path.byteLength_add_le_join (hname : '/' ∉ name) (hdirectory : directory ≠ []) :
    byteLength directory + byteLength name ≤ byteLength (directory.join name) := by
  rw [Path.join, isAbsolute_eq_false hname, if_neg (by simpa using hdirectory)]
  split
  · exact (byteLength_append _ _).ge
  · rw [byteLength_append, byteLength_cons]
    omega

/-- A name under a directory is one more step, and a slash at the end of the directory makes no
difference. -/
theorem Path.splitOn_join (hname : '/' ∉ name) (hdirectory : directory ≠ []) :
    ∃ above n, (directory.join name).splitOn '/' = above ++ [name] ∧
      directory.splitOn '/' = above ++ List.replicate n [] := by
  have hsplit : name.splitOn '/' = [name] := List.splitOn_eq_singleton hname
  rw [Path.join, isAbsolute_eq_false hname, if_neg (by simpa using hdirectory)]
  split
  · next hlast =>
    obtain ⟨t, rfl⟩ : ∃ t, directory = t ++ ['/'] :=
      ⟨_, (List.dropLast_append_getLast? _ hlast).symm⟩
    refine ⟨t.splitOn '/', 1, ?_, ?_⟩
    · rw [List.append_assoc, List.singleton_append, List.splitOn_append_cons_self, hsplit]
    · exact splitOn_append_replicate_slash t 1
  · refine ⟨directory.splitOn '/', 0, ?_, by simp⟩
    rw [List.splitOn_append_cons_self, hsplit]

namespace FileSystem

/-! ## Writing a file -/

theorem resolveSteps_of_resolveParent (hsteps : steps ≠ [])
    (h : fs.resolveParent p steps = .ok (loc, name)) :
    ∃ above, steps = above ++ [name] ∧ fs.resolveSteps p above = .ok loc := by
  rw [resolveParent, List.getLast?_eq_some_getLast hsteps, Option.getD_some] at h
  cases hresolve : fs.resolveSteps p steps.dropLast with
  | error e =>
    rw [hresolve] at h
    cases h
  | ok loc' =>
    rw [hresolve] at h
    cases h
    exact ⟨_, (List.dropLast_append_getLast hsteps).symm, hresolve⟩

theorem eq_put_of_writeFile (h : fs.writeFile p content = .ok fs') :
    ∃ loc name, fs.resolveParent p (p.splitOn '/') = .ok (loc, name) ∧
      fs.node? loc = some .directory ∧ fs.node? (loc.step name) ≠ some .directory ∧
      fs' = fs.put (loc.step name) (.file content) := by
  unfold writeFile at h
  split at h
  · cases h
  · next loc name hparent =>
    refine ⟨loc, name, hparent, ?_⟩
    split at h
    · next there hthere =>
      obtain ⟨hloc, -, -, rfl⟩ := enter_eq_ok_iff.1 hthere
      split at h
      · cases h
      · next hno => exact ⟨hloc, hno, (Except.ok.inj h).symm⟩
    · next hnone =>
      obtain ⟨hloc, -, hnone⟩ := enter_eq_noEntry_iff.1 hnone
      exact ⟨hloc, by simp [hnone], (Except.ok.inj h).symm⟩
    · cases h

/-- **Writing a file of a directory** puts it there, where no directory was. -/
theorem eq_put_of_writeFile_join (hname : IsName name) (hdirectory : directory ≠ [])
    (h : fs.writeFile (directory.join name) content = .ok fs') :
    ∃ loc, fs.resolve directory = .ok loc ∧ fs.node? (loc ++ [name]) ≠ some .directory ∧
      fs' = fs.put (loc ++ [name]) (.file content) := by
  obtain ⟨loc, name', hparent, hloc, hno, rfl⟩ := eq_put_of_writeFile h
  obtain ⟨above, n, hjoin, hsteps⟩ := Path.splitOn_join hname.slash_not_mem hdirectory
  obtain ⟨t, ht⟩ := Path.prefix_join hname.slash_not_mem hdirectory
  obtain ⟨above', hjoin', hresolve⟩ :=
    resolveSteps_of_resolveParent (List.splitOn_ne_nil '/' _) hparent
  obtain ⟨rfl, hname'⟩ := List.append_inj' (hjoin.symm.trans hjoin') rfl
  obtain rfl : name = name' := List.singleton_inj.1 hname'
  rw [hname.step_eq] at hno ⊢
  refine ⟨loc, ?_, hno, rfl⟩
  obtain ⟨-, hlength, hfold⟩ := resolveSteps_eq_ok_iff.1 hresolve
  have hstart : fs.start (directory.join name) = fs.start directory := by
    rw [← ht, start, start, Path.isAbsolute, Path.isAbsolute,
      List.head?_append_of_ne_nil _ hdirectory]
  rw [← ht, byteLength_append] at hlength
  refine resolveSteps_eq_ok_iff.2 ⟨hdirectory, by omega, ?_⟩
  rw [hsteps, ← hstart]
  exact foldlM_enter_append_replicate_nil n hfold hloc

/-! ## Making directories -/

/-- The second file system has more directories than the first, and is the same otherwise. -/
structure GainsDirectories (fs fs' : FileSystem) : Prop where
  /-- They are seen from one standpoint. -/
  standpoint_eq : fs'.standpoint = fs.standpoint
  /-- What is new is a directory. -/
  node? : ∀ loc, fs'.node? loc = fs.node? loc ∨
    fs.node? loc = none ∧ fs'.node? loc = some .directory

theorem GainsDirectories.refl (fs : FileSystem) : fs.GainsDirectories fs :=
  ⟨rfl, fun _ => .inl rfl⟩

theorem GainsDirectories.trans (h : fs.GainsDirectories fs') (h' : fs'.GainsDirectories fs'') :
    fs.GainsDirectories fs'' := by
  refine ⟨h'.standpoint_eq.trans h.standpoint_eq, fun loc => ?_⟩
  have h₁ := h.node? loc
  have h₂ := h'.node? loc
  grind

theorem GainsDirectories.extends (h : fs.GainsDirectories fs') : fs.Extends fs' := by
  refine ⟨h.standpoint_eq, fun loc hloc => ?_, fun loc hloc => ?_⟩
  · rcases h.node? loc with heq | ⟨hnone, -⟩
    · rw [heq, hloc]
    · simp [hnone] at hloc
  · rcases h.node? loc with heq | ⟨-, hdirectory⟩
    · rwa [heq]
    · simp [hdirectory]

theorem gainsDirectories_put (h : fs.node? loc = none) :
    fs.GainsDirectories (fs.put loc .directory) := by
  refine ⟨rfl, fun other => ?_⟩
  rw [node?_put (ne_nil_of_node?_eq_none h)]
  split
  · next he => exact .inr ⟨he ▸ h, rfl⟩
  · exact .inl rfl

/-- A directory is made one step on from another, where nothing was. Slashes at the end of its path
are steps that go nowhere. -/
theorem exists_put_of_makeDirectory (h : fs.makeDirectory p = .ok made) :
    ∃ above name n loc, p.splitOn '/' = above ++ [name] ++ List.replicate n [] ∧
      fs.resolveSteps p above = .ok loc ∧ fs.enter loc name = .error .noEntry ∧
      made = fs.put (loc.step name) .directory := by
  unfold makeDirectory at h
  split at h
  · cases h
  next loc name hparent =>
  obtain ⟨above, habove, hresolve⟩ :=
    resolveSteps_of_resolveParent (List.splitOn_ne_nil '/' _) hparent
  obtain ⟨n, hn⟩ := Path.exists_splitOn_eq_append p
  split at h
  · cases h
  · next hnone => exact ⟨above, name, n, loc, habove ▸ hn, hresolve, hnone, (Except.ok.inj h).symm⟩
  · cases h

/-- A directory that was made is where its path leads. -/
theorem gainsDirectories_of_makeDirectory (h : fs.makeDirectory p = .ok made) :
    fs.GainsDirectories made ∧ made.hasDirectory p = true := by
  obtain ⟨above, name, n, loc, hsteps, hresolve, hnone, rfl⟩ := exists_put_of_makeDirectory h
  obtain ⟨hloc, hname, hnone⟩ := enter_eq_noEntry_iff.1 hnone
  have hgains := gainsDirectories_put hnone
  have hmade : (fs.put (loc.step name) .directory).node? (loc.step name) = some .directory :=
    node?_put_self _ (ne_nil_of_node?_eq_none hnone)
  obtain ⟨hp, hlength, hfold⟩ := resolveSteps_eq_ok_iff.1 (hgains.extends.resolveSteps hresolve)
  have henter : (fs.put (loc.step name) .directory).enter loc name = .ok (loc.step name) :=
    enter_eq_ok_iff.2 ⟨hgains.extends.directory _ hloc, hname, by simp [hmade], rfl⟩
  refine ⟨hgains, hasDirectory_iff.2 ⟨loc.step name, resolveSteps_eq_ok_iff.2
    ⟨hp, hlength, ?_⟩, hmade⟩⟩
  rw [hsteps]
  exact foldlM_enter_append_replicate_nil n
    (foldlM_enter_append_singleton_eq_ok_iff.2 ⟨loc, hfold, henter⟩) hmade

/-- **What making one directory preserves, making several does**, also if they cannot all be
made. -/
theorem makeUpwards_induction {motive : FileSystem → Prop} (h : motive fs)
    (hstep : ∀ p ∈ ps, ∀ fs made : FileSystem, motive fs → fs.makeDirectory p = .ok made →
      motive made) :
    motive (fs.makeUpwards ps).1 := by
  induction ps with
  | nil => exact h
  | cons p above ih =>
    obtain ⟨hp, habove⟩ := List.forall_mem_cons.1 hstep
    have ih := ih habove
    rw [makeUpwards]
    split
    · next hmake => exact hp _ _ h hmake
    · cases hupwards : fs.makeUpwards above with
      | mk below failure =>
        rw [hupwards] at ih
        cases failure with
        | some e => exact ih
        | none =>
          dsimp only
          split
          · next hmake => exact hp _ _ ih hmake
          · exact ih
    · exact h

theorem gainsDirectories_makeUpwards (fs : FileSystem) (ps : List Path) :
    fs.GainsDirectories (fs.makeUpwards ps).1 :=
  makeUpwards_induction (.refl fs) fun _ _ _ _ hgains hmake =>
    hgains.trans (gainsDirectories_of_makeDirectory hmake).1

/-- The first of the directories is there in the end, made or found. -/
theorem hasDirectory_of_makeUpwards (h : fs.makeUpwards (p :: ps) = (made, none)) :
    made.hasDirectory p = true := by
  have hfound : ∀ (fs : FileSystem) (e : SystemError),
      (fs, if fs.hasDirectory p then none else some e) = (made, none) →
        made.hasDirectory p = true := by
    intro fs e hsettled
    obtain ⟨rfl, hnone⟩ := Prod.mk.inj hsettled
    by_contra hno
    simp [hno] at hnone
  rw [makeUpwards] at h
  split at h
  · next hmake =>
    cases h
    exact (gainsDirectories_of_makeDirectory hmake).2
  · split at h
    · cases h
    · split at h
      · next hmake =>
        cases h
        exact (gainsDirectories_of_makeDirectory hmake).2
      · exact hfound _ _ h
  · exact hfound _ _ h

/-- **Making a directory** leaves one where its path leads, and nothing but directories is new. -/
theorem gainsDirectories_of_makeDirectories (hp : p ≠ [])
    (h : fs.makeDirectories p = (made, none)) :
    fs.GainsDirectories made ∧
      ∃ loc, made.resolve p = .ok loc ∧ made.node? loc = some .directory := by
  rw [makeDirectories, if_neg (by simpa using hp)] at h
  have hgains := gainsDirectories_makeUpwards fs (p :: ancestors p)
  rw [h] at hgains
  exact ⟨hgains, hasDirectory_iff.1 (hasDirectory_of_makeUpwards h)⟩

end FileSystem

end DocComments
