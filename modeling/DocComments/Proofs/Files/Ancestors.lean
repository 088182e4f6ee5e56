import DocComments.Proofs.Files.Place

/-!
# Making the way to a directory

The ancestors of a path are spelled by its first components, and they name the locations on the way
to it. So when a directory is made with the ancestors that it lacks, directories are made at
locations on the way and nowhere else.

* `Path.components_ofComponents`: the first components of a path are read back from their spelling.
* `FileSystem.leadsThrough_of_mem_ancestors`: an ancestor is on the way.
* `FileSystem.MakesWay` says what making a directory does, and `makesWay_of_makeDirectories` that
  this is what it does.
-/

namespace DocComments

variable {fs made : FileSystem} {loc : Location} {name : Text} {p q : Path} {ps : List Path}
  {cs : List Path.Component} {c : Path.Component}

/-! ## Spelling components -/

namespace Path

theorem slash_mem_join (hname : '/' ∉ name) (hq : q ≠ []) : '/' ∈ q.join name := by
  rw [join, isAbsolute_eq_false hname, if_neg (by simpa using hq)]
  split
  · next hlast => exact List.mem_append_left _ (List.mem_of_getLast? hlast)
  · simp

/-- A name under a path is one more component, or none if it stays there. -/
theorem components_join (hname : '/' ∉ name) (hq : q ≠ []) :
    (q.join name).components = q.components ++ (Component.ofStep? name).toList := by
  obtain ⟨above, n, hjoin, hsteps⟩ := splitOn_join hname hq
  have habove : above ≠ [] := by
    rintro rfl
    have hone : q.join name = name :=
      calc q.join name
        _ = ['/'].intercalate ((q.join name).splitOn '/') := (List.intercalate_splitOn '/').symm
        _ = name := by rw [hjoin]; simp [List.intercalate]
    exact hname (hone ▸ slash_mem_join hname hq)
  have hlead : (q.join name).lead = q.lead := by
    obtain ⟨t, ht⟩ := prefix_join hname hq
    rw [lead, lead, hjoin, hsteps, List.head?_append_of_ne_nil _ habove,
      List.head?_append_of_ne_nil _ habove, ← ht, isAbsolute, isAbsolute,
      List.head?_append_of_ne_nil _ hq]
  have hstay : (List.replicate n []).filterMap Component.ofStep? = [] := by
    simp [Component.ofStep?]
  rw [components_eq, components_eq, hlead, rest, rest, hjoin, hsteps, List.filterMap_append,
    List.filterMap_append, hstay, List.append_nil, List.append_assoc]
  cases hstep : Component.ofStep? name <;> simp [hstep]

/-- What a file is called does not depend on the directory. -/
theorem fileName?_join (hname : IsName name) (hq : q ≠ []) :
    (q.join name).fileName? = some name := by
  have hstep : Component.ofStep? name = some (.name name) := by
    simp [Component.ofStep?, hname.ne_nil, hname.ne_dot, hname.ne_dots]
  rw [fileName?, components_join hname.slash_not_mem hq, hstep, Option.toList_some,
    List.getLast?_concat]

theorem ofComponents_concat (cs : List Component) (c : Component) :
    ofComponents (cs ++ [c]) = (ofComponents cs).join c.spell := by
  rw [ofComponents, ofComponents, List.map_append, List.foldl_append]
  rfl

theorem components_spell (h : c ∈ p.components) : components c.spell = [c] := by
  rw [components_eq, List.mem_append] at h
  rcases h with h | h
  · unfold lead at h
    split_ifs at h
    · rw [List.mem_singleton.1 h]
      decide
    · rw [List.mem_singleton.1 h]
      decide
    · cases h
  · obtain ⟨hslash, hstep⟩ := spell_of_mem_rest h
    have hdot : c.spell ≠ ['.'] := by
      intro hdot
      rw [hdot] at hstep
      cases hstep
    rw [components_eq, lead, rest, isAbsolute_eq_false hslash, List.splitOn_eq_singleton hslash]
    simp [hdot, hstep]

/-- Only the first component can be the start of a path. -/
theorem tail_components_subset (p : Path) : p.components.tail ⊆ p.rest := by
  rw [components_eq, lead]
  split_ifs
  · exact List.Subset.refl _
  · exact List.Subset.refl _
  · exact List.tail_subset _

/-- **The first components of a path are read back from their spelling.** -/
theorem components_ofComponents (hcs : cs <+: p.components) :
    (ofComponents cs).components = cs := by
  -- Each component but the first is joined, as a name, to what is spelled already.
  induction cs using List.reverseRecOn with
  | nil => rfl
  | append_singleton cs c ih =>
    rw [ofComponents_concat]
    by_cases hne : cs = []
    · subst hne
      have hjoin : (ofComponents []).join c.spell = c.spell := by
        rw [join, ofComponents]
        simp
      rw [hjoin, components_spell (hcs.subset (by simp))]
      rfl
    · have ih := ih ((List.prefix_append cs [c]).trans hcs)
      have hspelled : ofComponents cs ≠ [] := by
        intro hnil
        rw [hnil] at ih
        exact hne ih.symm
      have hlast : c ∈ p.components.tail := by
        obtain ⟨t, ht⟩ := hcs
        rw [← ht, List.append_assoc, List.tail_append_of_ne_nil hne]
        simp
      obtain ⟨hslash, hstep⟩ := spell_of_mem_rest (p.tail_components_subset hlast)
      rw [components_join hslash hspelled, ih, hstep]
      rfl

end Path

namespace FileSystem

/-! ## Ancestors -/

/-- **An ancestor is on the way.** -/
theorem leadsThrough_of_mem_ancestors (h : q ∈ ancestors p) :
    fs.LeadsThrough p (fs.place q) := by
  obtain ⟨hq, hne⟩ := List.mem_filter.1 h
  obtain ⟨n, -, rfl⟩ := List.mem_map.1 hq
  have hcs : p.components.take n <+: p.components := List.take_prefix _ _
  have hcomponents := Path.components_ofComponents hcs
  have hstart : fs.start (Path.ofComponents (p.components.take n)) = fs.start p := by
    have hnonempty : p.components.take n ≠ [] := by
      intro hnil
      rw [hnil] at hne
      cases hne
    obtain ⟨t, ht⟩ := hcs
    have hhead : (p.components.take n).head? = p.components.head? := by
      conv_rhs => rw [← ht]
      rw [List.head?_append_of_ne_nil _ hnonempty]
    have habsolute := Path.isAbsolute_iff (p := Path.ofComponents (p.components.take n))
    rw [hcomponents, hhead, ← Path.isAbsolute_iff] at habsolute
    rw [start, start, Bool.eq_iff_iff.2 habsolute]
  rw [place_eq, hcomponents, hstart]
  exact leadsThrough_of_prefix hcs

/-! ## Making one directory -/

/-- A directory is made at the place of its path, where nothing was. -/
theorem eq_put_of_makeDirectory (h : fs.makeDirectory p = .ok made) :
    fs.node? (fs.place p) = none ∧ made = fs.put (fs.place p) .directory := by
  obtain ⟨above, name, n, loc, hsteps, hresolve, hnone, rfl⟩ := exists_put_of_makeDirectory h
  have hloc := eq_foldl_step_of_foldlM_enter (resolveSteps_eq_ok_iff.1 hresolve).2.2
  have hplace : fs.place p = loc.step name := by
    have hstay : ∀ there : Location,
        (List.replicate n []).foldl Location.step there = there := by
      intro there
      rw [← foldl_advance_filterMap]
      simp [Path.Component.ofStep?]
    rw [place, hsteps, List.foldl_append, hstay, List.foldl_concat, hloc]
  rw [hplace]
  exact ⟨(enter_eq_noEntry_iff.1 hnone).2.2, rfl⟩

/-! ## Making the ancestors too -/

/-- Whether or not the first of the directories can be made, nothing changes but at their
places. -/
theorem node?_of_makeUpwards (hloc : ∀ p ∈ ps, fs.place p ≠ loc) :
    (fs.makeUpwards ps).1.standpoint = fs.standpoint ∧
      (fs.makeUpwards ps).1.node? loc = fs.node? loc := by
  refine makeUpwards_induction (motive := fun fs' => fs'.standpoint = fs.standpoint ∧
    fs'.node? loc = fs.node? loc) ⟨rfl, rfl⟩ fun p hp below made ih hmake => ?_
  obtain ⟨-, rfl⟩ := eq_put_of_makeDirectory hmake
  -- What has been made before does not move where the path starts.
  have hplace : below.place p ≠ loc := by
    rw [place_congr ih.1]
    exact hloc p hp
  exact ⟨ih.1, (node?_put_of_ne _ hplace.symm).trans ih.2⟩

/-- There is a directory at a path, what was missing on the way to it has been made, and nothing
else has. -/
structure MakesWay (fs made : FileSystem) (p : Path) : Prop where
  /-- They are seen from one standpoint. -/
  standpoint_eq : made.standpoint = fs.standpoint
  /-- The path leads to its place. -/
  resolve_eq : made.resolve p = .ok (fs.place p)
  /-- On the way there are directories, where directories were or nothing. -/
  onTheWay : ∀ loc, fs.LeadsThrough p loc → made.node? loc = some .directory ∧
    (fs.node? loc = none ∨ fs.node? loc = some .directory)
  /-- Off the way, everything is as it was. -/
  other : ∀ loc, ¬ fs.LeadsThrough p loc → made.node? loc = fs.node? loc

/-- **Making a directory** makes what is missing on the way to it. -/
theorem makesWay_of_makeDirectories (hp : p ≠ [])
    (h : fs.makeDirectories p = (made, none)) : fs.MakesWay made p := by
  obtain ⟨hgains, loc, hresolve, hdirectory⟩ := gainsDirectories_of_makeDirectories hp h
  have hloc : loc = fs.place p :=
    (eq_place_of_resolve hresolve).trans (place_congr hgains.standpoint_eq p)
  refine ⟨hgains.standpoint_eq, hloc ▸ hresolve, fun there hthere => ?_, fun there hthere => ?_⟩
  · have hway : made.LeadsThrough p there := by
      rwa [LeadsThrough, hgains.extends.start_eq]
    have hmade := node?_of_leadsThrough hresolve hdirectory hway
    refine ⟨hmade, ?_⟩
    rcases hgains.node? there with heq | ⟨hnone, -⟩
    · exact .inr (heq ▸ hmade)
    · exact .inl hnone
  · -- Directories are made at the places of the path and its ancestors, all of them on the way.
    have hoff : ∀ q ∈ p :: ancestors p, fs.place q ≠ there := by
      rintro q hq rfl
      rcases List.mem_cons.1 hq with rfl | hq
      · exact hthere (fs.leadsThrough_place _)
      · exact hthere (leadsThrough_of_mem_ancestors hq)
    rw [makeDirectories, if_neg (by simpa using hp)] at h
    have hsame := (node?_of_makeUpwards hoff).2
    rwa [h] at hsame

end FileSystem

end DocComments
