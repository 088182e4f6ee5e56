import DocComments.Proofs.Files.Write

/-!
# The place of a path

Without links, the location that a path leads to can be told from its spelling and the directory
that relative paths start from; the files only decide whether there is anything. Two paths with the
same components name the same location, and so can paths with different components: dots up lead
back to a directory, a dot at the start leads nowhere, and a path from the root names what a
relative path names too.

* `FileSystem.place` is that location, and `FileSystem.eq_place_of_resolve` says so.
* `FileSystem.LeadsThrough`: the location is on the way. `node?_of_leadsThrough` says that there are
  directories on the way to a directory.
* `Path.SpelledAlike` excludes the ways to spell a location differently, and
  `components_eq_of_place_eq` says that there are no others.
-/

namespace DocComments

variable {fs fs' : FileSystem} {loc start : Location} {p q : Path} {steps above : List Text}
  {cs : List Path.Component} {c : Path.Component}

/-! ## Components -/

namespace Path

/-- The component that the start of a path stands for. -/
def lead (p : Path) : List Component :=
  if p.isAbsolute then [.root]
  else if (p.splitOn '/').head? = some ['.'] then [.current]
  else []

/-- The components of a path after its start. -/
def rest (p : Path) : List Component :=
  (p.splitOn '/').filterMap Component.ofStep?

theorem components_eq (p : Path) : p.components = p.lead ++ p.rest :=
  rfl

/-- A component after the start is spelled as the step that stands for it. -/
theorem spell_of_mem_rest (h : c ∈ p.rest) :
    '/' ∉ c.spell ∧ Component.ofStep? c.spell = some c := by
  obtain ⟨step, hstep, hc⟩ := List.mem_filterMap.1 h
  have hspell : c.spell = step := by
    unfold Component.ofStep? at hc
    split at hc
    · cases hc
    split at hc
    · next hup =>
      cases hc
      exact hup.symm
    · cases hc
      rfl
  rw [hspell]
  exact ⟨Text.not_mem_of_mem_splitOn hstep, hc⟩

/-- It goes up or is a name. -/
theorem ne_of_mem_rest (h : c ∈ p.rest) : c ≠ .root ∧ c ≠ .current := by
  obtain ⟨hslash, hstep⟩ := spell_of_mem_rest h
  constructor
  · rintro rfl
    exact hslash (List.mem_singleton_self _)
  · rintro rfl
    cases hstep

theorem isAbsolute_iff : p.isAbsolute = true ↔ p.components.head? = some .root := by
  rw [components_eq, lead]
  constructor
  · intro h
    simp [h]
  · intro h
    by_contra hno
    rw [if_neg hno] at h
    split at h
    · cases h
    · exact (ne_of_mem_rest (List.mem_of_mem_head? h)).1 rfl

theorem current_mem_iff : .current ∈ p.components ↔ .current ∈ p.lead := by
  rw [components_eq, List.mem_append, or_iff_left fun hc => (ne_of_mem_rest hc).2 rfl]

theorem lead_congr (habsolute : p.isAbsolute = q.isAbsolute)
    (hcurrent : .current ∈ p.components ↔ .current ∈ q.components) : p.lead = q.lead := by
  rw [current_mem_iff, current_mem_iff] at hcurrent
  unfold lead at hcurrent ⊢
  rw [habsolute] at hcurrent ⊢
  split_ifs at hcurrent ⊢ <;> simp_all

end Path

/-! ## Places -/

/-- The location that a component leads to. -/
def Location.advance (loc : Location) : Path.Component → Location
  | .root => []
  | .current => loc
  | .parent => loc.dropLast
  | .name n => loc ++ [n]

/-- A step leads where its component leads, and stays if it has none. -/
theorem Location.step_eq (loc : Location) (step : Text) :
    loc.step step = (Path.Component.ofStep? step).elim loc loc.advance := by
  unfold Location.step Path.Component.ofStep?
  split
  · rfl
  · split <;> rfl

theorem foldl_advance_filterMap (steps : List Text) (loc : Location) :
    (steps.filterMap Path.Component.ofStep?).foldl Location.advance loc =
      steps.foldl Location.step loc := by
  induction steps generalizing loc with
  | nil => rfl
  | cons step steps ih =>
    rw [List.filterMap_cons, List.foldl_cons, ← ih, Location.step_eq]
    cases Path.Component.ofStep? step <;> rfl

namespace FileSystem

/-- The location that a path names, whether or not there is anything. -/
def place (fs : FileSystem) (p : Path) : Location :=
  (p.splitOn '/').foldl Location.step (fs.start p)

/-- The path leads through the location: it is that of the path or of one of its ancestors. -/
def LeadsThrough (fs : FileSystem) (p : Path) (loc : Location) : Prop :=
  ∃ above, above <+: p.splitOn '/' ∧ above.foldl Location.step (fs.start p) = loc

theorem leadsThrough_place (fs : FileSystem) (p : Path) : fs.LeadsThrough p (fs.place p) :=
  ⟨_, List.prefix_rfl, rfl⟩

theorem place_congr (h : fs'.standpoint = fs.standpoint) (p : Path) :
    fs'.place p = fs.place p := by
  rw [place, place, start, start, working, working, h]

/-- The start of a path is where the path starts. -/
theorem advance_start {c : Path.Component} (hc : c ∈ p.lead) :
    (fs.start p).advance c = fs.start p := by
  unfold Path.lead at hc
  split at hc
  · next h =>
    rw [List.mem_singleton.1 hc, start, if_pos h]
    rfl
  · split at hc
    · rw [List.mem_singleton.1 hc]
      rfl
    · cases hc

theorem foldl_advance_lead (hcs : cs <+: p.lead) :
    cs.foldl Location.advance (fs.start p) = fs.start p := by
  have hmem := hcs.subset
  clear hcs
  induction cs with
  | nil => rfl
  | cons c cs ih =>
    obtain ⟨hc, hcs⟩ := List.cons_subset.1 hmem
    rw [List.foldl_cons, advance_start hc, ih hcs]

/-- **The place of a path can be told from its components.** -/
theorem place_eq (fs : FileSystem) (p : Path) :
    fs.place p = p.components.foldl Location.advance (fs.start p) := by
  rw [Path.components_eq, List.foldl_append, foldl_advance_lead List.prefix_rfl, Path.rest,
    foldl_advance_filterMap, place]

/-- The first components of a path lead to a location on the way. -/
theorem leadsThrough_of_prefix (hcs : cs <+: p.components) :
    fs.LeadsThrough p (cs.foldl Location.advance (fs.start p)) := by
  have hlead : p.lead <+: p.components := List.prefix_append _ _
  rcases List.prefix_or_prefix_of_prefix hcs hlead with hshort | ⟨rest, rfl⟩
  · exact ⟨[], List.nil_prefix, (foldl_advance_lead hshort).symm⟩
  · rw [Path.components_eq, List.prefix_append_right_inj] at hcs
    obtain ⟨after, hsplit⟩ := hcs
    obtain ⟨above, below, hsteps, rfl, -⟩ := List.filterMap_eq_append_iff.1 hsplit.symm
    refine ⟨above, ⟨below, hsteps.symm⟩, ?_⟩
    rw [List.foldl_append, foldl_advance_lead List.prefix_rfl, foldl_advance_filterMap]

/-! ## Paths that lead somewhere -/

theorem eq_foldl_step_of_foldlM_enter (h : steps.foldlM fs.enter start = .ok loc) :
    loc = steps.foldl Location.step start := by
  induction steps using List.reverseRecOn generalizing loc with
  | nil => exact (Except.ok.inj h).symm
  | append_singleton steps name ih =>
    obtain ⟨loc', hloc', henter⟩ := foldlM_enter_append_singleton_eq_ok_iff.1 h
    obtain ⟨-, -, -, rfl⟩ := enter_eq_ok_iff.1 henter
    rw [List.foldl_concat, ih hloc']

/-- **A path that leads somewhere leads to its place.** -/
theorem eq_place_of_resolve (h : fs.resolve p = .ok loc) : loc = fs.place p :=
  eq_foldl_step_of_foldlM_enter (resolveSteps_eq_ok_iff.1 h).2.2

theorem node?_foldl_step_of_prefix (h : steps.foldlM fs.enter start = .ok loc)
    (hloc : fs.node? loc = some .directory) (habove : above <+: steps) :
    fs.node? (above.foldl Location.step start) = some .directory := by
  induction steps using List.reverseRecOn generalizing loc with
  | nil =>
    rw [List.prefix_nil.1 habove]
    rwa [eq_foldl_step_of_foldlM_enter h] at hloc
  | append_singleton steps name ih =>
    rcases List.prefix_concat_iff.1 habove with rfl | habove
    · rwa [eq_foldl_step_of_foldlM_enter h] at hloc
    · obtain ⟨loc', hloc', henter⟩ := foldlM_enter_append_singleton_eq_ok_iff.1 h
      exact ih hloc' (enter_eq_ok_iff.1 henter).1 habove

/-- **On the way to a directory there are directories.** -/
theorem node?_of_leadsThrough (h : fs.resolve p = .ok loc)
    (hloc : fs.node? loc = some .directory) {there : Location} (hthere : fs.LeadsThrough p there) :
    fs.node? there = some .directory := by
  obtain ⟨above, habove, rfl⟩ := hthere
  exact node?_foldl_step_of_prefix (resolveSteps_eq_ok_iff.1 h).2.2 hloc habove

end FileSystem

/-! ## Paths that are spelled alike -/

/-- The paths start in the same way, and neither of them goes up. -/
structure Path.SpelledAlike (p q : Path) : Prop where
  /-- Both start at the root, or neither does. -/
  isAbsolute_eq : p.isAbsolute = q.isAbsolute
  /-- Both start with a dot, or neither does. -/
  current_mem_iff : .current ∈ p.components ↔ .current ∈ q.components
  /-- The first does not go up. -/
  parent_not_mem_left : .parent ∉ p.components
  /-- Nor does the second. -/
  parent_not_mem_right : .parent ∉ q.components

/-- What follows the start of a path that does not go up is names. -/
theorem Path.exists_eq_map_name (h : .parent ∉ p.components) :
    ∃ names : List Text, p.components = p.lead ++ names.map .name := by
  rw [components_eq, List.mem_append, not_or] at h
  have hnames : ∀ cs : List Component, .parent ∉ cs → .root ∉ cs → .current ∉ cs →
      ∃ names : List Text, cs = names.map .name := by
    intro cs
    induction cs with
    | nil => exact fun _ _ _ => ⟨[], rfl⟩
    | cons c cs ih =>
      intro hparent hroot hcurrent
      rw [List.mem_cons, not_or] at hparent hroot hcurrent
      obtain ⟨names, rfl⟩ := ih hparent.2 hroot.2 hcurrent.2
      cases c with
      | root => exact absurd rfl hroot.1
      | current => exact absurd rfl hcurrent.1
      | parent => exact absurd rfl hparent.1
      | name n => exact ⟨n :: names, rfl⟩
  obtain ⟨names, heq⟩ := hnames _ h.2 (fun hc => (ne_of_mem_rest hc).1 rfl)
    fun hc => (ne_of_mem_rest hc).2 rfl
  exact ⟨names, by rw [components_eq, heq]⟩

theorem foldl_advance_names (names : List Text) (loc : Location) :
    (names.map Path.Component.name).foldl Location.advance loc = loc ++ names := by
  induction names generalizing loc with
  | nil => simp
  | cons n names ih =>
    rw [List.map_cons, List.foldl_cons, ih]
    simp [Location.advance]

/-- **Paths that are spelled alike have one place only if they have the same components.** -/
theorem Path.SpelledAlike.components_eq_of_place_eq (h : p.SpelledAlike q)
    (hplace : fs.place p = fs.place q) : p.components = q.components := by
  obtain ⟨names, hp⟩ := exists_eq_map_name h.parent_not_mem_left
  obtain ⟨names', hq⟩ := exists_eq_map_name h.parent_not_mem_right
  have hlead := lead_congr h.isAbsolute_eq h.current_mem_iff
  have hstart : fs.start p = fs.start q := by
    rw [FileSystem.start, FileSystem.start, h.isAbsolute_eq]
  rw [FileSystem.place_eq, FileSystem.place_eq, hp, hq, List.foldl_append, List.foldl_append,
    FileSystem.foldl_advance_lead List.prefix_rfl, FileSystem.foldl_advance_lead List.prefix_rfl,
    foldl_advance_names, foldl_advance_names, hstart, List.append_cancel_left_eq] at hplace
  rw [hp, hq, hlead, hplace]

end DocComments
