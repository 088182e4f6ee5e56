import DocComments.Proofs.Command.Files
import DocComments.Proofs.Files.Ancestors
import DocComments.Proofs.Files.Order
import Mathlib.Data.List.Nodup

/-!
# The files that arguments stand for

An argument stands for a file, for the source files of a directory, or for the files that match a
pattern. The files of all arguments are put in order, each once and in the spelling that comes
first. So it does not matter in which order the arguments are given, how often, and in which order a
directory lists what is in it.

* `Offers` says what an argument stands for, and `offers_of_filesOf` that this is what it is taken
  for.
* `Path.IsSortedSet` says what is made of the files of all arguments.
* `expand_isSortedSet` puts the results together, and `not_forall_expand` says what does not hold of
  directories: some cannot be listed, and some have no room in their path for the names in them.
-/

namespace DocComments

/-! ## Sorted sets of paths -/

/-- The files are the paths, in strict order, each once and in the spelling that comes first. -/
structure Path.IsSortedSet (paths files : List Path) : Prop where
  /-- The files are in strict order, and no two are spellings of one path. -/
  increasing : files.Pairwise fun p q => Path.compare p q = .lt ∧ p.same q = false
  /-- Each path is there once, in its first spelling. -/
  first : ∀ q ∈ paths, ∃ p ∈ files, paths.find? q.same = some p ∧
    ∀ r ∈ files, q.same r = true → r = p
  /-- Nothing else is there. -/
  subset : files ⊆ paths

theorem Path.isSortedSet_sortDistinct (paths : List Path) :
    Path.IsSortedSet paths (Path.sortDistinct paths) := by
  have hstrict := Path.pairwise_sortDistinct paths
  have hapart : (Path.sortDistinct paths).Pairwise
      fun p q => Path.compare p q = .lt ∧ p.same q = false := by
    refine hstrict.imp fun {p q} hlt => ⟨hlt, ?_⟩
    rw [← Bool.not_eq_true, ← Path.compare_eq_eq_iff, hlt]
    nofun
  refine ⟨hapart, fun q hq => ?_, fun p => Path.mem_of_mem_sortDistinct⟩
  have hsome : (paths.find? q.same).isSome = true := by
    rw [List.find?_isSome]
    exact ⟨q, hq, q.same_self⟩
  obtain ⟨p, hp⟩ := Option.isSome_iff_exists.1 hsome
  have hkept := (Path.find?_sortDistinct q paths).trans hp
  have hmem := List.mem_of_find?_eq_some hkept
  refine ⟨p, hmem, hp, fun r hr hsame => ?_⟩
  have hpr : p.components = r.components :=
    (Path.same_iff.1 (List.find?_some hp)).symm.trans (Path.same_iff.1 hsame)
  exact (List.inj_on_of_nodup_map (Path.nodup_map_components hstrict) hmem hr hpr).symm

namespace Command

variable {fs : FileSystem} {arg : Text} {args args' : List Text} {f : Path}
  {paths paths' files : List Path} {offered offered' : List (List Path)}

/-! ## What an argument stands for -/

/-- The files that an argument stands for, in an order in which they can come. -/
inductive Offers (fs : FileSystem) (arg : Text) : List Path → Prop where
  /-- A file stands for itself. -/
  | file (hfile : fs.hasFile arg = true) : Offers fs arg [arg]
  /-- A directory that can be listed stands for the source files that its entries lead to, in
  whatever order it lists them. -/
  | directory {loc : Location} {names : List Text} (hloc : fs.resolve arg = .ok loc)
      (hdirectory : fs.node? loc = some .directory) (hopen : fs.isClosed loc = false)
      (hnames : ∀ name, name ∈ names ↔ fs.node? (loc ++ [name]) ≠ none) :
      Offers fs arg ((names.map (Path.join arg)).filter fun p => fs.hasFile p && isSourcePath p)
  /-- All else is a pattern, and stands for the files that match it. -/
  | pattern {pattern : Pattern} (hfile : fs.hasFile arg = false)
      (hdirectory : fs.hasDirectory arg = false) (hpattern : Pattern.parse arg = .ok pattern) :
      Offers fs arg ((pattern.search fs).filter fs.hasFile)

theorem offers_of_filesOf (h : filesOf fs arg = .ok paths) : Offers fs arg paths := by
  unfold filesOf at h
  split at h
  · next hfile =>
    cases h
    exact .file hfile
  split at h
  · split at h
    · cases h
    · next names hnames =>
      cases h
      obtain ⟨loc, hloc, hnode, hopen, rfl⟩ := FileSystem.names_eq_ok_iff.1 hnames
      exact .directory hloc hnode hopen fun name => FileSystem.mem_namesAt_iff
  · next hfile hdirectory =>
    split at h
    · cases h
    · next pattern hpattern =>
      cases h
      exact .pattern (by simpa using hfile) (by simpa using hdirectory) hpattern

/-- A directory whose path leaves no room for a name stands for no files. -/
theorem filesOf_eq_ok_nil {names : List Text} (hnames : fs.names arg = .ok names)
    (hentries : ∀ name ∈ names, IsName name) (hfull : pathLimit ≤ byteLength arg) :
    filesOf fs arg = .ok [] := by
  obtain ⟨loc, hloc, hnode, -, -⟩ := FileSystem.names_eq_ok_iff.1 hnames
  have hdirectory := FileSystem.hasDirectory_iff.2 ⟨loc, hloc, hnode⟩
  have hnone : (names.map (Path.join arg)).filter (fun p => fs.hasFile p && isSourcePath p) =
      [] := by
    refine List.filter_eq_nil_iff.2 fun p hp => ?_
    obtain ⟨name, hname, rfl⟩ := List.mem_map.1 hp
    have hjoin := Path.byteLength_add_le_join (hentries name hname).slash_not_mem
      (FileSystem.resolveSteps_eq_ok_iff.1 hloc).1
    have hpos := byteLength_pos (hentries name hname).ne_nil
    rw [FileSystem.hasFile_eq_false_of_lt (by omega), Bool.false_and]
    exact Bool.false_ne_true
  simp only [filesOf, FileSystem.hasFile_eq_false hdirectory, hdirectory, hnames, hnone,
    Bool.false_eq_true, if_false, if_true]

/-- However a directory lists its entries, an argument stands for the same files. -/
theorem mem_congr_of_offers (h : Offers fs arg paths) (h' : Offers fs arg paths') :
    f ∈ paths ↔ f ∈ paths' := by
  cases h with
  | file hfile =>
    cases h' with
    | file => rfl
    | directory hloc hdirectory =>
      have hthere := FileSystem.hasDirectory_iff.2 ⟨_, hloc, hdirectory⟩
      cases hfile.symm.trans (FileSystem.hasFile_eq_false hthere)
    | pattern hno => cases hfile.symm.trans hno
  | directory hloc hdirectory hopen hnames =>
    have hthere := FileSystem.hasDirectory_iff.2 ⟨_, hloc, hdirectory⟩
    cases h' with
    | file hfile => cases hfile.symm.trans (FileSystem.hasFile_eq_false hthere)
    | directory hloc' hdirectory' hopen' hnames' =>
      cases hloc.symm.trans hloc'
      simp only [List.mem_filter, List.mem_map, hnames, hnames']
    | pattern hfile hno => cases hthere.symm.trans hno
  | pattern hno hno' hpattern =>
    cases h' with
    | file hfile => cases hfile.symm.trans hno
    | directory hloc hdirectory =>
      cases hno'.symm.trans (FileSystem.hasDirectory_iff.2 ⟨_, hloc, hdirectory⟩)
    | pattern _ _ hpattern' =>
      cases hpattern.symm.trans hpattern'
      rfl

/-! ## All arguments -/

/-- The files of all arguments are those of any of them. -/
theorem mem_flatten_iff (h : List.Forall₂ (Offers fs) args offered) :
    f ∈ offered.flatten ↔ ∃ arg ∈ args, ∃ paths, Offers fs arg paths ∧ f ∈ paths := by
  induction h with
  | nil => simp
  | @cons arg paths args offered hoffers _ ih =>
    rw [List.flatten_cons, List.mem_append, ih, List.exists_mem_cons_iff]
    constructor
    · exact Or.imp_left fun hf => ⟨paths, hoffers, hf⟩
    · exact Or.imp_left fun ⟨_, hoffers', hf⟩ => (mem_congr_of_offers hoffers' hoffers).1 hf

/-- The same arguments stand for the same files, in whatever order they are given and list them. -/
theorem mem_flatten_congr (h : List.Forall₂ (Offers fs) args offered)
    (h' : List.Forall₂ (Offers fs) args' offered') (hargs : ∀ arg, arg ∈ args' ↔ arg ∈ args) :
    f ∈ offered.flatten ↔ f ∈ offered'.flatten := by
  simp only [mem_flatten_iff h, mem_flatten_iff h', hargs]

theorem expand_eq_ok_iff :
    (expand fs args).2 = .ok files ↔
      ∃ offered, List.Forall₂ (fun arg paths => filesOf fs arg = .ok paths) args offered ∧
        Path.sortDistinct offered.flatten = files := by
  have hexpand : (expand fs args).2 = (gather fs args).2.map Path.sortDistinct := rfl
  rw [hexpand, gather_snd, map_eq_ok_iff]
  simp only [map_eq_ok_iff, mapM_eq_ok_iff]
  constructor
  · rintro ⟨_, ⟨offered, hoffered, rfl⟩, hfiles⟩
    exact ⟨offered, hoffered, hfiles⟩
  · rintro ⟨offered, hoffered, hfiles⟩
    exact ⟨_, ⟨offered, hoffered, rfl⟩, hfiles⟩

/-- Files that come in order are kept in it. -/
theorem expand_eq_keepFirsts (hgather : (gather fs args).2 = .ok paths)
    (hsorted : paths.Pairwise fun p q => (Path.compare p q).isLE = true) :
    (expand fs args).2 = .ok (Path.keepFirsts paths) := by
  have hexpand : (expand fs args).2 = (gather fs args).2.map Path.sortDistinct := rfl
  rw [hexpand, hgather, ← Path.sortDistinct_eq_keepFirsts hsorted]
  rfl

/-- The files are in strict order, and no two of them are spellings of one path. -/
theorem pairwise_of_expand (h : (expand fs args).2 = .ok files) :
    files.Pairwise fun p q => Path.compare p q = .lt ∧ p.same q = false := by
  obtain ⟨offered, -, rfl⟩ := expand_eq_ok_iff.1 h
  exact (Path.isSortedSet_sortDistinct offered.flatten).increasing

theorem expand_eq_ok_iff_forall :
    (∃ files, (expand fs args).2 = .ok files) ↔ ∀ arg ∈ args, ¬ IsInvalid fs arg := by
  have hcases : (∃ files, (expand fs args).2 = .ok files) ↔
      ¬ ∃ e, (expand fs args).2 = .error e := by
    cases (expand fs args).2 <;> simp
  rw [hcases, exists_expand_eq_error_iff]
  simp only [not_exists, not_and]

/-- What the arguments are expanded to is, up to spelling, what any other arguments with the same
members would be expanded to, however directories list their entries. -/
theorem forall₂_same_of_expand (h : (expand fs args).2 = .ok files)
    (hargs : ∀ arg, arg ∈ args' ↔ arg ∈ args)
    (hoffered : List.Forall₂ (Offers fs) args' offered) :
    List.Forall₂ (fun p q => p.same q = true) files (Path.sortDistinct offered.flatten) := by
  obtain ⟨own, hown, rfl⟩ := expand_eq_ok_iff.1 h
  have hown := hown.imp fun _ _ => offers_of_filesOf
  refine Path.forall₂_same_sortDistinct fun cs => ?_
  simp only [List.mem_map, mem_flatten_congr hown hoffered hargs]

/-- **Arguments expand to a sorted set of files.** This fails exactly if an argument is a directory
that cannot be listed, or neither a file nor a directory nor a pattern. Otherwise the files are
those that the arguments stand for, in strict order, each once and in the spelling that comes first.
The same arguments in another order or number expand to the same files, up to spelling, and so would
they if directories listed their entries in another order. -/
theorem expand_isSortedSet (fs : FileSystem) (args : List Text) :
    ((∃ e, (expand fs args).2 = .error e) ↔ ∃ arg ∈ args, IsInvalid fs arg) ∧
    (∀ files, (expand fs args).2 = .ok files →
      (∀ f ∈ files, fs.hasFile f = true) ∧
      ∃ offered, List.Forall₂ (fun arg paths => filesOf fs arg = .ok paths ∧ Offers fs arg paths)
          args offered ∧
        Path.IsSortedSet offered.flatten files) ∧
    (∀ args', (∀ arg, arg ∈ args' ↔ arg ∈ args) →
      ((∃ files, (expand fs args').2 = .ok files) ↔ ∃ files, (expand fs args).2 = .ok files) ∧
      ∀ files, (expand fs args).2 = .ok files →
        (∀ files', (expand fs args').2 = .ok files' →
          List.Forall₂ (fun p q => p.same q = true) files files') ∧
        ∀ offered, List.Forall₂ (Offers fs) args' offered →
          List.Forall₂ (fun p q => p.same q = true) files
            (Path.sortDistinct offered.flatten)) := by
  refine ⟨exists_expand_eq_error_iff, fun files hfiles => ⟨fun f hf => ?_, ?_⟩,
    fun args' hargs => ⟨?_, fun files hfiles => ⟨fun files' hfiles' => ?_, fun offered => ?_⟩⟩⟩
  · exact hasFile_of_expand hfiles hf
  · obtain ⟨offered, hoffered, rfl⟩ := expand_eq_ok_iff.1 hfiles
    exact ⟨offered, hoffered.imp fun _ _ h => ⟨h, offers_of_filesOf h⟩,
      Path.isSortedSet_sortDistinct offered.flatten⟩
  · simp only [expand_eq_ok_iff_forall, hargs]
  · obtain ⟨offered, hoffered, rfl⟩ := expand_eq_ok_iff.1 hfiles'
    exact forall₂_same_of_expand hfiles hargs (hoffered.imp fun _ _ => offers_of_filesOf)
  · exact forall₂_same_of_expand hfiles hargs

/-- A file that is named and found in its directory too, one in a directory that comes later, an
argument that is no pattern, and a directory that cannot be listed. -/
theorem expand_isSortedSet_slashes :
    let fs : FileSystem := ⟨[(["d"].map String.toList, .directory),
      (["d", "a.php"].map String.toList, .file .empty),
      (["d-x"].map String.toList, .directory),
      (["d-x", "a.php"].map String.toList, .file .empty)], ⟨[], [["d-x".toList]]⟩⟩
    let args := ["d//a.php", "d", "d-x/a.php"].map String.toList
    let files := ["d//a.php", "d-x/a.php"].map String.toList
    (∀ f ∈ files, fs.hasFile f = true) ∧
      files.Pairwise (fun p q => Path.compare p q = .lt ∧ Path.same p q = false) ∧
      (∃ files', (expand fs (args.reverse ++ args)).2 = .ok files' ∧
        List.Forall₂ (fun p q => Path.same p q = true) files files') ∧
      (∃ e, (expand fs ("d***".toList :: args)).2 = .error e) ∧
      ∃ e, (expand fs ("d-x".toList :: args)).2 = .error e := by
  intro fs args files
  have hgather : (gather fs args).2 =
      .ok (["d//a.php", "d/a.php", "d-x/a.php"].map String.toList) :=
    eq_ok_of_toOption (by decide +kernel)
  have hexpand : (expand fs args).2 = .ok files := expand_eq_keepFirsts hgather (by decide)
  have hmembers : ∀ arg, arg ∈ args.reverse ++ args ↔ arg ∈ args := by
    simp
  obtain ⟨-, hfiles, hset⟩ := expand_isSortedSet fs args
  obtain ⟨hthere, offered, -, hsorted⟩ := hfiles files hexpand
  obtain ⟨hsuccess, hsame⟩ := hset (args.reverse ++ args) hmembers
  obtain ⟨files', hfiles'⟩ := hsuccess.2 ⟨files, hexpand⟩
  have hpattern : Pattern.parse "d***".toList = .error ⟨3, .tooManyStars⟩ := by
    simp [Pattern.parse, Token.parse, Token.parseFrom, Except.map, bind, Except.bind]
  have hno : IsInvalid fs "d***".toList :=
    .pattern (by decide +kernel) (by decide +kernel) hpattern
  have hloc : fs.resolve "d-x".toList = .ok ["d-x".toList] := eq_ok_of_toOption (by decide +kernel)
  have hclosed : IsInvalid fs "d-x".toList := .directory hloc (by decide) (by decide)
  exact ⟨hthere, hsorted.increasing, ⟨files', hfiles', (hsame files hexpand).1 files' hfiles'⟩,
    (expand_isSortedSet fs _).1.2 ⟨_, List.mem_cons_self, hno⟩,
    (expand_isSortedSet fs _).1.2 ⟨_, List.mem_cons_self, hclosed⟩⟩

/-- A directory that cannot be listed, and one whose path leaves no room for the name of the file in
it. -/
theorem not_forall_expand :
    (¬ ∀ (fs : FileSystem) (args : List Text), fs.IsTree →
      ((∃ e, (expand fs args).2 = .error e) ↔ ∃ arg ∈ args, fs.hasFile arg = false ∧
        fs.hasDirectory arg = false ∧ ∃ e, Pattern.parse arg = .error e)) ∧
    ¬ ∀ (fs : FileSystem) (args : List Text) (files : List Path) (arg : Path) (loc : Location)
      (name : Text) (content : ByteArray), fs.IsTree → (expand fs args).2 = .ok files →
      arg ∈ args → fs.resolve arg = .ok loc →
      fs.node? (loc ++ [name]) = some (.file content) → isSourcePath (arg.join name) = true →
      ∃ f ∈ files, (arg.join name).same f = true := by
  constructor
  · intro h
    let fs : FileSystem := ⟨[(["d".toList], .directory)], ⟨[], [["d".toList]]⟩⟩
    have hloc : fs.resolve "d".toList = .ok ["d".toList] := eq_ok_of_toOption (by decide +kernel)
    have hfails := exists_expand_eq_error_iff.2 ⟨"d".toList, List.mem_singleton_self _,
      .directory hloc (by decide) (by decide)⟩
    obtain ⟨arg, harg, -, hno, -⟩ := (h fs ["d".toList] (by decide +kernel)).1 hfails
    have hdirectory := FileSystem.hasDirectory_iff.2 ⟨_, hloc, rfl⟩
    rw [List.mem_singleton.1 harg, hdirectory] at hno
    cases hno
  · intro h
    let name := "a.php".toList
    let content := encodeText "/** @x 1 */".toList
    let fs : FileSystem := ⟨[([name], .file content)], ⟨[], []⟩⟩
    -- The directory that paths start from, in as many characters as a path can have.
    let arg : Path := ['.'] ++ List.replicate 4094 '/'
    have hlength : byteLength arg = pathLimit := by decide +kernel
    have hne : arg ≠ [] := List.cons_ne_nil _ _
    have hloc : fs.resolve arg = .ok [] := by
      refine FileSystem.resolveSteps_eq_ok_iff.2 ⟨hne, hlength.le, ?_⟩
      rw [splitOn_append_replicate_slash]
      exact FileSystem.foldlM_enter_append_replicate_nil 4094 rfl rfl
    have hnames : fs.names arg = .ok [name] :=
      FileSystem.names_eq_ok_iff.2 ⟨_, hloc, rfl, rfl, by decide +kernel⟩
    have hname : IsName name := ⟨by decide, by decide, by decide, by decide⟩
    have hfiles : filesOf fs arg = .ok [] :=
      filesOf_eq_ok_nil hnames (List.forall_mem_singleton.2 hname) hlength.ge
    have hexpand : (expand fs [arg]).2 = .ok [] :=
      expand_eq_ok_iff.2 ⟨[[]], .cons hfiles .nil, by simp [Path.sortDistinct, Path.keepFirsts]⟩
    have hsource : isSourcePath (arg.join name) = true := by
      rw [isSourcePath, Path.extension?, Path.fileName?_join hname hne]
      decide
    obtain ⟨f, hf, -⟩ := h fs [arg] [] arg [] name content (by decide +kernel) hexpand
      (List.mem_singleton_self _) hloc rfl hsource
    cases hf

end Command

end DocComments
