import DocComments.Proofs.Command.Stages
import DocComments.Proofs.Files.Tree
import Mathlib.Data.List.Forall2
import Mathlib.Data.List.Perm.Subperm

/-!
# The files that a run writes

Each document is written to a file of the output directory. The name of the file is that of the
source without its extension, so it does not tell sources of different directories apart, nor such
of different extensions: where two documents have the same name, the file is that of the last.

* `WrittenTo` says what stands where when documents have been written, and
  `writtenTo_of_writeDocuments` and `writtenTo_of_writeOutput` that it does.
* `isTree_run`: a run keeps a tree.
* `KeptIn` says that every document has a file of its own, and `not_forall_keptIn` that this does
  not hold of every run.
* `run_output`: it holds if the names of the documents differ, and, where the directory held no file
  before, only then.
-/

namespace DocComments

theorem Path.sortDistinct_eq_keepFirsts {ps : List Path}
    (h : ps.Pairwise fun p q => (Path.compare p q).isLE = true) :
    Path.sortDistinct ps = Path.keepFirsts ps := by
  rw [Path.sortDistinct, List.mergeSort_of_pairwise h]

theorem Path.cutExtension_subset (name : Text) : (Path.cutExtension name).1 ⊆ name := by
  unfold Path.cutExtension
  split
  · exact List.Subset.refl _
  · have hstem : Text.dropEndWhile (· != '.') name <+: name :=
      ⟨_, Text.dropEndWhile_append_takeEndWhile _ name⟩
    exact ((List.dropLast_prefix _).trans hstem).subset

namespace Command

variable {o : Options} {stdin : ByteArray} {fs written : FileSystem} {args : List Text}
  {format : Format} {directory : Path} {dir : Location} {d : Document} {ds : List Document}

/-! ## Names of files -/

theorem isName_outputName (h : (Path.fileName? d.source).isSome = true) :
    IsName (outputName format d) := by
  obtain ⟨name, hname⟩ := Option.isSome_iff_exists.1 h
  have hstem : '/' ∉ (Path.cutExtension name).1 := fun hmem =>
    Path.slash_not_mem_of_fileName? hname (Path.cutExtension_subset name hmem)
  have heq : outputName format d = (Path.cutExtension name).1 ++ '.' :: format.extension := by
    rw [outputName, Path.stem?, hname]
    rfl
  have hslash : '/' ∉ format.extension := by
    cases format <;> decide
  have hlength : 2 ≤ format.extension.length := by
    cases format <;> decide
  have hlong : 3 ≤ (outputName format d).length := by
    rw [heq, List.length_append, List.length_cons]
    omega
  refine ⟨?_, ?_, ?_, ?_⟩
  · rw [heq]
    simp [hstem, hslash]
  all_goals
    intro hshort
    simp [hshort] at hlong

theorem source_of_readInput (h : readInput stdin = .ok d) : d.source = "stdin".toList := by
  unfold readInput at h
  cases hdecode : decodeText stdin with
  | error e =>
    rw [hdecode] at h
    cases h
  | ok text =>
    rw [hdecode] at h
    cases h
    rfl

theorem readDocument_eq_ok_iff {p : Path} :
    readDocument fs p = .ok d ↔
      ∃ content, fs.readText p = .ok content ∧ d = .extract p content := by
  unfold readDocument
  cases fs.readText p <;> simp [eq_comm]

/-- What a document is read from is a file with a name, or standard input, which has one too. -/
theorem fileName?_isSome_of_inputs (htree : fs.IsTree) (h : (inputs o stdin fs).2 = .ok ds)
    (hd : d ∈ ds) : (Path.fileName? d.source).isSome = true := by
  by_cases hfiles : o.files = []
  · rw [inputs_of_files_eq_nil hfiles] at h
    obtain ⟨d', hread, rfl⟩ := map_eq_ok_iff.1 h
    have hstdin : (Path.fileName? "stdin".toList).isSome = true := by decide
    rwa [List.mem_singleton.1 hd, source_of_readInput hread]
  · rw [inputs_of_files_ne_nil hfiles] at h
    obtain ⟨paths, -, hread⟩ := bind_eq_ok_iff.1 h
    obtain ⟨all, hall, rfl⟩ := map_eq_ok_iff.1 hread
    obtain ⟨p, -, hp⟩ := exists_of_mem_of_mapM_eq_ok hall (List.mem_of_mem_filter hd)
    obtain ⟨content, hcontent, rfl⟩ := readDocument_eq_ok_iff.1 hp
    exact htree.fileName?_isSome_of_readText hcontent

/-! ## Writing documents -/

/-- What stands in a directory and elsewhere when documents have been written to files of it. -/
structure WrittenTo (dir : Location) (format : Format) (ds : List Document)
    (fs written : FileSystem) : Prop where
  /-- A file is that of the last document of its name. -/
  last : ∀ before d after, ds = before ++ d :: after →
    (∀ d' ∈ after, outputName format d' ≠ outputName format d) →
    written.node? (dir ++ [outputName format d]) = some (.file (encodeText (format.render d)))
  /-- Everything else is as it was, but for directories that were missing. -/
  other : ∀ loc, (∀ d ∈ ds, dir ++ [outputName format d] ≠ loc) →
    written.node? loc = fs.node? loc ∨
      fs.node? loc = none ∧ written.node? loc = some .directory

theorem WrittenTo.nil : WrittenTo dir format [] fs fs := by
  refine ⟨fun before d after hds => ?_, fun _ _ => .inl rfl⟩
  cases before <;> cases hds

/-- The first document is written before the others, so it stays only if none of them has its
name. -/
theorem WrittenTo.cons (h : WrittenTo dir format ds
      (fs.put (dir ++ [outputName format d]) (.file (encodeText (format.render d)))) written) :
    WrittenTo dir format (d :: ds) fs written := by
  have hput : ∀ loc, (fs.put (dir ++ [outputName format d])
      (.file (encodeText (format.render d)))).node? loc =
        if loc = dir ++ [outputName format d] then some (.file (encodeText (format.render d)))
        else fs.node? loc :=
    FileSystem.node?_put (by simp)
  refine ⟨fun before d' after hds hafter => ?_, fun loc hloc => ?_⟩
  · cases before with
    | nil =>
      cases hds
      have hlater : ∀ d' ∈ ds, dir ++ [outputName format d'] ≠ dir ++ [outputName format d] :=
        fun d' hd' => by simpa using hafter d' hd'
      rcases h.other _ hlater with heq | ⟨hnone, -⟩
      · rw [heq, hput, if_pos rfl]
      · simp [hput] at hnone
    | cons d₀ before =>
      cases hds
      exact h.last before d' after rfl hafter
  · obtain ⟨hfirst, hothers⟩ := List.forall_mem_cons.1 hloc
    have hother := h.other loc hothers
    rwa [hput, if_neg hfirst.symm] at hother

-- Were it not sealed, the writing would be evaluated on both sides.
seal FileSystem.writeFile in
theorem writeDocuments_cons :
    writeDocuments format directory fs (d :: ds) =
      match fs.writeFile (directory.join (outputName format d)) (encodeText (format.render d)) with
      | .ok written => writeDocuments format directory written ds
      | .error e => (fs, some (.unwritableFile (directory.join (outputName format d)) e)) :=
  rfl

/-- **Documents that are all written** stand in the directory, the last of each name. -/
theorem writtenTo_of_writeDocuments (hdirectory : directory ≠ [])
    (hdir : fs.resolve directory = .ok dir) (hnames : ∀ d ∈ ds, IsName (outputName format d))
    (h : writeDocuments format directory fs ds = (written, none)) :
    fs.Extends written ∧ WrittenTo dir format ds fs written := by
  induction ds generalizing fs with
  | nil =>
    cases h
    exact ⟨.refl _, .nil⟩
  | cons d ds ih =>
    obtain ⟨hname, hnames⟩ := List.forall_mem_cons.1 hnames
    rw [writeDocuments_cons] at h
    split at h
    · next _ hfirst =>
      obtain ⟨dir', hdir', hno, rfl⟩ := FileSystem.eq_put_of_writeFile_join hname hdirectory hfirst
      cases hdir.symm.trans hdir'
      have hext := FileSystem.extends_put (by simp) hno (.file (encodeText (format.render d)))
      obtain ⟨hext', hwritten⟩ := ih (hext.resolve hdir) hnames h
      exact ⟨hext.trans hext', hwritten.cons⟩
    · cases h

/-- **What a run leaves in its output directory**, which it makes if it is missing. -/
theorem writtenTo_of_writeOutput (hdirectory : directory ≠ [])
    (hnames : ∀ d ∈ ds, IsName (outputName format d))
    (h : writeOutput format directory fs ds = (written, none)) :
    ∃ dir, written.resolve directory = .ok dir ∧ written.node? dir = some .directory ∧
      WrittenTo dir format ds fs written := by
  unfold writeOutput at h
  split at h
  · cases h
  · next made hmade =>
    obtain ⟨hgains, dir, hdir, hthere⟩ :=
      FileSystem.gainsDirectories_of_makeDirectories hdirectory hmade
    obtain ⟨hext, hwritten⟩ := writtenTo_of_writeDocuments hdirectory hdir hnames h
    refine ⟨dir, hext.resolve hdir, hext.directory _ hthere, hwritten.last, fun loc hloc => ?_⟩
    have hmade := hgains.node? loc
    have hafter := hwritten.other loc hloc
    grind

/-! ## Trees -/

theorem isTree_writeDocuments (htree : fs.IsTree) (format : Format) (directory : Path)
    (ds : List Document) : (writeDocuments format directory fs ds).1.IsTree := by
  induction ds generalizing fs with
  | nil => exact htree
  | cons d ds ih =>
    rw [writeDocuments_cons]
    split
    · next _ hwrite => exact ih (htree.writeFile hwrite)
    · exact htree

theorem isTree_writeOutput (htree : fs.IsTree) (format : Format) (directory : Path)
    (ds : List Document) : (writeOutput format directory fs ds).1.IsTree := by
  have hmade := htree.makeDirectories directory
  unfold writeOutput
  split
  · next hmake => rwa [hmake] at hmade
  · next hmake =>
    rw [hmake] at hmade
    exact isTree_writeDocuments hmade format directory ds

/-- **A run leaves a tree behind**, however it ends. -/
theorem isTree_run (htree : fs.IsTree) (args : List Text) (stdin : ByteArray) :
    (run args stdin fs).files.IsTree := by
  have hemit : ∀ o warnings ds, (emit o fs warnings ds).files.IsTree := by
    intro o warnings ds
    unfold emit
    split
    · exact htree
    split
    · exact htree
    · next format _ =>
      split
      · exact htree
      · next directory _ =>
        have hwritten := isTree_writeOutput htree format directory ds
        split
        · next hwrite => rwa [hwrite] at hwritten
        · next hwrite => rwa [hwrite] at hwritten
  unfold run
  split
  · exact htree
  · unfold runOptions
    dsimp only
    split
    · exact htree
    · exact hemit _ _ _

/-! ## Files of one's own -/

/-- Every document has a file of its own in the directory. -/
def KeptIn (dir : Location) (format : Format) (ds : List Document) (fs : FileSystem) : Prop :=
  ∃ names : List Text, names.Nodup ∧ List.Forall₂
    (fun name d => fs.node? (dir ++ [name]) = some (.file (encodeText (format.render d)))) names ds

/-- Documents of different names are all kept. -/
theorem WrittenTo.keptIn (h : WrittenTo dir format ds fs written)
    (hnodup : (ds.map (outputName format)).Nodup) : KeptIn dir format ds written := by
  refine ⟨ds.map (outputName format), hnodup, ?_⟩
  rw [List.forall₂_map_left_iff, List.forall₂_same]
  intro d hd
  obtain ⟨before, after, rfl⟩ := List.append_of_mem hd
  refine h.last before d after rfl fun d' hd' heq => ?_
  rw [List.map_append, List.map_cons] at hnodup
  have hnot := (List.nodup_cons.1 (List.nodup_append.1 hnodup).2.1).1
  exact hnot (heq ▸ List.mem_map_of_mem hd')

/-- Where there was no file before, documents that are all kept have different names. -/
theorem WrittenTo.nodup_of_keptIn (h : WrittenTo dir format ds fs written)
    (hempty : ∀ name content, fs.node? (dir ++ [name]) ≠ some (.file content))
    (hkept : KeptIn dir format ds written) : (ds.map (outputName format)).Nodup := by
  obtain ⟨names, hnodup, hfiles⟩ := hkept
  have hfile : ∀ name ∈ names, ∃ d, written.node? (dir ++ [name]) =
      some (.file (encodeText (format.render d))) :=
    ((List.forall₂_and_left _ _).1 (hfiles.imp fun _ d h => ⟨⟨d, h⟩, h⟩)).1
  have hsubset : names ⊆ ds.map (outputName format) := by
    intro name hname
    obtain ⟨d, hcontent⟩ := hfile name hname
    by_contra hno
    have hother : ∀ d ∈ ds, dir ++ [outputName format d] ≠ dir ++ [name] := by
      intro d hd heq
      obtain rfl : outputName format d = name := by simpa using heq
      exact hno (List.mem_map_of_mem hd)
    rcases h.other _ hother with heq | ⟨-, hdirectory⟩
    · exact hempty name _ (heq ▸ hcontent)
    · simp [hdirectory] at hcontent
  -- There are as many of these names as documents, so they are the names of all documents.
  have hperm := (List.subperm_of_subset hnodup hsubset).perm_of_length_le
    (by simp [hfiles.length_eq])
  exact hperm.nodup_iff.1 hnodup

/-! ## The run -/

/-- A run that writes to a directory and succeeds has read all its documents and written them. -/
theorem exists_writeOutput_of_success (hkey : o.key = none) (htexts : o.texts = false)
    (houtput : o.output = some directory) (hrun : (runOptions o stdin fs).ending = .success) :
    ∃ format ds, Format.ofName? o.format = some format ∧ (inputs o stdin fs).2 = .ok ds ∧
      writeOutput format directory fs ds = ((runOptions o stdin fs).files, none) := by
  cases hinputs : (inputs o stdin fs).2 with
  | error f =>
    rw [runOptions_of_inputs_eq_error hinputs] at hrun
    cases hrun
  | ok ds =>
    rw [runOptions_of_inputs_eq_ok hinputs] at hrun ⊢
    split at hrun
    · cases hrun
    · cases hformat : Format.ofName? o.format with
      | none => simp [emit, hkey, htexts, hformat] at hrun
      | some format =>
        refine ⟨format, ds, rfl, rfl, ?_⟩
        simp only [emit, hkey, htexts, hformat, houtput] at hrun ⊢
        cases hwrite : writeOutput format directory fs ds with
        | mk written failure =>
          cases failure with
          | none => rfl
          | some f => simp [hwrite] at hrun

theorem exists_writtenTo_of_success (htree : fs.IsTree) (hparse : Options.parse args = .ok o)
    (hkey : o.key = none) (htexts : o.texts = false) (houtput : o.output = some directory)
    (hrun : (run args stdin fs).ending = .success) :
    ∃ format ds dir, Format.ofName? o.format = some format ∧ (inputs o stdin fs).2 = .ok ds ∧
      (run args stdin fs).files.resolve directory = .ok dir ∧
      WrittenTo dir format ds fs (run args stdin fs).files := by
  rw [run_of_parse hparse] at hrun ⊢
  obtain ⟨format, ds, hformat, hinputs, hwrite⟩ :=
    exists_writeOutput_of_success hkey htexts houtput hrun
  have hdirectory : directory ≠ [] := fun hnil =>
    Options.output_ne_nil_of_parse hparse (houtput.trans (congrArg some hnil))
  obtain ⟨dir, hdir, -, hwritten⟩ := writtenTo_of_writeOutput hdirectory
    (fun d hd => isName_outputName (fileName?_isSome_of_inputs htree hinputs hd)) hwrite
  exact ⟨format, ds, dir, hformat, hinputs, hdir, hwritten⟩

theorem inputs_eq_readDocuments {paths : List Path} (hfiles : o.files ≠ [])
    (hgather : (gather fs o.files).2 = .ok paths)
    (hsorted : paths.Pairwise fun p q => (Path.compare p q).isLE = true) :
    (inputs o stdin fs).2 = readDocuments fs (Path.keepFirsts paths) := by
  have hexpand : (expand fs o.files).2 = (gather fs o.files).2.map Path.sortDistinct := rfl
  rw [inputs_of_files_ne_nil hfiles, hexpand, hgather]
  change readDocuments fs (Path.sortDistinct paths) = _
  rw [Path.sortDistinct_eq_keepFirsts hsorted]

/-- **What a run that writes to a directory and succeeds leaves there**: the last document of each
name. So documents of different names are all kept, and where no file was before, only those. -/
theorem run_output (htree : fs.IsTree) (hparse : Options.parse args = .ok o) (hkey : o.key = none)
    (htexts : o.texts = false) (houtput : o.output = some directory)
    (hrun : (run args stdin fs).ending = .success) :
    ∃ format ds dir, Format.ofName? o.format = some format ∧ (inputs o stdin fs).2 = .ok ds ∧
      (run args stdin fs).files.resolve directory = .ok dir ∧
      WrittenTo dir format ds fs (run args stdin fs).files ∧
      ((ds.map (outputName format)).Nodup → KeptIn dir format ds (run args stdin fs).files) ∧
      ((∀ name content, fs.node? (dir ++ [name]) ≠ some (.file content)) →
        KeptIn dir format ds (run args stdin fs).files → (ds.map (outputName format)).Nodup) := by
  obtain ⟨format, ds, dir, hformat, hinputs, hdir, hwritten⟩ :=
    exists_writtenTo_of_success htree hparse hkey htexts houtput hrun
  exact ⟨format, ds, dir, hformat, hinputs, hdir, hwritten, hwritten.keptIn,
    hwritten.nodup_of_keptIn⟩

/-- Two sources of different names in two directories. -/
theorem run_output_two_names :
    let fs : FileSystem := ⟨[(["a"].map String.toList, .directory),
      (["a", "x.php"].map String.toList, .file (encodeText "/** a */".toList)),
      (["b"].map String.toList, .directory),
      (["b", "y.php"].map String.toList, .file (encodeText "/** b */".toList))], ⟨[], []⟩⟩
    let args := ["-o", "out", "-f", "text", "a/x.php", "b/y.php"].map String.toList
    let ds : List Document := [⟨"a/x.php".toList, [⟨1, "/** a\n */".toList, none⟩]⟩,
      ⟨"b/y.php".toList, [⟨1, "/** b\n */".toList, none⟩]⟩]
    fs.IsTree ∧ (run args .empty fs).ending = .success ∧
      ∃ dir, (run args .empty fs).files.resolve "out".toList = .ok dir ∧
        KeptIn dir .plain ds (run args .empty fs).files := by
  intro fs args ds
  let o : Options := ⟨["a/x.php", "b/y.php"].map String.toList, some "out".toList, "text".toList,
    none, false, []⟩
  have htree : fs.IsTree := by decide +kernel
  have hparse : Options.parse args = .ok o := eq_ok_of_toOption (by decide +kernel)
  have hgather : (gather fs o.files).2 = .ok o.files := eq_ok_of_toOption (by decide +kernel)
  have hinputs : (inputs o .empty fs).2 = .ok ds := by
    rw [inputs_eq_readDocuments (by decide) hgather (by decide)]
    exact eq_ok_of_toOption (by decide +kernel)
  have hrun : (run args .empty fs).ending = .success := by
    rw [run_of_parse hparse, runOptions_of_inputs_eq_ok hinputs]
    decide +kernel
  obtain ⟨format, ds', dir, hformat, hinputs', hdir, -, hkept, -⟩ :=
    run_output htree hparse rfl rfl rfl hrun
  have htext : Format.ofName? o.format = some .plain := by decide
  cases htext.symm.trans hformat
  cases hinputs.symm.trans hinputs'
  exact ⟨htree, hrun, dir, hdir, hkept (by decide)⟩

/-- Two sources of one name in two directories: the second is written over the first. -/
theorem not_forall_keptIn :
    ¬ ∀ (args : List Text) (stdin : ByteArray) (fs : FileSystem) (o : Options) (directory : Path)
      (format : Format) (ds : List Document), fs.IsTree → Options.parse args = .ok o →
      o.key = none → o.texts = false → o.output = some directory →
      Format.ofName? o.format = some format → (inputs o stdin fs).2 = .ok ds →
      (run args stdin fs).ending = .success →
      ∃ dir, (run args stdin fs).files.resolve directory = .ok dir ∧
        KeptIn dir format ds (run args stdin fs).files := by
  intro h
  let fs : FileSystem := ⟨[(["a"].map String.toList, .directory),
    (["a", "x.php"].map String.toList, .file (encodeText "/** a */".toList)),
    (["b"].map String.toList, .directory),
    (["b", "x.php"].map String.toList, .file (encodeText "/** b */".toList))], ⟨[], []⟩⟩
  let args := ["-o", "out", "-f", "text", "a/x.php", "b/x.php"].map String.toList
  let o : Options := ⟨["a/x.php", "b/x.php"].map String.toList, some "out".toList, "text".toList,
    none, false, []⟩
  let ds : List Document := [⟨"a/x.php".toList, [⟨1, "/** a\n */".toList, none⟩]⟩,
    ⟨"b/x.php".toList, [⟨1, "/** b\n */".toList, none⟩]⟩]
  have htree : fs.IsTree := by decide +kernel
  have hparse : Options.parse args = .ok o := eq_ok_of_toOption (by decide +kernel)
  have hgather : (gather fs o.files).2 = .ok o.files := eq_ok_of_toOption (by decide +kernel)
  have hinputs : (inputs o .empty fs).2 = .ok ds := by
    rw [inputs_eq_readDocuments (by decide) hgather (by decide)]
    exact eq_ok_of_toOption (by decide +kernel)
  have hrun : (run args .empty fs).ending = .success := by
    rw [run_of_parse hparse, runOptions_of_inputs_eq_ok hinputs]
    decide +kernel
  obtain ⟨dir, hdir, hkept⟩ := h args .empty fs o "out".toList .plain ds htree hparse rfl rfl rfl
    (by decide) hinputs hrun
  obtain ⟨format, ds', dir', hformat, hinputs', hdir', hwritten⟩ :=
    exists_writtenTo_of_success htree hparse rfl rfl rfl hrun
  have htext : Format.ofName? o.format = some .plain := by decide
  cases htext.symm.trans hformat
  cases hinputs.symm.trans hinputs'
  cases hdir.symm.trans hdir'
  have hout : (run args .empty fs).files.resolve "out".toList = .ok ["out".toList] := by
    rw [run_of_parse hparse, runOptions_of_inputs_eq_ok hinputs]
    exact eq_ok_of_toOption (by decide +kernel)
  cases hdir.symm.trans hout
  have hnodup := hwritten.nodup_of_keptIn (fun name content hfile => ?_) hkept
  · exact absurd hnodup (by decide)
  · have hparent := htree.node?_dropLast (by rw [hfile]; nofun)
    rw [List.dropLast_concat] at hparent
    exact absurd hparent (by decide)

end Command

end DocComments
