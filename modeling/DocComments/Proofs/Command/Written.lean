import DocComments.Proofs.Command.Arguments
import DocComments.Proofs.Command.Distinct
import DocComments.Proofs.Command.Output
import DocComments.Proofs.Files.Ancestors

/-!
# What a run with an output directory leaves behind

A run that writes to a directory reads everything first, so what it writes is what it would print
without the directory, also where it writes over its inputs. The files that are new or different
afterwards are told by the documents alone: one for each name, of the last document of that name.
Directories are new on the way to the output directory only. A run that fails to write a file has
done this for the documents before.

* `LeavesOutput` says what stands where, and `leavesOutput_of_writeDocuments` that it does.
* `exists_of_writeDocuments_eq_some`: where the writing of documents stops.
* `Renders` says what is written, by what would be printed.
* `run_leavesOutput` puts the results together.
-/

namespace DocComments.Command

variable {o : Options} {stdin : ByteArray} {fs made written : FileSystem} {args : List Text}
  {format : Format} {directory : Path} {dir loc : Location} {d : Document} {ds : List Document}
  {name : Text} {f : Failure}

/-! ## The last document of a name -/

/-- The last of the documents that are written to the same file name. -/
def lastNamed (format : Format) (ds : List Document) (name : Text) : Option Document :=
  (ds.filter fun d => outputName format d = name).getLast?

theorem isSome_lastNamed :
    (lastNamed format ds name).isSome = true ↔ ∃ d ∈ ds, outputName format d = name := by
  rw [lastNamed, List.getLast?_isSome, ne_eq, List.filter_eq_nil_iff]
  simp

theorem exists_of_lastNamed_eq_some (h : lastNamed format ds name = some d) :
    ∃ before after, ds = before ++ d :: after ∧ outputName format d = name ∧
      ∀ d' ∈ after, outputName format d' ≠ name := by
  have hsplit := List.dropLast_append_getLast? d h
  obtain ⟨before, rest, rfl, -, hrest⟩ := List.filter_eq_append_iff.1 hsplit.symm
  obtain ⟨skipped, after, rfl, -, hname, hafter⟩ := List.filter_eq_cons_iff.1 hrest
  refine ⟨before ++ skipped, after, by simp, of_decide_eq_true hname, fun d' hd' heq => ?_⟩
  exact List.filter_eq_nil_iff.1 hafter d' hd' (decide_eq_true heq)

/-! ## What is left behind -/

/-- The documents have been written to files of the directory, which has been made with what was
missing on the way to it. -/
structure LeavesOutput (directory : Path) (format : Format) (ds : List Document)
    (fs after : FileSystem) : Prop where
  /-- Both are seen from one standpoint. -/
  standpoint_eq : after.standpoint = fs.standpoint
  /-- The directory is at its place. -/
  resolve_eq : after.resolve directory = .ok (fs.place directory)
  /-- On the way to it there are directories, where directories were or nothing. -/
  onTheWay : ∀ loc, fs.LeadsThrough directory loc → after.node? loc = some .directory ∧
    (fs.node? loc = none ∨ fs.node? loc = some .directory)
  /-- For each name of a document there is a file, of the last document of the name. -/
  last : ∀ name, (∃ d ∈ ds, outputName format d = name) →
    ∃ d, lastNamed format ds name = some d ∧
      after.node? (fs.place directory ++ [name]) = some (.file (encodeText (format.render d)))
  /-- Everything else is as it was. -/
  other : ∀ loc, ¬ fs.LeadsThrough directory loc →
    (∀ d ∈ ds, fs.place directory ++ [outputName format d] ≠ loc) →
    after.node? loc = fs.node? loc

/-- Writing documents changes nothing but the files of their names. -/
theorem node?_of_writeDocuments (hdirectory : directory ≠ [])
    (hdir : fs.resolve directory = .ok dir) (hnames : ∀ d ∈ ds, IsName (outputName format d))
    (h : writeDocuments format directory fs ds = (written, none))
    (hloc : ∀ d ∈ ds, dir ++ [outputName format d] ≠ loc) :
    written.node? loc = fs.node? loc := by
  induction ds generalizing fs with
  | nil =>
    cases h
    rfl
  | cons d ds ih =>
    obtain ⟨hname, hnames⟩ := List.forall_mem_cons.1 hnames
    obtain ⟨hfirst, hothers⟩ := List.forall_mem_cons.1 hloc
    rw [writeDocuments_cons] at h
    split at h
    · next _ hwrite =>
      obtain ⟨dir', hdir', hno, rfl⟩ := FileSystem.eq_put_of_writeFile_join hname hdirectory hwrite
      cases hdir.symm.trans hdir'
      have hext := FileSystem.extends_put (by simp) hno (.file (encodeText (format.render d)))
      have hnode := ih (hext.resolve hdir) hnames h hothers
      exact hnode.trans (FileSystem.node?_put_of_ne _ hfirst.symm)
    · cases h

/-- **Documents that are all written, to a directory that has been made.** -/
theorem leavesOutput_of_writeDocuments (hdirectory : directory ≠ [])
    (hmade : fs.MakesWay made directory) (hnames : ∀ d ∈ ds, IsName (outputName format d))
    (h : writeDocuments format directory made ds = (written, none)) :
    LeavesOutput directory format ds fs written := by
  obtain ⟨hext, hwritten⟩ :=
    writtenTo_of_writeDocuments hdirectory hmade.resolve_eq hnames h
  refine ⟨hext.standpoint_eq.trans hmade.standpoint_eq, hext.resolve hmade.resolve_eq,
    fun loc hway => ?_, fun name hname => ?_, fun loc hoff hloc => ?_⟩
  · obtain ⟨hthere, hbefore⟩ := hmade.onTheWay loc hway
    exact ⟨hext.directory loc hthere, hbefore⟩
  · obtain ⟨d, hlast⟩ := Option.isSome_iff_exists.1 (isSome_lastNamed.2 hname)
    obtain ⟨before, after, hds, rfl, hafter⟩ := exists_of_lastNamed_eq_some hlast
    exact ⟨d, hlast, hwritten.last before d after hds hafter⟩
  · have hnode := node?_of_writeDocuments hdirectory hmade.resolve_eq hnames h hloc
    exact hnode.trans (hmade.other loc hoff)

/-! ## Where the writing stops -/

/-- **A failure to write** is that of one document, and those before it have been written. -/
theorem exists_of_writeDocuments_eq_some
    (h : writeDocuments format directory fs ds = (written, some f)) :
    ∃ before d later e, ds = before ++ d :: later ∧
      writeDocuments format directory fs before = (written, none) ∧
      written.writeFile (directory.join (outputName format d)) (encodeText (format.render d)) =
        .error e ∧
      f = .unwritableFile (directory.join (outputName format d)) e := by
  induction ds generalizing fs with
  | nil => cases h
  | cons d ds ih =>
    rw [writeDocuments_cons] at h
    split at h
    · next _ hwrite =>
      obtain ⟨before, d', later, e, rfl, hbefore, hfail, rfl⟩ := ih h
      refine ⟨d :: before, d', later, e, rfl, ?_, hfail, rfl⟩
      rw [writeDocuments_cons, hwrite]
      exact hbefore
    · next e hfail =>
      cases h
      exact ⟨[], d, ds, e, rfl, rfl, hfail, rfl⟩

/-- What is left behind when the directory has been made and all documents are written. -/
theorem leavesOutput_of_writeOutput (hdirectory : directory ≠ [])
    (hnames : ∀ d ∈ ds, IsName (outputName format d))
    (h : writeOutput format directory fs ds = (written, none)) :
    LeavesOutput directory format ds fs written := by
  unfold writeOutput at h
  split at h
  · cases h
  · next made hmake =>
    have hmade := FileSystem.makesWay_of_makeDirectories hdirectory hmake
    exact leavesOutput_of_writeDocuments hdirectory hmade hnames h

/-- What is left behind when a document cannot be written. -/
theorem leavesOutput_of_writeOutput_eq_some {path : Path} {e : SystemError}
    (hdirectory : directory ≠ []) (hnames : ∀ d ∈ ds, IsName (outputName format d))
    (h : writeOutput format directory fs ds = (written, some (.unwritableFile path e))) :
    ∃ before d later, ds = before ++ d :: later ∧
      path = directory.join (outputName format d) ∧
      written.writeFile path (encodeText (format.render d)) = .error e ∧
      LeavesOutput directory format before fs written := by
  unfold writeOutput at h
  split at h
  · cases h
  · next made hmake =>
    have hmade := FileSystem.makesWay_of_makeDirectories hdirectory hmake
    obtain ⟨before, d, later, e, rfl, hbefore, hfail, heq⟩ := exists_of_writeDocuments_eq_some h
    cases heq
    refine ⟨before, d, later, rfl, rfl, hfail, ?_⟩
    exact leavesOutput_of_writeDocuments hdirectory hmade
      (fun d' hd' => hnames d' (List.mem_append_left _ hd')) hbefore

/-! ## The run -/

/-- What keeps a run from its output is not the output. -/
theorem Blocked.ne_unwritableFile {path : Path} {e : SystemError} (h : Blocked o stdin fs f) :
    f ≠ .unwritableFile path e := by
  cases h with
  | inputs hfailure =>
    cases hfailure with
    | input _ hread =>
      obtain ⟨_, -, rfl⟩ := readInput_eq_error_iff.1 hread
      nofun
    | argument _ hfirst =>
      obtain ⟨_, _, _, -, harg, -⟩ := hfirst
      cases filesOf_eq_error_iff.1 harg with
      | directory => nofun
      | pattern => nofun
    | file _ _ hfirst =>
      obtain ⟨_, _, _, -, hfile, -⟩ := hfirst
      obtain ⟨_, -, rfl⟩ := readDocument_eq_error_iff.1 hfile
      nofun
  | tag => nofun
  | format => nofun

/-- A run that nothing keeps from it renders the documents, which are in the order of their
sources, and prints them unless it has a directory to write to. -/
structure Renders (o : Options) (stdin : ByteArray) (fs : FileSystem) (format : Format)
    (ds : List Document) : Prop where
  /-- The format is that of the options. -/
  format_eq : Format.ofName? o.format = some format
  /-- The documents are those of the inputs. -/
  inputs_eq : (inputs o stdin fs).2 = .ok ds
  /-- Each comes after those whose sources come before its own. -/
  sorted : ds.Pairwise fun d d' => Path.compare d.source d'.source = .lt
  /-- The same options without a directory can be asked for. -/
  parse_eq : Options.parse { o with output := none }.arguments = .ok { o with output := none }
  /-- However they are asked for, the run prints the documents and changes nothing. -/
  run_eq : ∀ args, Options.parse args = .ok { o with output := none } →
    run args stdin fs = ⟨.success, ds.flatMap format.render, (inputs o stdin fs).1, fs⟩

/-- The documents of the inputs are in the order of their sources. -/
theorem pairwise_compare_source_of_inputs (h : (inputs o stdin fs).2 = .ok ds) :
    ds.Pairwise fun d d' => Path.compare d.source d'.source = .lt := by
  by_cases hfiles : o.files = []
  · rw [inputs_of_files_eq_nil hfiles] at h
    obtain ⟨d, -, rfl⟩ := map_eq_ok_iff.1 h
    exact List.pairwise_singleton _ d
  · rw [inputs_of_files_ne_nil hfiles] at h
    obtain ⟨files, hexpand, hread⟩ := bind_eq_ok_iff.1 h
    exact List.pairwise_map.1
      (((pairwise_of_expand hexpand).imp And.left).sublist (map_source_sublist hread))

theorem renders_of_inputs (hparse : Options.parse args = .ok o) (hkey : o.key = none)
    (htexts : o.texts = false) (hinputs : (inputs o stdin fs).2 = .ok ds)
    (hmet : ∀ r ∈ demands ds o.require, r.Met)
    (hformat : Format.ofName? o.format = some format) : Renders o stdin fs format ds := by
  refine ⟨hformat, hinputs, pairwise_compare_source_of_inputs hinputs, ?_, fun args' hparse' => ?_⟩
  · exact Options.parse_arguments ⟨nofun, (Options.consistent_of_parse hparse).not_both⟩
  · have hsame : inputs { o with output := none } stdin fs = inputs o stdin fs := rfl
    rw [run_of_parse hparse', runOptions_of_inputs_eq_ok (hsame ▸ hinputs),
      checkRequired_eq_ok_iff.2 hmet, hsame]
    simp [emit, hkey, htexts, hformat]

/-- A run that is to write to a directory is kept from it, or it ends as the writing does. -/
theorem blocked_or_writes (hparse : Options.parse args = .ok o) (hkey : o.key = none)
    (htexts : o.texts = false) (houtput : o.output = some directory) (stdin : ByteArray)
    (fs : FileSystem) :
    (∃ f, Blocked o stdin fs f) ∨ ∃ format ds, Renders o stdin fs format ds ∧
      run args stdin fs = ⟨(writeOutput format directory fs ds).2.elim .success .failure, [],
        (inputs o stdin fs).1, (writeOutput format directory fs ds).1⟩ := by
  by_cases hblocked : ∃ f, Blocked o stdin fs f
  · exact .inl hblocked
  right
  cases hinputs : (inputs o stdin fs).2 with
  | error f => exact absurd ⟨f, .inputs (inputs_eq_error_iff.1 hinputs)⟩ hblocked
  | ok ds =>
    cases hcheck : checkRequired ds o.require with
    | error f =>
      obtain ⟨_, _, _, hdemands, ⟨hr, -⟩, hbefore⟩ := checkRequired_eq_error_iff.1 hcheck
      exact absurd ⟨_, .tag hinputs hdemands hbefore hr⟩ hblocked
    | ok =>
      have hmet := checkRequired_eq_ok_iff.1 hcheck
      cases hformat : Format.ofName? o.format with
      | none => exact absurd ⟨_, .format hinputs hmet hkey htexts hformat⟩ hblocked
      | some format =>
        refine ⟨format, ds, renders_of_inputs hparse hkey htexts hinputs hmet hformat, ?_⟩
        rw [run_of_parse hparse, runOptions_of_inputs_eq_ok hinputs, hcheck]
        simp only [emit, hkey, htexts, houtput, hformat]
        rcases writeOutput format directory fs ds with ⟨written, _ | f⟩ <;> rfl

/-- **What a run with an output directory leaves behind.** It prints nothing. If it succeeds, it has
made the directory, with what was missing on the way to it, and has written to it what the same run
would print without the directory: for each name, the last document of that name. It has changed
nothing else. If a document cannot be written, it has done this with exactly the documents before
it. -/
theorem run_leavesOutput (htree : fs.IsTree) (hparse : Options.parse args = .ok o)
    (hkey : o.key = none) (htexts : o.texts = false) (houtput : o.output = some directory) :
    ((run args stdin fs).ending = .success → (run args stdin fs).stdout = [] ∧
      ∃ format ds, Renders o stdin fs format ds ∧
        LeavesOutput directory format ds fs (run args stdin fs).files) ∧
    ∀ path e, (run args stdin fs).ending = .failure (.unwritableFile path e) →
      (run args stdin fs).stdout = [] ∧
      ∃ format before d later, Renders o stdin fs format (before ++ d :: later) ∧
        path = directory.join (outputName format d) ∧
        (run args stdin fs).files.writeFile path (encodeText (format.render d)) = .error e ∧
        LeavesOutput directory format before fs (run args stdin fs).files := by
  have hdirectory : directory ≠ [] := fun hnil =>
    Options.output_ne_nil_of_parse hparse (houtput.trans (congrArg some hnil))
  rcases blocked_or_writes hparse hkey htexts houtput stdin fs with
    ⟨f, hblocked⟩ | ⟨format, ds, hrenders, hrun⟩
  · rw [run_of_parse hparse, runOptions_of_blocked hblocked]
    refine ⟨nofun, fun path e hending => ?_⟩
    cases hending
    exact absurd rfl hblocked.ne_unwritableFile
  · have hnames : ∀ d ∈ ds, IsName (outputName format d) := fun d hd =>
      isName_outputName (fileName?_isSome_of_inputs htree hrenders.inputs_eq hd)
    rw [hrun]
    cases hwrite : writeOutput format directory fs ds with
    | mk written failure =>
      cases failure with
      | none =>
        exact ⟨fun _ => ⟨rfl, format, ds, hrenders,
          leavesOutput_of_writeOutput hdirectory hnames hwrite⟩, nofun⟩
      | some f =>
        refine ⟨nofun, fun path e hending => ⟨rfl, ?_⟩⟩
        cases hending
        obtain ⟨before, d, later, rfl, hpath, hfail, hleaves⟩ :=
          leavesOutput_of_writeOutput_eq_some hdirectory hnames hwrite
        exact ⟨format, before, d, later, hrenders, hpath, hfail, hleaves⟩

/-- A document is written over the file that it is read from, and then another cannot be written,
since there is a directory of the name. -/
theorem run_leavesOutput_over_input :
    let fs : FileSystem := ⟨[(["a.txt"].map String.toList, .file (encodeText "/** a */".toList)),
      (["b.txt"].map String.toList, .directory),
      (["b.php"].map String.toList, .file (encodeText "/** b */".toList))], ⟨[], []⟩⟩
    let one := ["-o", ".", "-f", "text", "a.txt"].map String.toList
    let two := ["-o", ".", "-f", "text", "a.txt", "b.php"].map String.toList
    let printed := (run (["-f", "text", "a.txt"].map String.toList) .empty fs).stdout
    (run one .empty fs).ending = .success ∧
      (run one .empty fs).files.node? ["a.txt".toList] = some (.file (encodeText printed)) ∧
      (run two .empty fs).ending = .failure (.unwritableFile "./b.txt".toList .isDirectory) ∧
      (run two .empty fs).files.node? ["a.txt".toList] = some (.file (encodeText printed)) := by
  intro fs one two printed
  let o : Options := ⟨["a.txt"].map String.toList, some ".".toList, "text".toList, none, false, []⟩
  let o' : Options := ⟨["a.txt", "b.php"].map String.toList, some ".".toList, "text".toList, none,
    false, []⟩
  let a : Document := ⟨"a.txt".toList, [⟨1, "/** a\n */".toList, none⟩]⟩
  let b : Document := ⟨"b.php".toList, [⟨1, "/** b\n */".toList, none⟩]⟩
  have htree : fs.IsTree := by decide +kernel
  have hparse : Options.parse one = .ok o := eq_ok_of_toOption (by decide +kernel)
  have hparse' : Options.parse two = .ok o' := eq_ok_of_toOption (by decide +kernel)
  have hinputs : (inputs o .empty fs).2 = .ok [a] := by
    have hgather : (gather fs o.files).2 = .ok o.files := eq_ok_of_toOption (by decide +kernel)
    rw [inputs_eq_readDocuments (by decide) hgather (by decide)]
    exact eq_ok_of_toOption (by decide +kernel)
  have hinputs' : (inputs o' .empty fs).2 = .ok [a, b] := by
    have hgather : (gather fs o'.files).2 = .ok o'.files := eq_ok_of_toOption (by decide +kernel)
    rw [inputs_eq_readDocuments (by decide) hgather (by decide)]
    exact eq_ok_of_toOption (by decide +kernel)
  have hrun : (run one .empty fs).ending = .success := by
    rw [run_of_parse hparse, runOptions_of_inputs_eq_ok hinputs]
    decide +kernel
  have hrun' : (run two .empty fs).ending =
      .failure (.unwritableFile "./b.txt".toList .isDirectory) := by
    rw [run_of_parse hparse', runOptions_of_inputs_eq_ok hinputs']
    decide +kernel
  have htext : Format.ofName? "text".toList = some .plain := by decide
  have hnamed : outputName .plain a = "a.txt".toList := by decide
  have hlast : lastNamed .plain [a] "a.txt".toList = some a := by decide
  obtain ⟨-, format, ds, hrenders, hleaves⟩ :=
    (run_leavesOutput htree hparse rfl rfl rfl).1 hrun
  cases htext.symm.trans hrenders.format_eq
  cases hinputs.symm.trans hrenders.inputs_eq
  have hprinted : printed = Document.plain a := by
    have hprints := hrenders.run_eq (["-f", "text", "a.txt"].map String.toList)
      (eq_ok_of_toOption (by decide +kernel))
    exact (congrArg Outcome.stdout hprints).trans (List.append_nil _)
  have hfile : ∀ after, LeavesOutput ".".toList .plain [a] fs after →
      after.node? ["a.txt".toList] = some (.file (encodeText printed)) := by
    intro after h
    obtain ⟨d, hd, hfile⟩ := h.last "a.txt".toList ⟨a, List.mem_singleton_self a, hnamed⟩
    cases hlast.symm.trans hd
    exact hprinted ▸ hfile
  obtain ⟨-, format', before, d, later, hrenders', hpath, -, hleaves'⟩ :=
    (run_leavesOutput htree hparse' rfl rfl rfl).2 _ _ hrun'
  cases htext.symm.trans hrenders'.format_eq
  have hds := Except.ok.inj (hinputs'.symm.trans hrenders'.inputs_eq)
  obtain rfl : before = [a] := by
    rcases before with _ | ⟨first, _ | ⟨second, rest⟩⟩
    · cases hds
      exact absurd hpath (by decide)
    · cases hds
      rfl
    · simp at hds
  exact ⟨hrun, hfile _ hleaves, hrun', hfile _ hleaves'⟩

end DocComments.Command
