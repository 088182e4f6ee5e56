import DocComments.Proofs.Command.Arguments
import DocComments.Proofs.Command.Output
import DocComments.Proofs.Command.Print

/-!
# Files are processed independently

Without a directory to write to, a run on files does for each of them what a run on that file alone
does: it reads the file, drops it if there is no doc comment in it, checks the tags that comments
must have, and prints. The format, or the look-up, is the same for all of them.

* `expand_singleton`: a file expands to itself.
* `runOptions_success_iff_readDocument` is the run on any number of files, and
  `onFile_success_iff` that on one of them.
* `run_files` puts the two together.
-/

namespace DocComments.Command

variable {o : Options} {stdin : ByteArray} {fs : FileSystem} {args : List Text} {arg : Text}
  {f : Path} {files paths : List Path} {ds : List Document} {out : Text}

/-! ## Files of the arguments -/

theorem expand_singleton (h : fs.hasFile f = true) : (expand fs [f]).2 = .ok [f] := by
  have hfiles : filesOf fs f = .ok [f] := by
    rw [filesOf, if_pos h]
  have hexpand : (expand fs [f]).2 = (gather fs [f]).2.map Path.sortDistinct := rfl
  have hsorted : Path.sortDistinct [f] = [f] := by
    rw [Path.sortDistinct_eq_keepFirsts (List.pairwise_singleton ..)]
    rfl
  rw [hexpand, gather_snd, List.mapM_cons, hfiles]
  exact congrArg Except.ok hsorted

/-! ## One file -/

/-- The same options for one file. -/
def Options.onFile (o : Options) (f : Path) : Options :=
  { o with files := [f] }

/-- The document, if there is a doc comment in it. -/
def keptOf (d : Document) : List Document :=
  [d].filter (!·.comments.isEmpty)

theorem readDocuments_eq_ok_iff :
    readDocuments fs files = .ok ds ↔
      ∃ all, files.mapM (readDocument fs) = .ok all ∧ all.flatMap keptOf = ds := by
  have hkept (all : List Document) : all.flatMap keptOf = all.filter (!·.comments.isEmpty) := by
    induction all with
    | nil => rfl
    | cons d all ih =>
      rw [List.flatMap_cons, ih, keptOf, ← List.filter_append, List.singleton_append]
  rw [readDocuments, map_eq_ok_iff]
  simp only [hkept]

theorem forall_demands_flatMap_iff {all : List Document} {keys : List Text} :
    (∀ r ∈ demands (all.flatMap keptOf) keys, r.Met) ↔
      ∀ d ∈ all, ∀ r ∈ demands (keptOf d) keys, r.Met := by
  have hdemands : demands (all.flatMap keptOf) keys =
      all.flatMap fun d => demands (keptOf d) keys :=
    List.flatMap_assoc ..
  rw [hdemands, List.forall_mem_flatMap]

/-- **A run on files, read from one file after the other.** -/
theorem runOptions_success_iff_readDocument (hprints : o.Prints) (hfiles : o.files ≠ [])
    (hexpand : (expand fs o.files).2 = .ok files) :
    (runOptions o stdin fs).ending = .success ∧ (runOptions o stdin fs).stdout = out ↔
      ∃ all print, files.mapM (readDocument fs) = .ok all ∧
        (∀ d ∈ all, ∀ r ∈ demands (keptOf d) o.require, r.Met) ∧ o.print? = some print ∧
        (all.flatMap fun d => (keptOf d).flatMap print) = out := by
  have hinputs : (inputs o stdin fs).2 = readDocuments fs files := by
    rw [inputs_of_files_ne_nil hfiles, hexpand]
    rfl
  rw [runOptions_success_iff hprints, hinputs]
  simp only [readDocuments_eq_ok_iff]
  constructor
  · rintro ⟨_, print, ⟨all, hall, rfl⟩, hmet, hprint, hout⟩
    rw [List.flatMap_assoc] at hout
    exact ⟨all, print, hall, forall_demands_flatMap_iff.1 hmet, hprint, hout⟩
  · rintro ⟨all, print, hall, hmet, hprint, hout⟩
    rw [← List.flatMap_assoc] at hout
    exact ⟨_, print, ⟨all, hall, rfl⟩, forall_demands_flatMap_iff.2 hmet, hprint, hout⟩

theorem onFile_success_iff (hprints : o.Prints) (hf : fs.hasFile f = true) :
    (runOptions (o.onFile f) stdin fs).ending = .success ∧
        (runOptions (o.onFile f) stdin fs).stdout = out ↔
      ∃ d print, readDocument fs f = .ok d ∧ (∀ r ∈ demands (keptOf d) o.require, r.Met) ∧
        o.print? = some print ∧ (keptOf d).flatMap print = out := by
  have hread (all : List Document) : [f].mapM (readDocument fs) = .ok all ↔
      ∃ d, readDocument fs f = .ok d ∧ [d] = all := by
    rw [List.mapM_cons]
    cases readDocument fs f <;> simp [bind, Except.bind, pure, Except.pure]
  have hone : (o.onFile f).Prints := hprints
  rw [runOptions_success_iff_readDocument hone (List.cons_ne_nil f []) (expand_singleton hf)]
  constructor
  · rintro ⟨all, print, hall, hmet, hprint, hout⟩
    obtain ⟨d, hd, rfl⟩ := (hread all).1 hall
    rw [List.flatMap_singleton] at hout
    exact ⟨d, print, hd, hmet d (List.mem_singleton_self d), hprint, hout⟩
  · rintro ⟨d, print, hd, hmet, hprint, hout⟩
    rw [← List.flatMap_singleton (fun d => (keptOf d).flatMap print)] at hout
    refine ⟨[d], print, (hread [d]).2 ⟨d, hd, rfl⟩, ?_, hprint, hout⟩
    exact List.forall_mem_singleton.2 hmet

/-! ## All files -/

/-- What a run on files that succeeds does for one of them. -/
theorem onFile_of_success (hprints : o.Prints) (hfiles : o.files ≠ [])
    (hexpand : (expand fs o.files).2 = .ok files)
    (hrun : (runOptions o stdin fs).ending = .success) :
    (∀ f ∈ files, (runOptions (o.onFile f) stdin fs).ending = .success) ∧
      (runOptions o stdin fs).stdout =
        files.flatMap fun f => (runOptions (o.onFile f) stdin fs).stdout := by
  obtain ⟨all, print, hall, hmet, hprint, hout⟩ :=
    (runOptions_success_iff_readDocument hprints hfiles hexpand).1 ⟨hrun, rfl⟩
  have honFile : ∀ f ∈ files, ∀ d, readDocument fs f = .ok d →
      (runOptions (o.onFile f) stdin fs).ending = .success ∧
        (runOptions (o.onFile f) stdin fs).stdout = (keptOf d).flatMap print := by
    intro f hf d hd
    obtain ⟨d', hmem, hd'⟩ := exists_mem_of_mapM_eq_ok hall hf
    cases hd.symm.trans hd'
    exact (onFile_success_iff hprints (hasFile_of_expand hexpand hf)).2
      ⟨d, print, hd, hmet d hmem, hprint, rfl⟩
  constructor
  · intro f hf
    obtain ⟨d, -, hd⟩ := exists_mem_of_mapM_eq_ok hall hf
    exact (honFile f hf d hd).1
  · rw [← hout]
    exact (flatMap_of_mapM_eq_ok hall fun f hf d hd => (honFile f hf d hd).2).symm

theorem success_of_forall_onFile (hprints : o.Prints) (hfiles : o.files ≠ [])
    (hexpand : (expand fs o.files).2 = .ok files) (hne : files ≠ [])
    (hruns : ∀ f ∈ files, (runOptions (o.onFile f) stdin fs).ending = .success) :
    (runOptions o stdin fs).ending = .success := by
  have honFile : ∀ f ∈ files, ∃ d print, readDocument fs f = .ok d ∧
      (∀ r ∈ demands (keptOf d) o.require, r.Met) ∧ o.print? = some print ∧
      (keptOf d).flatMap print = (runOptions (o.onFile f) stdin fs).stdout := fun f hf =>
    (onFile_success_iff hprints (hasFile_of_expand hexpand hf)).1 ⟨hruns f hf, rfl⟩
  obtain ⟨f, hf⟩ := List.exists_mem_of_ne_nil files hne
  obtain ⟨-, print, -, -, hprint, -⟩ := honFile f hf
  cases hall : files.mapM (readDocument fs) with
  | error e =>
    obtain ⟨f, hf, e', herror⟩ := exists_failsFirst_iff.1 ⟨e, mapM_eq_error_iff.1 hall⟩
    obtain ⟨d, -, hd, -⟩ := honFile f hf
    cases herror.symm.trans hd
  | ok all =>
    refine ((runOptions_success_iff_readDocument hprints hfiles hexpand).2
      ⟨all, print, hall, fun d hd => ?_, hprint, rfl⟩).1
    obtain ⟨f, hf, hread⟩ := exists_of_mem_of_mapM_eq_ok hall hd
    obtain ⟨d', -, hread', hmet, -⟩ := honFile f hf
    cases hread.symm.trans hread'
    exact hmet

/-- A file without doc comments adds nothing to the output. -/
theorem stdout_onFile_of_scan_eq_nil (hprints : o.Prints) (hf : fs.hasFile f = true)
    {content : Text} (hread : fs.readText f = .ok content) (hscan : Comment.scan content = []) :
    (runOptions (o.onFile f) stdin fs).stdout = [] := by
  have hinputs : (inputs (o.onFile f) stdin fs).2 = .ok [] := by
    have hfiles : (o.onFile f).files ≠ [] := List.cons_ne_nil f []
    have hdocument := readDocument_eq_ok_iff.2 ⟨content, hread, rfl⟩
    have hempty : keptOf (.extract f content) = [] := by
      simp [keptOf, Document.extract, hscan]
    rw [inputs_of_files_ne_nil hfiles, Options.onFile, expand_singleton hf]
    refine readDocuments_eq_ok_iff.2 ⟨[.extract f content], ?_, ?_⟩
    · rw [List.mapM_cons, hdocument]
      rfl
    · rw [List.flatMap_singleton, hempty]
  have hone : (o.onFile f).Prints := hprints
  have hcheck : checkRequired [] (o.onFile f).require = .ok () := rfl
  rw [runOptions_of_inputs_eq_ok hinputs, hcheck, emit_of_prints hone]
  cases (o.onFile f).print? <;> rfl

/-- **Files are processed independently.** A run that prints and is given files, in whatever way,
succeeds exactly if the run on each of them succeeds, with the same options; it then prints what
these print, one after the other. Such arguments for one file can always be written, and a file
without a doc comment adds nothing. -/
theorem run_files (hparse : Options.parse args = .ok o) (houtput : o.output = none)
    (hexpand : (expand fs o.files).2 = .ok files) (hne : files ≠ []) (stdin : ByteArray) :
    (∀ f, Options.parse (o.onFile f).arguments = .ok (o.onFile f)) ∧
      ∀ alone : Path → List Text, (∀ f ∈ files, Options.parse (alone f) = .ok (o.onFile f)) →
        ((run args stdin fs).ending = .success ↔
          ∀ f ∈ files, (run (alone f) stdin fs).ending = .success) ∧
        ((run args stdin fs).ending = .success →
          (run args stdin fs).stdout = files.flatMap fun f => (run (alone f) stdin fs).stdout) ∧
        ∀ f ∈ files, ∀ content, fs.readText f = .ok content → Comment.scan content = [] →
          (run (alone f) stdin fs).stdout = [] := by
  have hprints : o.Prints := .inr houtput
  have hfiles : o.files ≠ [] := by
    intro hnil
    rw [hnil] at hexpand
    have hempty : Path.sortDistinct [] = [] := Path.sortDistinct_eq_keepFirsts .nil
    exact hne ((Except.ok.inj hexpand).symm.trans hempty)
  constructor
  · intro f
    have hconsistent := Options.consistent_of_parse hparse
    exact Options.parse_arguments ⟨hconsistent.output_ne_nil, hconsistent.not_both⟩
  · intro alone halone
    have hruns : ∀ f ∈ files, run (alone f) stdin fs = runOptions (o.onFile f) stdin fs :=
      fun f hf => run_of_parse (halone f hf)
    rw [run_of_parse hparse]
    refine ⟨⟨fun hrun f hf => ?_, fun hrun => ?_⟩, fun hrun => ?_, ?_⟩
    · rw [hruns f hf]
      exact (onFile_of_success hprints hfiles hexpand hrun).1 f hf
    · refine success_of_forall_onFile hprints hfiles hexpand hne fun f hf => ?_
      rw [← hruns f hf]
      exact hrun f hf
    · rw [(onFile_of_success hprints hfiles hexpand hrun).2]
      exact List.flatMap_congr fun f hf => by rw [hruns f hf]
    · intro f hf content hread hscan
      rw [hruns f hf]
      exact stdout_onFile_of_scan_eq_nil hprints (hasFile_of_expand hexpand hf) hread hscan

/-- Two files are named, and in the second there is no doc comment. -/
theorem run_files_two :
    let fs : FileSystem := ⟨[(["a.php"].map String.toList, .file (encodeText "/** a */".toList)),
      (["b.php"].map String.toList, .file (encodeText "b".toList))], ⟨[], []⟩⟩
    let args := ["-f", "text", "a.php", "b.php"].map String.toList
    let first := ["-f", "text", "a.php"].map String.toList
    let second := ["-f", "text", "b.php"].map String.toList
    (run args .empty fs).ending = .success ∧ (run second .empty fs).ending = .success ∧
      (run args .empty fs).stdout = (run first .empty fs).stdout ++ (run second .empty fs).stdout ∧
      (run second .empty fs).stdout = [] := by
  intro fs args first second
  let o : Options := ⟨["a.php", "b.php"].map String.toList, none, "text".toList, none, false, []⟩
  have hparse : Options.parse args = .ok o := eq_ok_of_toOption (by decide +kernel)
  have hgather : (gather fs o.files).2 = .ok o.files := eq_ok_of_toOption (by decide +kernel)
  have hexpand : (expand fs o.files).2 = .ok o.files := by
    change (gather fs o.files).2.map Path.sortDistinct = _
    rw [hgather]
    change Except.ok (Path.sortDistinct o.files) = _
    rw [Path.sortDistinct_eq_keepFirsts (by decide)]
    rfl
  let alone (f : Path) : List Text := ["-f".toList, "text".toList, f]
  have hmem {f : Path} (hf : f ∈ o.files) : f = "a.php".toList ∨ f = "b.php".toList := by
    simpa [o] using hf
  have halone : ∀ f ∈ o.files, Options.parse (alone f) = .ok (o.onFile f) := by
    intro f hf
    obtain rfl | rfl := hmem hf
    · exact eq_ok_of_toOption (by decide +kernel)
    · exact eq_ok_of_toOption (by decide +kernel)
  have hruns : ∀ f ∈ o.files, (run (alone f) .empty fs).ending = .success := by
    intro f hf
    obtain rfl | rfl := hmem hf
    · decide +kernel
    · decide +kernel
  obtain ⟨hsuccess, hstdout, hempty⟩ :=
    (run_files hparse rfl hexpand (by decide) .empty).2 alone halone
  have hrun := hsuccess.2 hruns
  have hread : fs.readText "b.php".toList = .ok "b".toList := eq_ok_of_toOption (by decide +kernel)
  refine ⟨hrun, hruns _ (by decide), ?_, hempty _ (by decide) _ hread (by decide +kernel)⟩
  rw [hstdout hrun]
  exact congrArg (_ ++ ·) (List.append_nil _)

end DocComments.Command
