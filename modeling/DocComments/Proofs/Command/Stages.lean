import DocComments.Command.Run
import DocComments.Proofs.Command.Options
import DocComments.Proofs.Files.Read
import DocComments.Proofs.FirstFailure

/-!
# Runs that end before the output

A run reads its inputs, checks the tags that its comments must have, and looks the format up, in
this order. What keeps one of these stages from being done ends the run, and nothing has been
printed or written by then.

* `ArgumentFailure`, `InputFailure` and `Blocked` say with which failure these stages end, each by
  its first cause; `filesOf_eq_error_iff`, `inputs_eq_error_iff` and `checkRequired_eq_error_iff`
  find the causes in the stages.
* `IsInvalid` and `Unreadable` say when an argument or an input has such a failure, by what stands
  in the file system and what of it can be read.
* `runOptions_of_blocked`: such a run leaves nothing behind, and `exists_blocked_iff` says when a
  run is such a run.
-/

namespace DocComments.Command

variable {o : Options} {stdin : ByteArray} {fs : FileSystem} {f : Failure} {args : List Text}
  {arg : Text} {p : Path} {paths : List Path} {ds : List Document} {keys : List Text}

/-! ## Arguments -/

/-- The failure of an argument that cannot be expanded to files. -/
inductive ArgumentFailure (fs : FileSystem) (arg : Text) : Failure → Prop where
  /-- It is a directory that cannot be listed. -/
  | directory {e : SystemError} (hdirectory : fs.hasDirectory arg = true)
      (he : fs.names arg = .error e) : ArgumentFailure fs arg (.unreadableDirectory arg e)
  /-- It is neither a file nor a directory, and no pattern. -/
  | pattern {e : PatternError} (hfile : fs.hasFile arg = false)
      (hdirectory : fs.hasDirectory arg = false) (he : Pattern.parse arg = .error e) :
      ArgumentFailure fs arg (.badPattern arg e)

theorem filesOf_eq_error_iff : filesOf fs arg = .error f ↔ ArgumentFailure fs arg f := by
  constructor
  · intro h
    unfold filesOf at h
    split at h
    · cases h
    split at h
    · next hdirectory =>
      split at h
      · next e he =>
        cases h
        exact .directory hdirectory he
      · cases h
    · next hfile hdirectory =>
      split at h
      · next e he =>
        cases h
        exact .pattern (by simpa using hfile) (by simpa using hdirectory) he
      · cases h
  · intro h
    cases h with
    | directory hdirectory he => simp [filesOf, FileSystem.hasFile_eq_false, hdirectory, he]
    | pattern hfile hdirectory he => simp [filesOf, hfile, hdirectory, he]

/-- The argument cannot be expanded to files. -/
inductive IsInvalid (fs : FileSystem) (arg : Text) : Prop where
  /-- It is a directory that cannot be listed. -/
  | directory {loc : Location} (hloc : fs.resolve arg = .ok loc)
      (hdirectory : fs.node? loc = some .directory) (hclosed : fs.isClosed loc = true)
  /-- It is neither a file nor a directory, and no pattern. -/
  | pattern {e : PatternError} (hfile : fs.hasFile arg = false)
      (hdirectory : fs.hasDirectory arg = false) (he : Pattern.parse arg = .error e)

/-- **When an argument cannot be expanded.** -/
theorem exists_argumentFailure_iff : (∃ f, ArgumentFailure fs arg f) ↔ IsInvalid fs arg := by
  constructor
  · rintro ⟨f, hf⟩
    cases hf with
    | directory hdirectory he =>
      obtain ⟨loc, hloc, hclosed, -⟩ := (FileSystem.names_eq_error_iff hdirectory).1 he
      obtain ⟨loc', hloc', hnode⟩ := FileSystem.hasDirectory_iff.1 hdirectory
      cases hloc.symm.trans hloc'
      exact .directory hloc hnode hclosed
    | pattern hfile hdirectory he => exact .pattern hfile hdirectory he
  · intro h
    cases h with
    | directory hloc hnode hclosed =>
      have hdirectory := FileSystem.hasDirectory_iff.2 ⟨_, hloc, hnode⟩
      exact ⟨_, .directory hdirectory
        ((FileSystem.names_eq_error_iff hdirectory).2 ⟨_, hloc, hclosed, rfl⟩)⟩
    | pattern hfile hdirectory he => exact ⟨_, .pattern hfile hdirectory he⟩

theorem hasFile_of_filesOf (h : filesOf fs arg = .ok paths) (hp : p ∈ paths) :
    fs.hasFile p = true := by
  unfold filesOf at h
  split at h
  · next hfile =>
    cases h
    rwa [List.mem_singleton.1 hp]
  split at h
  · split at h
    · cases h
    · cases h
      have hkept := List.of_mem_filter hp
      rw [Bool.and_eq_true] at hkept
      exact hkept.1
  · split at h
    · cases h
    · cases h
      exact List.of_mem_filter hp

/-- The files of all arguments, one argument after the other. -/
theorem gather_snd (fs : FileSystem) (args : List Text) :
    (gather fs args).2 = (args.mapM (filesOf fs)).map List.flatten := by
  induction args with
  | nil => rfl
  | cons arg args ih =>
    rw [gather, List.mapM_cons]
    cases filesOf fs arg with
    | error e => rfl
    | ok paths =>
      change (gather fs args).2.map (paths ++ ·) = _
      rw [ih]
      cases args.mapM (filesOf fs) <;> rfl

theorem expand_eq_error_iff :
    (expand fs args).2 = .error f ↔ FailsFirst (filesOf fs) args f := by
  change (gather fs args).2.map Path.sortDistinct = _ ↔ _
  rw [gather_snd, map_eq_error_iff, map_eq_error_iff, mapM_eq_error_iff]

/-- **Expanding arguments fails exactly if one of them is invalid.** -/
theorem exists_expand_eq_error_iff :
    (∃ f, (expand fs args).2 = .error f) ↔ ∃ arg ∈ args, IsInvalid fs arg := by
  simp only [expand_eq_error_iff, exists_failsFirst_iff, filesOf_eq_error_iff,
    exists_argumentFailure_iff]

/-- **Arguments stand for files.** -/
theorem hasFile_of_expand (h : (expand fs args).2 = .ok paths) (hp : p ∈ paths) :
    fs.hasFile p = true := by
  have hexpand : (expand fs args).2 = (gather fs args).2.map Path.sortDistinct := rfl
  rw [hexpand, gather_snd] at h
  obtain ⟨all, hall, rfl⟩ := map_eq_ok_iff.1 h
  obtain ⟨pathss, hpathss, rfl⟩ := map_eq_ok_iff.1 hall
  have hmem := List.mem_mergeSort.1 (Path.mem_of_mem_keepFirsts hp)
  obtain ⟨paths, hin, hp⟩ := List.mem_flatten.1 hmem
  obtain ⟨arg, -, harg⟩ := exists_of_mem_of_mapM_eq_ok hpathss hin
  exact hasFile_of_filesOf harg hp

/-! ## Inputs -/

theorem readInput_eq_error_iff :
    readInput stdin = .error f ↔ ∃ e, decodeText stdin = .error e ∧ f = .unreadableInput e := by
  unfold readInput
  cases decodeText stdin <;> simp [eq_comm]

theorem readDocument_eq_error_iff {p : Path} :
    readDocument fs p = .error f ↔ ∃ e, fs.readText p = .error e ∧ f = .unreadableFile p e := by
  unfold readDocument
  cases fs.readText p <;> simp [eq_comm]

theorem readDocuments_eq_error_iff :
    readDocuments fs paths = .error f ↔ FailsFirst (readDocument fs) paths f := by
  rw [readDocuments, map_eq_error_iff, mapM_eq_error_iff]

theorem inputs_of_files_eq_nil (h : o.files = []) :
    (inputs o stdin fs).2 = (readInput stdin).map ([·]) := by
  simp [inputs, h]

theorem inputs_of_files_ne_nil (h : o.files ≠ []) :
    (inputs o stdin fs).2 = (expand fs o.files).2.bind (readDocuments fs) := by
  simp [inputs, h]

/-- The failure that reading the inputs ends with. -/
inductive InputFailure (o : Options) (stdin : ByteArray) (fs : FileSystem) : Failure → Prop where
  /-- Standard input is no text. -/
  | input {f : Failure} (hfiles : o.files = []) (hread : readInput stdin = .error f) :
      InputFailure o stdin fs f
  /-- An argument cannot be expanded, the first such argument. -/
  | argument {f : Failure} (hfiles : o.files ≠ [])
      (hfirst : FailsFirst (filesOf fs) o.files f) : InputFailure o stdin fs f
  /-- A file is closed or no text, the first such file of all arguments. -/
  | file {paths : List Path} {f : Failure} (hfiles : o.files ≠ [])
      (hpaths : (expand fs o.files).2 = .ok paths)
      (hfirst : FailsFirst (readDocument fs) paths f) : InputFailure o stdin fs f

/-- **How reading the inputs fails.** -/
theorem inputs_eq_error_iff : (inputs o stdin fs).2 = .error f ↔ InputFailure o stdin fs f := by
  by_cases hfiles : o.files = []
  · rw [inputs_of_files_eq_nil hfiles, map_eq_error_iff]
    constructor
    · exact .input hfiles
    · intro h
      cases h with
      | input _ hread => exact hread
      | argument hne _ => exact absurd hfiles hne
      | file hne _ _ => exact absurd hfiles hne
  · rw [inputs_of_files_ne_nil hfiles, bind_eq_error_iff, expand_eq_error_iff]
    simp only [readDocuments_eq_error_iff]
    constructor
    · rintro (hfirst | ⟨paths, hpaths, hfirst⟩)
      · exact .argument hfiles hfirst
      · exact .file hfiles hpaths hfirst
    · intro h
      cases h with
      | input hnil _ => exact absurd hnil hfiles
      | argument _ hfirst => exact .inl hfirst
      | file _ hpaths hfirst => exact .inr ⟨_, hpaths, hfirst⟩

/-- Some input cannot be read, or the arguments cannot be expanded to files. -/
inductive Unreadable (o : Options) (stdin : ByteArray) (fs : FileSystem) : Prop where
  /-- Standard input is no text. -/
  | input {e : SystemError} (hfiles : o.files = []) (he : decodeText stdin = .error e)
  /-- An argument cannot be expanded. -/
  | argument {arg : Text} (harg : arg ∈ o.files) (hinvalid : IsInvalid fs arg)
  /-- A file of the arguments is closed. -/
  | file {paths : List Path} {p : Path} {loc : Location} (hfiles : o.files ≠ [])
      (hpaths : (expand fs o.files).2 = .ok paths) (hp : p ∈ paths) (hloc : fs.resolve p = .ok loc)
      (hclosed : fs.isClosed loc = true)
  /-- A file of the arguments is no text. -/
  | text {paths : List Path} {p : Path} {loc : Location} {content : ByteArray} {e : SystemError}
      (hfiles : o.files ≠ []) (hpaths : (expand fs o.files).2 = .ok paths) (hp : p ∈ paths)
      (hloc : fs.resolve p = .ok loc) (hcontent : fs.node? loc = some (.file content))
      (he : decodeText content = .error e)

/-- A file of the arguments that cannot be read is closed or no text. -/
theorem unreadable_of_readText {e : SystemError} (hfiles : o.files ≠ [])
    (hpaths : (expand fs o.files).2 = .ok paths) (hp : p ∈ paths) (he : fs.readText p = .error e) :
    Unreadable o stdin fs := by
  obtain ⟨loc, hloc, hclosed | ⟨content, e, hcontent, he⟩⟩ :=
    (FileSystem.exists_readText_eq_error_iff (hasFile_of_expand hpaths hp)).1 ⟨e, he⟩
  · exact .file hfiles hpaths hp hloc hclosed
  · exact .text hfiles hpaths hp hloc hcontent he

theorem exists_inputFailure_of_readText {e : SystemError} (hfiles : o.files ≠ [])
    (hpaths : (expand fs o.files).2 = .ok paths) (hp : p ∈ paths) (he : fs.readText p = .error e) :
    ∃ f, InputFailure o stdin fs f := by
  obtain ⟨f, hfirst⟩ := exists_failsFirst_iff.2
    ⟨_, hp, _, readDocument_eq_error_iff.2 ⟨_, he, rfl⟩⟩
  exact ⟨f, .file hfiles hpaths hfirst⟩

theorem exists_inputFailure_iff : (∃ f, InputFailure o stdin fs f) ↔ Unreadable o stdin fs := by
  constructor
  · rintro ⟨f, hf⟩
    cases hf with
    | input hfiles hread =>
      obtain ⟨e, he, -⟩ := readInput_eq_error_iff.1 hread
      exact .input hfiles he
    | argument _ hfirst =>
      obtain ⟨arg, harg, f, hf⟩ := exists_failsFirst_iff.1 ⟨f, hfirst⟩
      exact .argument harg (exists_argumentFailure_iff.1 ⟨f, filesOf_eq_error_iff.1 hf⟩)
    | file hfiles hpaths hfirst =>
      obtain ⟨p, hp, f, hf⟩ := exists_failsFirst_iff.1 ⟨f, hfirst⟩
      obtain ⟨e, he, -⟩ := readDocument_eq_error_iff.1 hf
      exact unreadable_of_readText hfiles hpaths hp he
  · intro h
    cases h with
    | input hfiles he => exact ⟨_, .input hfiles (readInput_eq_error_iff.2 ⟨_, he, rfl⟩)⟩
    | argument harg hinvalid =>
      obtain ⟨f, hf⟩ := exists_argumentFailure_iff.2 hinvalid
      obtain ⟨f, hfirst⟩ := exists_failsFirst_iff.2 ⟨_, harg, f, filesOf_eq_error_iff.2 hf⟩
      exact ⟨f, .argument (List.ne_nil_of_mem harg) hfirst⟩
    | file hfiles hpaths hp hloc hclosed =>
      obtain ⟨e, he⟩ := (FileSystem.exists_readText_eq_error_iff
        (hasFile_of_expand hpaths hp)).2 ⟨_, hloc, .inl hclosed⟩
      exact exists_inputFailure_of_readText hfiles hpaths hp he
    | text hfiles hpaths hp hloc hcontent he =>
      obtain ⟨e, he⟩ := (FileSystem.exists_readText_eq_error_iff
        (hasFile_of_expand hpaths hp)).2 ⟨_, hloc, .inr ⟨_, _, hcontent, he⟩⟩
      exact exists_inputFailure_of_readText hfiles hpaths hp he

/-! ## Tags that comments must have -/

/-- That a comment of a document has a tag. -/
structure Demand where
  /-- The document. -/
  document : Document
  /-- The comment. -/
  comment : Comment
  /-- The key of the tag. -/
  key : Text

namespace Demand

/-- The comment has the tag, with a value or without. -/
def Met (r : Demand) : Prop :=
  ∃ e ∈ r.comment.entries, e.key = some r.key

/-- The failure that says that the comment lacks the tag. -/
def failure (r : Demand) : Failure :=
  .missingTag r.document.source r.comment.line r.key (.notFound (some r.key))

/-- Look the tag up. -/
def check (r : Demand) : Except Failure Unit :=
  match r.comment.entries.findOrFail (some r.key) with
  | .ok _ => .ok ()
  | .error e => .error (.missingTag r.document.source r.comment.line r.key e)

theorem met_iff {r : Demand} : r.Met ↔ r.comment.entries.find (some r.key) ≠ [] := by
  simp [Met, Entries.find]

theorem check_eq_error_iff {r : Demand} : r.check = .error f ↔ ¬ r.Met ∧ f = r.failure := by
  rw [met_iff, check, Entries.findOrFail]
  cases r.comment.entries.find (some r.key) <;> simp [failure, eq_comm]

theorem exists_check_eq_ok_iff {r : Demand} : (∃ u, r.check = .ok u) ↔ r.Met := by
  rw [met_iff, check, Entries.findOrFail]
  cases r.comment.entries.find (some r.key) <;> simp

end Demand

/-- What a run demands: every tag of every comment, in the order of the documents, then of their
comments, then of the keys. -/
def demands (ds : List Document) (keys : List Text) : List Demand :=
  ds.flatMap fun d => d.comments.flatMap fun c => keys.map fun key => ⟨d, c, key⟩

theorem mem_demands {r : Demand} :
    r ∈ demands ds keys ↔ r.document ∈ ds ∧ r.comment ∈ r.document.comments ∧ r.key ∈ keys := by
  obtain ⟨d, c, key⟩ := r
  simp [demands]

theorem checkRequired_eq_forM (ds : List Document) (keys : List Text) :
    checkRequired ds keys = (demands ds keys).forM Demand.check := by
  rw [demands, forM_flatMap, checkRequired]
  congr 1
  funext d
  rw [forM_flatMap]
  congr 1
  funext c
  simp only [List.forM_eq_forM, List.forM_map]
  rfl

/-- **How the check of the tags fails**: at the first demand that is not met. -/
theorem checkRequired_eq_error_iff :
    checkRequired ds keys = .error f ↔
      ∃ before r after, demands ds keys = before ++ r :: after ∧ (¬ r.Met ∧ f = r.failure) ∧
        ∀ q ∈ before, q.Met := by
  rw [checkRequired_eq_forM, forM_eq_error_iff]
  simp only [FailsFirst, Demand.check_eq_error_iff, Demand.exists_check_eq_ok_iff]

theorem exists_checkRequired_eq_error_iff :
    (∃ f, checkRequired ds keys = .error f) ↔ ∃ r ∈ demands ds keys, ¬ r.Met := by
  simp only [checkRequired_eq_forM, forM_eq_error_iff, exists_failsFirst_iff,
    Demand.check_eq_error_iff, exists_and_left, exists_eq, and_true]

theorem checkRequired_eq_ok_iff :
    checkRequired ds keys = .ok () ↔ ∀ r ∈ demands ds keys, r.Met := by
  rw [checkRequired_eq_forM, forM_eq_ok_iff]
  simp only [Demand.exists_check_eq_ok_iff]

/-! ## The stages before the output -/

/-- The failure that ends a run before the output. -/
inductive Blocked (o : Options) (stdin : ByteArray) (fs : FileSystem) : Failure → Prop where
  /-- The inputs cannot be read. -/
  | inputs {f : Failure} (hfailure : InputFailure o stdin fs f) : Blocked o stdin fs f
  /-- A comment lacks a tag, the first such comment and the first tag that it lacks. -/
  | tag {ds : List Document} {before after : List Demand} {r : Demand}
      (hinputs : (inputs o stdin fs).2 = .ok ds)
      (hdemands : demands ds o.require = before ++ r :: after) (hbefore : ∀ q ∈ before, q.Met)
      (hr : ¬ r.Met) : Blocked o stdin fs r.failure
  /-- The documents are to be written in a format that there is not. -/
  | format {ds : List Document} (hinputs : (inputs o stdin fs).2 = .ok ds)
      (hdemands : ∀ r ∈ demands ds o.require, r.Met) (hkey : o.key = none)
      (htexts : o.texts = false)
      (hformat : Format.ofName? o.format = none) : Blocked o stdin fs (.unknownFormat o.format)

/-- Some comment of the inputs lacks a tag that it must have. -/
def LacksTag (o : Options) (stdin : ByteArray) (fs : FileSystem) : Prop :=
  ∃ ds, (inputs o stdin fs).2 = .ok ds ∧ ∃ d ∈ ds, ∃ c ∈ d.comments, ∃ key ∈ o.require,
    ∀ e ∈ c.entries, e.key ≠ some key

/-- The documents are to be written in a format that there is not. -/
def UnknownFormat (o : Options) : Prop :=
  o.key = none ∧ o.texts = false ∧ Format.ofName? o.format = none

/-- **When something keeps a run from its output.** -/
theorem exists_blocked_iff :
    (∃ f, Blocked o stdin fs f) ↔
      Unreadable o stdin fs ∨ LacksTag o stdin fs ∨ UnknownFormat o := by
  constructor
  · rintro ⟨f, hf⟩
    cases hf with
    | inputs hfailure => exact .inl (exists_inputFailure_iff.1 ⟨f, hfailure⟩)
    | tag hinputs hdemands hbefore hr =>
      rename_i ds before after r
      have hmem : r ∈ demands ds o.require := by simp [hdemands]
      obtain ⟨hd, hc, hkey⟩ := mem_demands.1 hmem
      refine .inr (.inl ⟨ds, hinputs, r.document, hd, r.comment, hc, r.key, hkey, ?_⟩)
      exact fun e he heq => hr ⟨e, he, heq⟩
    | format _ _ hkey htexts hformat => exact .inr (.inr ⟨hkey, htexts, hformat⟩)
  · intro h
    cases hinputs : (inputs o stdin fs).2 with
    | error f => exact ⟨f, .inputs (inputs_eq_error_iff.1 hinputs)⟩
    | ok ds =>
      by_cases hall : ∀ r ∈ demands ds o.require, r.Met
      · rcases h with hunreadable | ⟨ds', hinputs', d, hd, c, hc, key, hkey, hlacks⟩ | hformat
        · obtain ⟨f, hf⟩ := exists_inputFailure_iff.2 hunreadable
          cases hinputs.symm.trans (inputs_eq_error_iff.2 hf)
        · cases hinputs.symm.trans hinputs'
          obtain ⟨e, he, heq⟩ := hall ⟨d, c, key⟩ (mem_demands.2 ⟨hd, hc, hkey⟩)
          exact absurd heq (hlacks e he)
        · exact ⟨_, .format hinputs hall hformat.1 hformat.2.1 hformat.2.2⟩
      · simp only [not_forall, exists_prop] at hall
        obtain ⟨f, hcheck⟩ := exists_checkRequired_eq_error_iff.2 hall
        obtain ⟨before, r, after, hdemands, ⟨hr, -⟩, hbefore⟩ :=
          checkRequired_eq_error_iff.1 hcheck
        exact ⟨_, .tag hinputs hdemands hbefore hr⟩

/-! ## The run -/

theorem runOptions_of_inputs_eq_error (h : (inputs o stdin fs).2 = .error f) :
    runOptions o stdin fs = ⟨.failure f, [], (inputs o stdin fs).1, fs⟩ := by
  rw [runOptions]
  cases hinputs : inputs o stdin fs with
  | mk warnings result =>
    rw [hinputs] at h
    cases h
    rfl

theorem runOptions_of_inputs_eq_ok (h : (inputs o stdin fs).2 = .ok ds) :
    runOptions o stdin fs =
      match checkRequired ds o.require with
      | .error f => ⟨.failure f, [], (inputs o stdin fs).1, fs⟩
      | .ok _ => emit o fs (inputs o stdin fs).1 ds := by
  rw [runOptions]
  cases hinputs : inputs o stdin fs with
  | mk warnings result =>
    rw [hinputs] at h
    cases h
    dsimp only [Except.bind]
    cases checkRequired ds o.require <;> rfl

/-- **A run that something keeps from its output leaves nothing behind.** -/
theorem runOptions_of_blocked (h : Blocked o stdin fs f) :
    runOptions o stdin fs = ⟨.failure f, [], (inputs o stdin fs).1, fs⟩ := by
  cases h with
  | inputs hfailure => exact runOptions_of_inputs_eq_error (inputs_eq_error_iff.2 hfailure)
  | tag hinputs hdemands hbefore hr =>
    have hcheck := checkRequired_eq_error_iff.2 ⟨_, _, _, hdemands, ⟨hr, rfl⟩, hbefore⟩
    rw [runOptions_of_inputs_eq_ok hinputs, hcheck]
  | format hinputs hdemands hkey htexts hformat =>
    rw [runOptions_of_inputs_eq_ok hinputs, checkRequired_eq_ok_iff.2 hdemands]
    simp [emit, hkey, htexts, hformat]

theorem run_of_parse (h : Options.parse args = .ok o) :
    run args stdin fs = runOptions o stdin fs := by
  rw [run, h]

/-- A look-up does not depend on where and how documents would be written. -/
theorem runOptions_of_lookup (h : o.key.isSome = true ∨ o.texts = true) (output : Option Path)
    (format : Text) : runOptions { o with output, format } stdin fs = runOptions o stdin fs := by
  have hlookup : (o.key.isSome || o.texts) = true := by simpa using h
  have hinputs : inputs { o with output, format } stdin fs = inputs o stdin fs := rfl
  have hemit : ∀ warnings ds, emit { o with output, format } fs warnings ds =
      emit o fs warnings ds := by
    intro warnings ds
    simp [emit, hlookup]
  rw [runOptions, runOptions, hinputs]
  simp only [hemit]

/-- The second arguments are the first without some of those for the output. -/
def LeavesOut (args args' : List Text) : Prop :=
  ∃ items items', Item.readAll none args = .ok items ∧ Item.readAll none args' = .ok items' ∧
    items'.Sublist items ∧ Item.besidesOutput items' = Item.besidesOutput items

/-- Arguments for the output can be left out of a look-up. -/
theorem run_of_leavesOut {args' : List Text} (hparse : Options.parse args = .ok o)
    (hlookup : o.key.isSome = true ∨ o.texts = true) (h : LeavesOut args args') :
    run args' stdin fs = run args stdin fs := by
  obtain ⟨items, items', hitems, hitems', hsub, hbesides⟩ := h
  have hof := (Options.parse_eq_ofItems hitems).symm.trans hparse
  obtain ⟨output, format, hof'⟩ := Options.ofItems_of_sublist hof hsub hbesides
  have hparse' := (Options.parse_eq_ofItems hitems').trans hof'
  rw [run_of_parse hparse, run_of_parse hparse']
  exact runOptions_of_lookup hlookup output format

/-- **A run that ends before its output leaves no trace.** That is the case exactly if an input
cannot be read, a comment lacks a tag that it must have, or there is no format of the given name
and documents are to be written in it. The failure is that of the first stage, in this order. To a
look-up, directory and format make no difference. -/
theorem run_of_blocked (h : Options.parse args = .ok o) (stdin : ByteArray) (fs : FileSystem) :
    ((∃ f, Blocked o stdin fs f) ↔
        Unreadable o stdin fs ∨ LacksTag o stdin fs ∨ UnknownFormat o) ∧
      (∀ f, Blocked o stdin fs f →
        (run args stdin fs).ending = .failure f ∧ (run args stdin fs).ending.exitCode = 1 ∧
          (run args stdin fs).stdout = [] ∧ (run args stdin fs).files = fs) ∧
      (o.key.isSome = true ∨ o.texts = true →
        ∀ args', LeavesOut args args' → run args' stdin fs = run args stdin fs) := by
  refine ⟨exists_blocked_iff, fun f hf => ?_, fun hlookup args' => run_of_leavesOut h hlookup⟩
  have hrun : run args stdin fs = ⟨.failure f, [], (inputs o stdin fs).1, fs⟩ := by
    rw [run_of_parse h]
    exact runOptions_of_blocked hf
  rw [hrun]
  exact ⟨rfl, rfl, rfl, rfl⟩

/-- A directory and an unknown format are given, but the one comment lacks a tag; a directory that
cannot be listed; and a look-up that is given a directory and an unknown format. -/
theorem run_of_blocked_since :
    let fs : FileSystem := ⟨[(["a.php".toList], .file (encodeText "/** a */".toList)),
      (["d".toList], .directory)], ⟨[], [["d".toList]]⟩⟩
    let args := ["-o", "out", "-f", "dvi", "--require", "since", "a.php"].map String.toList
    let closed := ["-o", "out", "a.php", "d"].map String.toList
    let lookup := ["-vo", "out", "-k", "since", "-fdvi", "a.php"].map String.toList
    (∃ o, Options.parse args = .ok o ∧ UnknownFormat o ∧ LacksTag o .empty fs) ∧
      (run args .empty fs).ending = .failure
        (.missingTag "a.php".toList 1 "since".toList (.notFound (some "since".toList))) ∧
      (run args .empty fs).stdout = [] ∧ (run args .empty fs).files = fs ∧
      (run closed .empty fs).ending = .failure
        (.unreadableDirectory "d".toList .accessDenied) ∧
      (run closed .empty fs).stdout = [] ∧ (run closed .empty fs).files = fs ∧
      run (["-v", "-k", "since", "a.php"].map String.toList) .empty fs = run lookup .empty fs := by
  intro fs args closed lookup
  let o : Options := ⟨["a.php".toList], some "out".toList, "dvi".toList, none, false,
    ["since".toList]⟩
  let c : Comment := ⟨1, "/** a\n */".toList, none⟩
  let r : Demand := ⟨⟨"a.php".toList, [c]⟩, c, "since".toList⟩
  have hparse : Options.parse args = .ok o := eq_ok_of_toOption (by decide +kernel)
  have hinputs : (inputs o .empty fs).2 = .ok [⟨"a.php".toList, [c]⟩] :=
    eq_ok_of_toOption (by decide +kernel)
  have hr : ¬ r.Met := by
    rw [Demand.met_iff]
    decide +kernel
  have hdemands : demands [⟨"a.php".toList, [c]⟩] o.require = [] ++ r :: [] := rfl
  have hlacks : LacksTag o .empty fs :=
    ⟨_, hinputs, r.document, List.mem_singleton_self _, c, List.mem_singleton_self _, r.key,
      List.mem_singleton_self _, fun e he heq => hr ⟨e, he, heq⟩⟩
  obtain ⟨-, hblocked, -⟩ := run_of_blocked hparse .empty fs
  obtain ⟨hending, -, hstdout, hfiles⟩ :=
    hblocked _ (.tag hinputs hdemands (List.forall_mem_nil _) hr)
  let o' : Options := ⟨["a.php", "d"].map String.toList, some "out".toList, "markdown".toList, none,
    false, []⟩
  have hparse' : Options.parse closed = .ok o' := eq_ok_of_toOption (by decide +kernel)
  have hdirectory : fs.hasDirectory "d".toList = true := by decide +kernel
  have hnames : fs.names "d".toList = .error .accessDenied :=
    (FileSystem.names_eq_error_iff hdirectory).2
      ⟨["d".toList], eq_ok_of_toOption (by decide +kernel), by decide, rfl⟩
  have hfirst : FailsFirst (filesOf fs) o'.files
      (.unreadableDirectory "d".toList .accessDenied) :=
    ⟨["a.php".toList], "d".toList, [], rfl, filesOf_eq_error_iff.2 (.directory hdirectory hnames),
      List.forall_mem_singleton.2 ⟨["a.php".toList], eq_ok_of_toOption (by decide +kernel)⟩⟩
  obtain ⟨-, hblocked', -⟩ := run_of_blocked hparse' .empty fs
  obtain ⟨hending', -, hstdout', hfiles'⟩ := hblocked' _ (.inputs (.argument (by decide) hfirst))
  refine ⟨⟨o, hparse, ⟨rfl, rfl, by decide⟩, hlacks⟩, hending, hstdout, hfiles, hending', hstdout',
    hfiles', ?_⟩
  let o'' : Options := ⟨["a.php".toList], some "out".toList, "dvi".toList, some "since".toList,
    false, []⟩
  have hparse'' : Options.parse lookup = .ok o'' := eq_ok_of_toOption (by decide +kernel)
  obtain ⟨-, -, hlookup⟩ := run_of_blocked hparse'' .empty fs
  refine hlookup (.inl rfl) _ ⟨[.switch .verbose, .setting .output "out".toList,
      .setting .key "since".toList, .setting .format "dvi".toList, .file "a.php".toList],
    [.switch .verbose, .setting .key "since".toList, .file "a.php".toList], ?_, ?_, ?_, ?_⟩
  · exact eq_ok_of_toOption (by decide +kernel)
  · exact eq_ok_of_toOption (by decide +kernel)
  · decide
  · decide

end DocComments.Command
