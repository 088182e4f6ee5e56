import DocComments.Proofs.Command.Options
import DocComments.Proofs.Text.Search

/-!
# Arguments for a command

Options that go together can be asked for: `Options.arguments` writes each as one argument, under
its long name and with its value after an equals sign, and the files after two hyphens, so that no
file is taken for an option. `Options.parse_arguments` reads them back.
-/

namespace DocComments.Command

variable {o : Options} {item : Item} {items : List Item} {args files : List Text}

/-! ## Writing arguments -/

namespace Item

/-- An option as one argument, a file as it is. -/
def argument : Item → Text
  | file path => path
  | switch flag => flag.display
  | setting flag value => flag.display ++ '=' :: value

/-- This is an option, with a value if it takes one. -/
def IsOption : Item → Prop
  | file _ => False
  | switch flag => flag.takesValue = false
  | setting flag _ => flag.takesValue = true

end Item

namespace Options

/-- The options, each as an item, without the files. -/
def toItems (o : Options) : List Item :=
  o.output.toList.map (.setting .output) ++ [o.format].map (.setting .format) ++
    o.key.toList.map (.setting .key) ++ (if o.texts then [.switch .texts] else []) ++
    o.require.map (.setting .require)

/-- Arguments that ask for the options. -/
def arguments (o : Options) : List Text :=
  o.toItems.map Item.argument ++ ['-', '-'] :: o.files

/-- The options go together. -/
structure Consistent (o : Options) : Prop where
  /-- The directory has a name. -/
  output_ne_nil : o.output ≠ some []
  /-- A run looks up a tag or prose, not both. -/
  not_both : ¬ (o.key.isSome = true ∧ o.texts = true)

end Options

/-! ## Reading them -/

theorem ofLong?_longName (flag : Flag) : Flag.ofLong? flag.longName = some flag := by
  cases flag <;> decide

theorem cut?_longName (flag : Flag) (value : Text) :
    Text.cut? ['='] (flag.longName ++ '=' :: value) = some (flag.longName, value) := by
  have hname : ¬ ['='] <:+: flag.longName ++ ['='].dropLast := by cases flag <;> decide
  exact (Text.cut?_eq_some_iff (by decide)).2 ⟨List.append_cons .., hname⟩

namespace Item

theorem readLong_setting {flag : Flag} (h : flag.takesValue = true) (value : Text) :
    readLong (flag.longName ++ '=' :: value) = .ok ([setting flag value], none) := by
  simp [readLong, cut?_longName, ofLong?_longName, h]

theorem readLong_switch {flag : Flag} (h : flag.takesValue = false) :
    readLong flag.longName = .ok ([switch flag], none) := by
  have hcut : Text.cut? ['='] flag.longName = none := by cases flag <;> decide
  simp [readLong, hcut, ofLong?_longName, h]

theorem readOne_argument (h : item.IsOption) : readOne item.argument = .ok ([item], none) := by
  cases item with
  | file path => exact h.elim
  | switch flag => exact readLong_switch h
  | setting flag value => exact readLong_setting h value

theorem argument_ne_hyphens (h : item.IsOption) : item.argument ≠ ['-', '-'] := by
  cases item with
  | file path => exact h.elim
  | switch flag => cases flag <;> decide
  | setting flag value => simp [argument, Flag.display]

/-- **Options that are written as arguments are read back**, and what follows two hyphens are
files. -/
theorem readAll_arguments (h : ∀ item ∈ items, item.IsOption) (files : List Text) :
    readAll none (items.map argument ++ ['-', '-'] :: files) = .ok (items ++ files.map file) := by
  induction items with
  | nil => rfl
  | cons item items ih =>
    obtain ⟨hitem, hitems⟩ := List.forall_mem_cons.1 h
    rw [List.map_cons, List.cons_append, readAll, if_neg (argument_ne_hyphens hitem),
      readOne_argument hitem]
    change (readAll none (items.map argument ++ ['-', '-'] :: files)).bind _ = _
    rw [ih hitems]
    rfl

end Item

namespace Options

theorem consistent_of_parse (h : parse args = .ok o) : o.Consistent := by
  cases hitems : Item.readAll none args with
  | error e =>
    rw [parse, hitems] at h
    cases h
  | ok items =>
    rw [parse_eq_ofItems hitems] at h
    obtain ⟨-, houtput, hboth, rfl⟩ := ofItems_eq_ok_iff.1 h
    refine ⟨houtput, ?_⟩
    rintro ⟨hkey, htexts⟩
    exact hboth ⟨hkey, of_decide_eq_true htexts⟩

theorem isOption_of_mem_toItems {o : Options} : ∀ item ∈ o.toItems, item.IsOption := by
  intro item h
  simp only [toItems, List.mem_append, List.mem_map] at h
  obtain (((⟨_, -, rfl⟩ | ⟨_, -, rfl⟩) | ⟨_, -, rfl⟩) | htexts) | ⟨_, -, rfl⟩ := h
  · rfl
  · rfl
  · rfl
  · split at htexts
    · rw [List.mem_singleton.1 htexts]
      rfl
    · cases htexts
  · rfl

theorem valuesGiven_map_setting (values : List Text) (flag flag' : Flag) :
    valuesGiven (values.map (.setting flag)) flag' = if flag = flag' then values else [] := by
  rw [valuesGiven, List.filterMap_map]
  split
  · next h => simp [h, Item.value?]
  · next h => simp [h, Function.comp_def, Item.value?]

theorem timesGiven_map_setting (values : List Text) (flag flag' : Flag) :
    timesGiven (values.map (.setting flag)) flag' = if flag = flag' then values.length else 0 := by
  simp [timesGiven, List.filterMap_map, Function.comp_def, Item.flag?, List.count_replicate]

theorem valuesGiven_map_file (files : List Text) (flag : Flag) :
    valuesGiven (files.map .file) flag = [] := by
  simp [valuesGiven, List.filterMap_map, Function.comp_def, Item.value?]

theorem timesGiven_map_file (files : List Text) (flag : Flag) :
    timesGiven (files.map .file) flag = 0 := by
  simp [timesGiven, List.filterMap_map, Function.comp_def, Item.flag?]

theorem valuesGiven_append (items items' : List Item) (flag : Flag) :
    valuesGiven (items ++ items') flag = valuesGiven items flag ++ valuesGiven items' flag :=
  List.filterMap_append ..

theorem timesGiven_append (items items' : List Item) (flag : Flag) :
    timesGiven (items ++ items') flag = timesGiven items flag + timesGiven items' flag := by
  rw [timesGiven, List.filterMap_append, List.count_append, timesGiven, timesGiven]

/-- The values of each option, as the items of the options give them. -/
theorem valuesGiven_toItems (o : Options) (flag : Flag) :
    valuesGiven (o.toItems ++ o.files.map .file) flag =
      match flag with
      | .output => o.output.toList
      | .format => [o.format]
      | .key => o.key.toList
      | .require => o.require
      | .texts | .verbose => [] := by
  simp only [toItems, valuesGiven_append, valuesGiven_map_setting, valuesGiven_map_file]
  cases flag <;> cases o.texts <;> simp [valuesGiven, Item.value?]

theorem timesGiven_toItems (o : Options) (flag : Flag) :
    timesGiven (o.toItems ++ o.files.map .file) flag =
      match flag with
      | .output => o.output.toList.length
      | .format => 1
      | .key => o.key.toList.length
      | .texts => o.texts.toNat
      | .require => o.require.length
      | .verbose => 0 := by
  simp only [toItems, timesGiven_append, timesGiven_map_setting, timesGiven_map_file]
  cases flag <;> cases o.texts <;> simp [timesGiven, Item.flag?]

theorem paths_toItems (o : Options) :
    (o.toItems ++ o.files.map Item.file).filterMap Item.path? = o.files := by
  have hnone : o.toItems.filterMap Item.path? = [] := by
    rw [List.filterMap_eq_nil_iff]
    intro item hitem
    have hoption := o.isOption_of_mem_toItems item hitem
    cases item with
    | file path => exact hoption.elim
    | switch flag => rfl
    | setting flag value => rfl
  rw [List.filterMap_append, hnone, List.nil_append, List.filterMap_map]
  exact List.filterMap_some

theorem collected_toItems (o : Options) : collected (o.toItems ++ o.files.map .file) = o := by
  have htexts : decide (0 < o.texts.toNat) = o.texts := by cases o.texts <;> rfl
  rw [collected, paths_toItems]
  simp [valuesGiven_toItems, timesGiven_toItems, htexts]

/-- **Every command can be written**: options that go together are read back from the arguments for
them. -/
theorem parse_arguments (h : o.Consistent) : parse o.arguments = .ok o := by
  have hread := Item.readAll_arguments o.isOption_of_mem_toItems o.files
  rw [arguments, parse_eq_ofItems hread, ofItems_eq_ok_iff]
  refine ⟨fun flag hflag => ?_, ?_, ?_, collected_toItems o⟩
  · rw [timesGiven_toItems]
    cases flag with
    | output => exact Option.length_toList_le
    | format => exact Nat.le_refl 1
    | key => exact Option.length_toList_le
    | texts => exact Bool.toNat_le o.texts
    | require => cases hflag
    | verbose => cases hflag
  · rw [valuesGiven_toItems]
    exact fun hnil => h.output_ne_nil (by simpa using hnil)
  · rw [valuesGiven_toItems, timesGiven_toItems]
    rintro ⟨hkey, htexts⟩
    exact h.not_both ⟨by simpa using hkey, by simpa [Nat.pos_iff_ne_zero] using htexts⟩

end Options

end DocComments.Command
