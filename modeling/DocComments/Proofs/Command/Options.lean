import DocComments.Command.Options
import Mathlib.Data.List.Basic

/-!
# Options that go together

The options of a command are collected item by item, and the order of the items does not matter but
among those of one option. So items that set where and how to write can be left out: what is left
makes a command too, with the same files, the same look-up and the same demands. The demands can be
left out in the same way.

* `Options.ofItems_eq_ok_iff` says when items make a command, and which.
* `Options.ofItems_of_sublist`: items for the output can be left out.
* `Options.ofItems_besides_require`: items that demand tags can be left out.
-/

namespace DocComments.Command

variable {items items' : List Item} {o : Options} {flag : Flag}

namespace Item

/-- Does the item set the directory or the format to write? -/
def isForOutput (i : Item) : Bool :=
  i.flag? = some .output || i.flag? = some .format

/-- The items that do not. -/
def besidesOutput (items : List Item) : List Item :=
  items.filter (!·.isForOutput)

/-- The items that are not about the option. -/
def besides (flag : Flag) (items : List Item) : List Item :=
  items.filter fun i => i.flag? ≠ some flag

/-- Items that contribute nothing can be left out. -/
theorem filterMap_filter_of_eq_none {α : Type} {p : Item → Bool} {g : Item → Option α}
    (hg : ∀ i, p i = false → g i = none) (items : List Item) :
    (items.filter p).filterMap g = items.filterMap g := by
  rw [List.filterMap_filter]
  refine List.filterMap_congr fun i _ => ?_
  cases hi : p i with
  | false => simp [hg i hi]
  | true => simp

/-- What the items contribute does not depend on those for the output, if these contribute
nothing. -/
theorem filterMap_besidesOutput {α : Type} {g : Item → Option α}
    (hg : ∀ i, i.isForOutput = true → g i = none) (items : List Item) :
    (besidesOutput items).filterMap g = items.filterMap g :=
  filterMap_filter_of_eq_none (fun i hi => hg i (by simpa using hi)) items

theorem filterMap_besides {α : Type} {g : Item → Option α}
    (hg : ∀ i, i.flag? = some flag → g i = none) (items : List Item) :
    (besides flag items).filterMap g = items.filterMap g :=
  filterMap_filter_of_eq_none (fun i hi => hg i (by simpa using hi)) items

theorem filterMap_congr_besidesOutput {α : Type} {g : Item → Option α}
    (hg : ∀ i, i.isForOutput = true → g i = none) (h : besidesOutput items = besidesOutput items') :
    items.filterMap g = items'.filterMap g := by
  rw [← filterMap_besidesOutput hg items, h, filterMap_besidesOutput hg]

theorem flag?_eq_of_value? {i : Item} {value : Text} (h : i.value? flag = some value) :
    i.flag? = some flag := by
  cases i <;> simp_all [value?, flag?]

theorem value?_eq_none_of_flag?_ne {i : Item} (hi : i.flag? ≠ some flag) :
    i.value? flag = none := by
  rw [Option.eq_none_iff_forall_ne_some]
  exact fun value hvalue => hi (flag?_eq_of_value? hvalue)

theorem value?_eq_none {i : Item} (hi : i.isForOutput = true) (ho : flag ≠ .output)
    (hf : flag ≠ .format) : i.value? flag = none := by
  apply value?_eq_none_of_flag?_ne
  intro hflag
  simp_all [isForOutput]

theorem path?_eq_none_of_flag? {i : Item} (hi : i.flag? = some flag) : i.path? = none := by
  cases i <;> simp_all [path?, flag?]

theorem path?_eq_none {i : Item} (hi : i.isForOutput = true) : i.path? = none := by
  cases i <;> simp_all [isForOutput, path?, flag?]

end Item

namespace Options

open Item

/-- How often the items have the option. -/
def timesGiven (items : List Item) (flag : Flag) : ℕ :=
  (items.filterMap Item.flag?).count flag

/-- The values that the items give the option. -/
def valuesGiven (items : List Item) (flag : Flag) : List Text :=
  items.filterMap (Item.value? flag)

theorem timesGiven_le_of_sublist (h : items'.Sublist items) (flag : Flag) :
    timesGiven items' flag ≤ timesGiven items flag :=
  (h.filterMap _).count_le _

theorem timesGiven_eq_length (items : List Item) (flag : Flag) :
    timesGiven items flag = (items.filterMap fun i => i.flag?.filter (· = flag)).length := by
  rw [timesGiven, List.count_eq_length_filter, List.filter_filterMap]
  rfl

theorem timesGiven_congr (ho : flag ≠ .output) (hf : flag ≠ .format)
    (h : besidesOutput items = besidesOutput items') :
    timesGiven items flag = timesGiven items' flag := by
  have hother : ∀ i : Item, i.isForOutput = true → i.flag?.filter (· = flag) = none := by
    intro i hi
    rw [Option.filter_eq_none_iff]
    intro flag' hflag'
    simp only [isForOutput, hflag', Bool.or_eq_true, decide_eq_true_eq, Option.some.injEq] at hi
    rcases hi with rfl | rfl
    · simpa using ho.symm
    · simpa using hf.symm
  rw [timesGiven_eq_length, timesGiven_eq_length, filterMap_congr_besidesOutput hother h]

theorem timesGiven_besides {other : Flag} (hne : other ≠ flag) (items : List Item) :
    timesGiven (besides flag items) other = timesGiven items other := by
  rw [timesGiven_eq_length, timesGiven_eq_length]
  congr 1
  refine filterMap_besides (fun i hi => ?_) items
  rw [hi, Option.filter_some, if_neg (by simpa using hne.symm)]

theorem valuesGiven_besides {other : Flag} (hne : other ≠ flag) (items : List Item) :
    valuesGiven (besides flag items) other = valuesGiven items other := by
  refine filterMap_besides (fun i hi => value?_eq_none_of_flag?_ne ?_) items
  rw [hi, ne_eq, Option.some.injEq]
  exact hne.symm

theorem valuesGiven_besides_self (flag : Flag) (items : List Item) :
    valuesGiven (besides flag items) flag = [] := by
  rw [valuesGiven, List.filterMap_eq_nil_iff]
  intro i hi
  apply value?_eq_none_of_flag?_ne
  simpa using (List.mem_filter.1 hi).2

theorem length_valuesGiven_le (items : List Item) (flag : Flag) :
    (valuesGiven items flag).length ≤ timesGiven items flag := by
  induction items with
  | nil => exact Nat.le_refl _
  | cons i items ih =>
    simp only [valuesGiven, timesGiven, List.filterMap_cons] at ih ⊢
    cases hvalue : i.value? flag with
    | none => cases i.flag? <;> simp only [List.count_cons] <;> omega
    | some value =>
      rw [flag?_eq_of_value? hvalue]
      simp only [List.length_cons, List.count_cons_self]
      omega

theorem mem_all (flag : Flag) : flag ∈ Flag.all := by
  cases flag <;> decide

/-- The command that the items make, if they go together. -/
def collected (items : List Item) : Options where
  files := items.filterMap Item.path?
  output := (valuesGiven items .output).head?
  format := (valuesGiven items .format).head?.getD defaultFormat
  key := (valuesGiven items .key).head?
  texts := decide (0 < timesGiven items .texts)
  require := valuesGiven items .require

/-- **When items make a command**: no option is given more often than it can be, the directory is
not empty, and values and prose are not asked for at once. -/
theorem ofItems_eq_ok_iff :
    ofItems items = .ok o ↔
      (∀ flag, flag.repeatable = false → timesGiven items flag ≤ 1) ∧
      (valuesGiven items .output).head? ≠ some [] ∧
      ¬ ((valuesGiven items .key).head?.isSome = true ∧ 0 < timesGiven items .texts) ∧
      collected items = o := by
  have hnone : (Flag.all.find? fun flag => !flag.repeatable && 1 < timesGiven items flag) = none ↔
      ∀ flag, flag.repeatable = false → timesGiven items flag ≤ 1 := by
    simp [List.find?_eq_none, mem_all]
  rw [← hnone]
  unfold ofItems
  dsimp only
  split
  · next flag hfind =>
    change Flag.all.find? (fun flag => !flag.repeatable && 1 < timesGiven items flag) = _ at hfind
    simp [hfind]
  · next hfind =>
    change Flag.all.find? (fun flag => !flag.repeatable && 1 < timesGiven items flag) = _ at hfind
    change (if (valuesGiven items .output).head? = some [] then
        Except.error (UsageError.emptyValue .output)
      else if (valuesGiven items .key).head?.isSome && decide (0 < timesGiven items .texts) then
        .error (.conflict .key .texts)
      else .ok (collected items)) = _ ↔ _
    split
    · next hempty => simp [hempty]
    · next hempty =>
      split
      · next hboth => simp_all
      · next hboth => simp_all

/-- **Items for the output can be left out.** What is left asks for the same, as far as it is not
about the output. -/
theorem ofItems_of_sublist (h : ofItems items = .ok o) (hsub : items'.Sublist items)
    (hbesides : besidesOutput items' = besidesOutput items) :
    ∃ output format, ofItems items' = .ok { o with output, format } := by
  obtain ⟨htimes, hempty, hboth, rfl⟩ := ofItems_eq_ok_iff.1 h
  have hkey : valuesGiven items' .key = valuesGiven items .key :=
    filterMap_congr_besidesOutput (fun i hi => value?_eq_none hi (by decide) (by decide)) hbesides
  have hrequire : valuesGiven items' .require = valuesGiven items .require :=
    filterMap_congr_besidesOutput (fun i hi => value?_eq_none hi (by decide) (by decide)) hbesides
  have hfiles : items'.filterMap Item.path? = items.filterMap Item.path? :=
    filterMap_congr_besidesOutput (fun i hi => path?_eq_none hi) hbesides
  have htexts : timesGiven items' .texts = timesGiven items .texts :=
    timesGiven_congr (by decide) (by decide) hbesides
  have houtput : (valuesGiven items' .output).head? ≠ some [] := by
    intro hhead
    have hmem : [] ∈ valuesGiven items .output :=
      (hsub.filterMap _).subset (List.mem_of_mem_head? hhead)
    have hone := Nat.le_trans (length_valuesGiven_le items .output) (htimes .output rfl)
    obtain ⟨value, hvalue⟩ := List.length_eq_one_iff.1
      (Nat.le_antisymm hone (List.length_pos_of_mem hmem))
    rw [hvalue, List.mem_singleton] at hmem
    exact hempty (by rw [hvalue, ← hmem]; rfl)
  refine ⟨(valuesGiven items' .output).head?, (valuesGiven items' .format).head?.getD defaultFormat,
    ofItems_eq_ok_iff.2 ⟨?_, houtput, ?_, ?_⟩⟩
  · exact fun flag hflag => Nat.le_trans (timesGiven_le_of_sublist hsub flag) (htimes flag hflag)
  · rwa [hkey, htexts]
  · simp only [collected, hkey, hrequire, hfiles, htexts]

/-- **The tags that comments must have can be left out.** What is left asks for the same but that it
demands no tag. -/
theorem ofItems_besides_require (h : ofItems items = .ok o) :
    ofItems (besides .require items) = .ok { o with require := [] } := by
  obtain ⟨htimes, hempty, hboth, rfl⟩ := ofItems_eq_ok_iff.1 h
  have houtput := valuesGiven_besides (show Flag.output ≠ .require by decide) items
  have hformat := valuesGiven_besides (show Flag.format ≠ .require by decide) items
  have hkey := valuesGiven_besides (show Flag.key ≠ .require by decide) items
  have htexts := timesGiven_besides (show Flag.texts ≠ .require by decide) items
  have hfiles : (besides .require items).filterMap Item.path? = items.filterMap Item.path? :=
    filterMap_besides (fun i => path?_eq_none_of_flag?) items
  refine ofItems_eq_ok_iff.2 ⟨fun flag hflag => ?_, by rwa [houtput], by rwa [hkey, htexts], ?_⟩
  · exact Nat.le_trans (timesGiven_le_of_sublist List.filter_sublist flag) (htimes flag hflag)
  · simp only [collected, houtput, hformat, hkey, htexts, hfiles, valuesGiven_besides_self]

theorem parse_eq_ofItems {args : List Text} (h : Item.readAll none args = .ok items) :
    parse args = ofItems items := by
  rw [parse, h]
  rfl

theorem output_ne_nil_of_parse {args : List Text} (h : parse args = .ok o) :
    o.output ≠ some [] := by
  cases hitems : Item.readAll none args with
  | error e =>
    rw [parse, hitems] at h
    cases h
  | ok items =>
    rw [parse_eq_ofItems hitems] at h
    obtain ⟨-, houtput, -, rfl⟩ := ofItems_eq_ok_iff.1 h
    exact houtput

end Options

end DocComments.Command
