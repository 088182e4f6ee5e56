import DocComments.Proofs.Command.Stages

/-!
# Runs that print

A run prints if it looks entries up, or if it has no directory to write to. What it prints of one
document does not depend on the others, so what it prints is the list of that for each.

* `Options.print?` is what a run prints of one document.
* `runOptions_success_iff`: when a run that prints succeeds, and with which output.
-/

namespace DocComments.Command

variable {o : Options} {args : List Text} {stdin : ByteArray} {fs : FileSystem}
  {print : Document → Text} {out : Text}

/-- What a run prints of a document; absent if there is no format to print it in. -/
def Options.print? (o : Options) : Option (Document → Text) :=
  if o.key.isSome || o.texts then some fun d => printValues [d] o.key
  else (Format.ofName? o.format).map Format.render

/-- The run looks entries up, or has no directory to write to. -/
def Options.Prints (o : Options) : Prop :=
  (o.key.isSome || o.texts) = true ∨ o.output = none

theorem printValues_eq_flatMap (ds : List Document) (key : Option Text) :
    printValues ds key = ds.flatMap fun d => printValues [d] key := by
  simp only [printValues, List.flatMap_assoc, List.flatMap_singleton]

/-- **A run prints what it has to say of each document**, in their order. -/
theorem emit_of_prints (h : o.Prints) (fs : FileSystem) (warnings : List Text)
    (ds : List Document) :
    emit o fs warnings ds =
      match o.print? with
      | none => ⟨.failure (.unknownFormat o.format), [], warnings, fs⟩
      | some print => ⟨.success, ds.flatMap print, warnings, fs⟩ := by
  unfold emit Options.print?
  split
  · rw [printValues_eq_flatMap]
  · next hlookup =>
    have houtput : o.output = none := h.resolve_left hlookup
    cases Format.ofName? o.format with
    | none => rfl
    | some format => simp [houtput]

theorem runOptions_success_iff (h : o.Prints) :
    (runOptions o stdin fs).ending = .success ∧ (runOptions o stdin fs).stdout = out ↔
      ∃ ds print, (inputs o stdin fs).2 = .ok ds ∧ (∀ r ∈ demands ds o.require, r.Met) ∧
        o.print? = some print ∧ ds.flatMap print = out := by
  cases hinputs : (inputs o stdin fs).2 with
  | error f => simp [runOptions_of_inputs_eq_error hinputs]
  | ok ds =>
    rw [runOptions_of_inputs_eq_ok hinputs, emit_of_prints h]
    by_cases hmet : ∀ r ∈ demands ds o.require, r.Met
    · rw [checkRequired_eq_ok_iff.2 hmet]
      cases hprint : o.print? with
      | none => simp
      | some print =>
        constructor
        · rintro ⟨-, hout⟩
          exact ⟨ds, print, rfl, hmet, rfl, hout⟩
        · rintro ⟨_, _, ⟨⟩, -, ⟨⟩, hout⟩
          exact ⟨rfl, hout⟩
    · obtain ⟨f, hcheck⟩ := exists_checkRequired_eq_error_iff.2 (by simpa using hmet)
      rw [hcheck]
      constructor
      · rintro ⟨⟨⟩, -⟩
      · rintro ⟨_, _, ⟨⟩, hmet', -⟩
        exact absurd hmet' hmet

/-- What a run that prints and succeeds has printed. -/
theorem exists_inputs_of_success (hparse : Options.parse args = .ok o) (hprints : o.Prints)
    (hprint : o.print? = some print) (hrun : (run args stdin fs).ending = .success) :
    ∃ ds, (inputs o stdin fs).2 = .ok ds ∧ (run args stdin fs).stdout = ds.flatMap print := by
  rw [run_of_parse hparse] at hrun ⊢
  obtain ⟨ds, print', hinputs, -, hprint', hout⟩ := (runOptions_success_iff hprints).1 ⟨hrun, rfl⟩
  cases hprint.symm.trans hprint'
  exact ⟨ds, hinputs, hout.symm⟩

end DocComments.Command
