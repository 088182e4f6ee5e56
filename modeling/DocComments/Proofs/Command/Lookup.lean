import DocComments.Proofs.Command.Arguments
import DocComments.Proofs.Command.Print
import DocComments.Proofs.Document.Json
import DocComments.Proofs.Entry.WellFormed

/-!
# Look-ups agree with the JSON output

A look-up selects entries by their key and prints their values. The JSON output of the same inputs
has every entry as a parameter of its block, so that the answer to the look-up can be found in it.

* `Json.parameters`, `Json.hasKey` and `Json.valueLine` read a decoded document, through the names
  of its fields only.
* `printValues_eq_parameters`: what a look-up prints is what these find in the documents as JSON.
* `run_lookup` says this of two runs, one that looks a key up and one that writes JSON.
-/

namespace DocComments

/-! ## Looking into a decoded document -/

namespace Json

/-- The items of a field that is a list. -/
def itemsOf (name : Text) (json : Json) : List Json :=
  (json.field? name).elim [] items

/-- The parameters of all blocks of a document. -/
def parameters (document : Json) : List Json :=
  (document.itemsOf "blocks".toList).flatMap (itemsOf "parameters".toList)

/-- Is this the text, or null where the text is absent? -/
def isText (t : Option Text) : Json → Bool
  | null => t.isNone
  | string u => t == some u
  | _ => false

/-- Is the key of the parameter the given one? The absent key is null. -/
def hasKey (key : Option Text) (parameter : Json) : Bool :=
  (parameter.field? "key".toList).any (isText key)

/-- The value of the parameter on a line of its own, nothing if it is null. -/
def valueLine (parameter : Json) : Text :=
  match (parameter.field? "value".toList).bind text? with
  | some value => value ++ ['\n']
  | none => []

end Json

theorem Document.parameters_toJson (d : Document) :
    d.toJson.parameters = (d.comments.flatMap Comment.entries).map Entry.toJson := by
  change (d.comments.map Comment.toJson).flatMap (Json.itemsOf "parameters".toList) = _
  rw [List.flatMap_map, List.map_flatMap]
  rfl

theorem Entry.hasKey_toJson (e : Entry) (key : Option Text) :
    e.toJson.hasKey key = (e.key == key) := by
  change (Json.ofOption e.key).isText key = _
  cases e.key <;> cases key <;> simp [Json.ofOption, Json.isText, eq_comm]

theorem Entry.valueLine_toJson (e : Entry) :
    e.toJson.valueLine = e.value.toList.flatMap (· ++ ['\n']) := by
  have hfield : e.toJson.field? "value".toList = some (.ofOption e.value) := rfl
  rw [Json.valueLine, hfield]
  cases e.value with
  | none => rfl
  | some value => exact (List.append_nil _).symm

namespace Command

variable {o o' : Options} {stdin : ByteArray} {fs : FileSystem} {args : List Text}
  {ds : List Document}

/-! ## What a look-up prints -/

theorem flatMap_findValues (es : Entries) (key : Option Text) :
    ((es.findValues key).filterMap id).flatMap (· ++ ['\n']) =
      ((es.map Entry.toJson).filter (Json.hasKey key)).flatMap Json.valueLine := by
  have hhas : (fun e : Entry => e.toJson.hasKey key) = fun e => e.key == key :=
    funext fun e => e.hasKey_toJson key
  have hline : (fun e : Entry => e.toJson.valueLine) =
      fun e => e.value.toList.flatMap (· ++ ['\n']) :=
    funext Entry.valueLine_toJson
  rw [List.filter_map, List.flatMap_map, Function.comp_def, hhas, hline, ← List.flatMap_assoc,
    ← List.filterMap_eq_flatMap_toList, Entries.findValues, List.filterMap_map]
  rfl

/-- **A look-up prints what stands in the documents as JSON.** -/
theorem printValues_eq_parameters (ds : List Document) (key : Option Text) :
    printValues ds key =
      (((ds.map Document.toJson).flatMap Json.parameters).filter (Json.hasKey key)).flatMap
        Json.valueLine := by
  have hparameters : (ds.map Document.toJson).flatMap Json.parameters =
      (ds.flatMap Document.comments).flatMap fun c => c.entries.map Entry.toJson := by
    simp only [List.flatMap_map, Document.parameters_toJson, List.flatMap_assoc, List.map_flatMap]
  rw [hparameters, List.filter_flatMap, List.flatMap_assoc, printValues]
  simp only [flatMap_findValues]

/-- Prose always has a value. -/
theorem exists_value_of_mem_parameters {p : Json}
    (hp : p ∈ (ds.map Document.toJson).flatMap Json.parameters) (hkey : p.hasKey none = true) :
    ∃ value, p.field? "value".toList = some (.string value) := by
  simp only [List.flatMap_map, List.mem_flatMap, Document.parameters_toJson, List.mem_map] at hp
  obtain ⟨d, -, e, ⟨c, -, he⟩, rfl⟩ := hp
  rw [Entry.hasKey_toJson, beq_iff_eq] at hkey
  obtain ⟨value, hvalue⟩ :=
    Option.isSome_iff_exists.1 ((Entry.wellFormed_of_mem_parse he).isSome_value hkey)
  exact ⟨value, congrArg (fun v => some (Json.ofOption v)) hvalue⟩

/-- No entry has a key that is not a word. -/
theorem printValues_of_not_isKey {key : Text} (hkey : ¬ Entry.IsKey key) (ds : List Document) :
    printValues ds (some key) = [] := by
  rw [printValues, List.flatMap_eq_nil_iff]
  intro c _
  have hfind : c.entries.find (some key) = [] := by
    rw [Entries.find, List.filter_eq_nil_iff]
    intro e he heq
    exact hkey ((Entry.wellFormed_of_mem_parse he).isKey key (beq_iff_eq.1 heq))
  rw [Entries.findValues, hfind]
  rfl

/-! ## Two runs -/

/-- The run writes JSON to standard output. -/
structure Options.WritesJson (o : Options) : Prop where
  key : o.key = none
  texts : o.texts = false
  output : o.output = none
  format : Format.ofName? o.format = some .json

theorem inputs_congr (h : o.files = o'.files) (stdin : ByteArray) (fs : FileSystem) :
    inputs o stdin fs = inputs o' stdin fs := by
  rw [inputs, inputs, h]

theorem readMany?_flatMap_json (ds : List Document) :
    Json.readMany? (ds.flatMap Document.json) = some (ds.map Document.toJson) := by
  have hwritten : List.Forall₂ Json.Written (ds.map Document.toJson)
      (ds.map fun d => d.toJson.indented) := by
    rw [List.forall₂_map_left_iff, List.forall₂_map_right_iff, List.forall₂_same]
    exact fun d _ => Json.written_indented d.toJson
  have hread := Json.readMany?_written hwritten
  rwa [List.flatMap_map] at hread

theorem print?_of_lookup (h : o.key.isSome = true ∨ o.texts = true) :
    o.print? = some fun d => printValues [d] o.key := by
  rw [Options.print?, if_pos (by simpa using h)]

theorem Options.WritesJson.print? (h : o.WritesJson) : o.print? = some Document.json := by
  rw [Options.print?, h.key, h.texts, h.format]
  rfl

/-- **A look-up agrees with the JSON output of the same inputs**: it prints the values of those
parameters of the decoded documents that have the key, or null for a look-up of prose, and prose is
never without a value. A key that is not a word is never found. -/
theorem run_lookup (hparse : Options.parse args = .ok o)
    (hlookup : o.key.isSome = true ∨ o.texts = true)
    (hrun : (run args stdin fs).ending = .success) :
    (o.texts = true → o.key = none) ∧
    (∀ args' o', Options.parse args' = .ok o' → o'.files = o.files → o'.WritesJson →
      (run args' stdin fs).ending = .success →
      ∃ documents, Json.readMany? (run args' stdin fs).stdout = some documents ∧
        (run args stdin fs).stdout =
          ((documents.flatMap Json.parameters).filter (Json.hasKey o.key)).flatMap Json.valueLine ∧
        ∀ p ∈ documents.flatMap Json.parameters, p.hasKey none = true →
          ∃ value, p.field? "value".toList = some (.string value)) ∧
      ∀ key, o.key = some key → key = [] ∨ (∃ c ∈ key, Text.isWord c = false) →
        (run args stdin fs).stdout = [] := by
  have hprints : o.Prints := .inl (by simpa using hlookup)
  obtain ⟨ds, hinputs, hstdout⟩ :=
    exists_inputs_of_success hparse hprints (print?_of_lookup hlookup) hrun
  rw [← printValues_eq_flatMap] at hstdout
  refine ⟨fun htexts => ?_, ?_, ?_⟩
  · have hboth := (Options.consistent_of_parse hparse).not_both
    simpa [htexts] using hboth
  · intro args' o' hparse' hfiles hjson hrun'
    obtain ⟨ds', hinputs', hstdout'⟩ :=
      exists_inputs_of_success hparse' (.inr hjson.output) hjson.print? hrun'
    rw [inputs_congr hfiles, hinputs] at hinputs'
    cases hinputs'
    refine ⟨ds.map Document.toJson, ?_, ?_, ?_⟩
    · rw [hstdout', readMany?_flatMap_json]
    · rw [hstdout, printValues_eq_parameters]
    · exact fun p hp hkey => exists_value_of_mem_parameters hp hkey
  · intro key hkey hnot
    rw [hstdout, hkey, printValues_of_not_isKey]
    rintro ⟨hne, hword⟩
    rcases hnot with hnil | ⟨c, hc, hnotword⟩
    · exact hne hnil
    · simp [hword c hc] at hnotword

/-- A tag is looked up in a file, and a key that no tag can have. -/
theorem run_lookup_since :
    let fs : FileSystem := ⟨[(["a.php".toList], .file (encodeText "/**\n * @since 1\n */".toList))],
      ⟨[], []⟩⟩
    let lookup := ["-k", "since", "a.php"].map String.toList
    let dashed := ["-k", "since-when", "a.php"].map String.toList
    let json := ["-f", "json", "a.php"].map String.toList
    (run lookup .empty fs).stdout = "1\n".toList ∧ (run dashed .empty fs).stdout = [] ∧
      ∃ documents, Json.readMany? (run json .empty fs).stdout = some documents ∧
        "1\n".toList = ((documents.flatMap Json.parameters).filter
          (Json.hasKey (some "since".toList))).flatMap Json.valueLine := by
  intro fs lookup dashed json
  let o : Options := ⟨["a.php".toList], none, Options.defaultFormat, some "since".toList, false, []⟩
  let o₁ : Options := { o with key := some "since-when".toList }
  let o₂ : Options := { o with key := none, format := "json".toList }
  have hparse : Options.parse lookup = .ok o := eq_ok_of_toOption (by decide +kernel)
  have hparse₁ : Options.parse dashed = .ok o₁ := eq_ok_of_toOption (by decide +kernel)
  have hparse₂ : Options.parse json = .ok o₂ := eq_ok_of_toOption (by decide +kernel)
  have hrun : (run lookup .empty fs).ending = .success := by decide +kernel
  have hrun₁ : (run dashed .empty fs).ending = .success := by decide +kernel
  have hrun₂ : (run json .empty fs).ending = .success := by decide +kernel
  have hstdout : (run lookup .empty fs).stdout = "1\n".toList := by decide +kernel
  have hjson : o₂.WritesJson := ⟨rfl, rfl, rfl, by decide⟩
  obtain ⟨-, hagrees, -⟩ := run_lookup hparse (.inl rfl) hrun
  obtain ⟨documents, hread, hsame, -⟩ := hagrees json o₂ hparse₂ rfl hjson hrun₂
  obtain ⟨-, -, hnothing⟩ := run_lookup hparse₁ (.inl rfl) hrun₁
  refine ⟨hstdout, hnothing _ rfl (.inr ⟨'-', by decide, by decide +kernel⟩), documents, hread, ?_⟩
  rw [← hstdout]
  exact hsame

end Command

end DocComments
