import Mathlib.Data.List.Forall2
import DocComments.Document.Json
import DocComments.Proofs.Json.Printer
import DocComments.Proofs.Json.Reader

/-!
# JSON output is faithful

What a JSON text has to say about an entry, a comment and a document is stated through the fields
that a reader looks up, by name (`Entry.RepresentedBy`, `Comment.RepresentedBy`,
`Document.RepresentedBy`).

`Document.json_faithful`: the JSON output of any document is one JSON text and a line break, the
value it stands for is no other than `Document.toJson`, which is also what the reader reads, and
that value represents the document. So documents have equal output exactly when they agree on
their source and on the line, the target and the entries of every comment. The same holds of a
single entry, written without space.
-/

namespace DocComments

open Json (Written AllSpace)

/-! ## What a value says -/

/-- The value has the key and the value of the entry, null where they are absent. -/
structure Entry.RepresentedBy (e : Entry) (json : Json) : Prop where
  key : json.field? "key".toList = some (.ofOption e.key)
  value : json.field? "value".toList = some (.ofOption e.value)

/-- The value has the fields of the comment, and the list of its entries. -/
structure Comment.RepresentedBy (c : Comment) (json : Json) : Prop where
  line : json.field? "line".toList = some (.number c.line)
  target : json.field? "target".toList = some (.ofOption c.target)
  title : json.field? "title".toList = some (.ofOption c.entries.title)
  header : json.field? "header".toList = some (.ofOption c.entries.header)
  parameters : ∃ items, json.field? "parameters".toList = some (.array items) ∧
    List.Forall₂ Entry.RepresentedBy c.entries items

/-- The value has the source of the document, and the list of its comments. -/
structure Document.RepresentedBy (d : Document) (json : Json) : Prop where
  source : json.field? "source".toList = some (.string d.source)
  blocks : ∃ items, json.field? "blocks".toList = some (.array items) ∧
    List.Forall₂ Comment.RepresentedBy d.comments items

theorem forall₂_map_of_forall {α β : Type} {R : α → β → Prop} {f : α → β} (h : ∀ a, R a (f a))
    (as : List α) : List.Forall₂ R as (as.map f) :=
  List.forall₂_map_right_iff.2 (List.forall₂_same.2 fun a _ => h a)

theorem Entry.representedBy_toJson (e : Entry) : e.RepresentedBy e.toJson where
  key := rfl
  value := rfl

/-- An absent value is null. -/
example : (Entry.tag "foo".toList none).toJson.compact =
    "\x7b\"key\":\"foo\",\"value\":null\x7d".toList := by decide +kernel

theorem Comment.representedBy_toJson (c : Comment) : c.RepresentedBy c.toJson where
  line := rfl
  target := rfl
  title := rfl
  header := rfl
  parameters := ⟨_, rfl, forall₂_map_of_forall Entry.representedBy_toJson c.entries⟩

theorem Document.representedBy_toJson (d : Document) : d.RepresentedBy d.toJson where
  source := rfl
  blocks := ⟨_, rfl, forall₂_map_of_forall Comment.representedBy_toJson d.comments⟩

/-! ## What a value determines -/

@[simp]
theorem Json.ofOption_inj {o o' : Option Text} : Json.ofOption o = Json.ofOption o' ↔ o = o' := by
  cases o <;> cases o' <;> simp [Json.ofOption]

theorem Entry.RepresentedBy.eq {e e' : Entry} {json : Json} (h : e.RepresentedBy json)
    (h' : e'.RepresentedBy json) : e = e' := by
  have hkey : e.key = e'.key := by simpa using h.key.symm.trans h'.key
  have hvalue : e.value = e'.value := by simpa using h.value.symm.trans h'.value
  cases e
  cases e'
  rw [Entry.mk.injEq]
  exact ⟨hkey, hvalue⟩

/-- Two lists with the same related list are equal, up to what the relation determines. -/
theorem map_eq_map_of_forall₂ {α β γ : Type} {R : α → β → Prop} (f : α → γ)
    (h : ∀ a a' b, R a b → R a' b → f a = f a') {as as' : List α} {bs : List β}
    (has : List.Forall₂ R as bs) (has' : List.Forall₂ R as' bs) : as.map f = as'.map f := by
  induction has generalizing as' with
  | nil => rw [List.forall₂_nil_right_iff.1 has']
  | @cons a b as bs hab has ih =>
    cases has' with
    | @cons a' b as' bs hab' has' =>
      rw [List.map_cons, List.map_cons, h a a' b hab hab', ih has']

theorem map_eq_map_iff_forall₂ {α β : Type} (f : α → β) {as as' : List α} :
    as.map f = as'.map f ↔ List.Forall₂ (fun a a' => f a = f a') as as' := by
  rw [← List.forall₂_eq_eq_eq, List.forall₂_map_left_iff, List.forall₂_map_right_iff]

/-- What the JSON output keeps of a comment. -/
def Comment.shown (c : Comment) : Nat × Option Text × Entries :=
  (c.line, c.target, c.entries)

theorem Comment.RepresentedBy.shown_eq {c c' : Comment} {json : Json} (h : c.RepresentedBy json)
    (h' : c'.RepresentedBy json) : c.shown = c'.shown := by
  have hline : c.line = c'.line := by simpa using h.line.symm.trans h'.line
  have htarget : c.target = c'.target := by simpa using h.target.symm.trans h'.target
  obtain ⟨items, hitems, hall⟩ := h.parameters
  obtain ⟨items', hitems', hall'⟩ := h'.parameters
  obtain rfl : items = items' := by simpa using hitems.symm.trans hitems'
  have hentries := map_eq_map_of_forall₂ id (fun _ _ _ h h' => h.eq h') hall hall'
  rw [List.map_id, List.map_id] at hentries
  rw [Comment.shown, Comment.shown, hline, htarget, hentries]

theorem Document.RepresentedBy.shown_eq {d d' : Document} {json : Json} (h : d.RepresentedBy json)
    (h' : d'.RepresentedBy json) :
    d.source = d'.source ∧ d.comments.map Comment.shown = d'.comments.map Comment.shown := by
  have hsource := h.source.symm.trans h'.source
  obtain ⟨items, hitems, hall⟩ := h.blocks
  obtain ⟨items', hitems', hall'⟩ := h'.blocks
  obtain rfl : items = items' := by simpa using hitems.symm.trans hitems'
  refine ⟨by simpa using hsource, ?_⟩
  exact map_eq_map_of_forall₂ Comment.shown (fun _ _ _ h h' => h.shown_eq h') hall hall'

theorem Comment.toJson_congr {c c' : Comment} (h : c.shown = c'.shown) : c.toJson = c'.toJson := by
  simp only [Comment.shown, Prod.mk.injEq] at h
  obtain ⟨hline, htarget, hentries⟩ := h
  rw [Comment.toJson, Comment.toJson, hline, htarget, hentries]

/-- What a document shows is all that its output depends on. -/
theorem Document.toJson_congr {d d' : Document} (hsource : d.source = d'.source)
    (hshown : d.comments.map Comment.shown = d'.comments.map Comment.shown) :
    d.toJson = d'.toJson := by
  have hall := (map_eq_map_iff_forall₂ Comment.shown).1 hshown
  have hblocks : d.comments.map Comment.toJson = d'.comments.map Comment.toJson :=
    (map_eq_map_iff_forall₂ Comment.toJson).2 (hall.imp fun _ _ => Comment.toJson_congr)
  rw [Document.toJson, Document.toJson, hsource, hblocks]

/-! ## The output -/

theorem Json.read?_compact (v : Json) : Json.read? v.compact = some v := by
  have hread := Json.read?_written .nil (Json.written_compact v) .nil
  rwa [List.nil_append, List.append_nil] at hread

theorem Document.read?_json (d : Document) : Json.read? d.json = some d.toJson := by
  have hnewline : AllSpace ['\n'] := by decide
  have hread := Json.read?_written .nil (Json.written_indented d.toJson) hnewline
  rwa [List.nil_append] at hread

theorem Document.json_eq_iff (d d' : Document) :
    d.json = d'.json ↔
      d.source = d'.source ∧ d.comments.map Comment.shown = d'.comments.map Comment.shown := by
  constructor
  · intro h
    have hread := d.read?_json
    rw [h, d'.read?_json] at hread
    have hd := d.representedBy_toJson
    rw [← Option.some.inj hread] at hd
    exact hd.shown_eq d'.representedBy_toJson
  · rintro ⟨hsource, hshown⟩
    rw [Document.json, Document.json, Document.toJson_congr hsource hshown]

theorem Entry.compact_toJson_eq_iff (e e' : Entry) :
    e.toJson.compact = e'.toJson.compact ↔ e = e' := by
  constructor
  · intro h
    have hread := Json.read?_compact e.toJson
    rw [h, Json.read?_compact] at hread
    have he := e.representedBy_toJson
    rw [← Option.some.inj hread] at he
    exact he.eq e'.representedBy_toJson
  · rintro rfl
    rfl

/-- **JSON output is faithful.** A document is written as one JSON text and a line break, and the
text stands for one value only, which represents the document; so two documents with the same
output show the same. An entry on its own is written as one JSON text in the same way. -/
theorem Document.json_faithful :
    (∀ d : Document, ∃ t, d.json = t ++ ['\n'] ∧ (∀ v, Written v t ↔ v = d.toJson) ∧
      Json.read? d.json = some d.toJson ∧ d.RepresentedBy d.toJson) ∧
    (∀ d d' : Document, d.json = d'.json ↔
      d.source = d'.source ∧ d.comments.map Comment.shown = d'.comments.map Comment.shown) ∧
    (∀ e : Entry, (∀ v, Written v e.toJson.compact ↔ v = e.toJson) ∧
      Json.read? e.toJson.compact = some e.toJson ∧ e.RepresentedBy e.toJson) ∧
    ∀ e e' : Entry, e.toJson.compact = e'.toJson.compact ↔ e = e' := by
  refine ⟨fun d => ?_, Document.json_eq_iff, fun e => ?_, Entry.compact_toJson_eq_iff⟩
  · exact ⟨d.toJson.indented, rfl, fun _ => (Json.written_indented d.toJson).iff_eq, d.read?_json,
      d.representedBy_toJson⟩
  · exact ⟨fun _ => (Json.written_compact e.toJson).iff_eq, Json.read?_compact e.toJson,
      e.representedBy_toJson⟩

end DocComments
