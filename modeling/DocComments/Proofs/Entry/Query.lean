import DocComments.Entry.Query
import DocComments.Proofs.Entry.WellFormed
import Mathlib.Data.List.Dedup

/-!
# Look-ups agree with one another

Every look-up is an answer about the same entries: those with the key, in their order. The first of
them, their values and the failures follow from that list. The keys divide the entries of a comment
among them, and since prose is never without a value, the paragraphs and the tags make up all of it.

* `Entries.Agrees es key` says how the look-ups of one key fit together, `Entries.agrees` that they
  do so in any entries.
* `Entries.Divided es` says how the entries fall into the finds of their keys, and into paragraphs
  and tags; `ProseHasValue.divided` derives it from what every comment satisfies.
* `Entry.lookups_parse` states both for the entries of a comment.
-/

namespace DocComments

theorem Entry.isProse_iff {e : Entry} : e.isProse = true ↔ e.key = none :=
  Option.isNone_iff_eq_none

namespace Entries

variable {es : Entries} {key : Option Text} {e : Entry}

/-! ## The look-ups of one key -/

theorem mem_find : e ∈ es.find key ↔ e ∈ es ∧ e.key = key := by
  rw [find, List.mem_filter, beq_iff_eq]

theorem find_sublist (es : Entries) (key : Option Text) : (es.find key).Sublist es :=
  List.filter_sublist

/-- Entries with the key are found as often as they occur, and no others. -/
theorem count_find (es : Entries) (key : Option Text) (e : Entry) :
    (es.find key).count e = if e.key = key then es.count e else 0 := by
  split
  · next hkey => exact List.count_filter (by simpa using hkey)
  · next hkey => exact List.count_eq_zero.2 fun he => hkey (mem_find.1 he).2

theorem first_eq_head? (es : Entries) (key : Option Text) : es.first key = (es.find key).head? :=
  List.head?_filter.symm

theorem firstValue_eq_join (es : Entries) (key : Option Text) :
    es.firstValue key = (es.findValues key).head?.join := by
  rw [firstValue, first_eq_head?, findValues, List.head?_map]
  cases (es.find key).head? <;> rfl

theorem firstValue_eq_none_iff : es.firstValue key = none ↔
    es.find key = [] ∨ ∃ e, (es.find key).head? = some e ∧ e.value = none := by
  rw [firstValue, first_eq_head?]
  cases es.find key <;> simp

/-- The look-ups of one key agree: each is told from the entries that have the key. -/
structure Agrees (es : Entries) (key : Option Text) : Prop where
  /-- The entries found stand in their order. -/
  find_sublist : (es.find key).Sublist es
  /-- The entries with the key are found, each as often as it occurs, and no others. -/
  count_find : ∀ e, (es.find key).count e = if e.key = key then es.count e else 0
  /-- There are as many values as entries found. -/
  length_findValues : (es.findValues key).length = (es.find key).length
  /-- Each value is that of the entry at its index. -/
  getElem?_findValues : ∀ i : ℕ, (es.findValues key)[i]? = ((es.find key)[i]?).map Entry.value
  /-- The first entry is the head of the entries found. -/
  first : es.first key = (es.find key).head?
  /-- The first value is the head of the values, absent also where that head is absent. -/
  firstValue : es.firstValue key = (es.findValues key).head?.join
  /-- A look-up of all entries fails if there is none, and names the key. -/
  findOrFail_error : ∀ err, es.findOrFail key = .error err ↔
    es.find key = [] ∧ err = .notFound key
  /-- Otherwise it gives what is found. -/
  findOrFail_ok : ∀ found, es.findOrFail key = .ok found ↔ found ≠ [] ∧ es.find key = found
  /-- A look-up of the first entry fails if there is none, and names the key. -/
  firstOrFail_error : ∀ err, es.firstOrFail key = .error err ↔
    es.find key = [] ∧ err = .notFound key
  /-- Otherwise it gives the first entry. -/
  firstOrFail_ok : ∀ e, es.firstOrFail key = .ok e ↔ es.first key = some e
  /-- A look-up of the first value fails also if the first entry has none, whatever a later one
  has. -/
  firstValueOrFail_error : ∀ err, es.firstValueOrFail key = .error err ↔
    (es.find key = [] ∨ ∃ e, (es.find key).head? = some e ∧ e.value = none) ∧
      err = .notFound key
  /-- Otherwise it gives the first value. -/
  firstValueOrFail_ok : ∀ value, es.firstValueOrFail key = .ok value ↔
    es.firstValue key = some value

/-- **The look-ups of one key agree**, in any entries. -/
theorem agrees (es : Entries) (key : Option Text) : es.Agrees key where
  find_sublist := es.find_sublist key
  count_find := es.count_find key
  length_findValues := List.length_map ..
  getElem?_findValues _ := List.getElem?_map ..
  first := es.first_eq_head? key
  firstValue := es.firstValue_eq_join key
  findOrFail_error err := by
    unfold findOrFail
    cases es.find key <;> simp [eq_comm]
  findOrFail_ok found := by
    unfold findOrFail
    cases es.find key with
    | nil => simp [eq_comm]
    | cons e rest =>
      rw [Except.ok.injEq, iff_and_self]
      rintro rfl
      exact List.cons_ne_nil e rest
  firstOrFail_error err := by
    rw [firstOrFail, first_eq_head?]
    cases es.find key <;> simp [eq_comm]
  firstOrFail_ok e := by
    unfold firstOrFail
    cases es.first key <;> simp
  firstValueOrFail_error err := by
    rw [← firstValue_eq_none_iff]
    unfold firstValueOrFail
    cases es.firstValue key <;> simp [eq_comm]
  firstValueOrFail_ok value := by
    unfold firstValueOrFail
    cases es.firstValue key <;> simp

/-! ## Prose and its values -/

/-- No paragraph of prose is without its text. -/
def ProseHasValue (es : Entries) : Prop :=
  ∀ e ∈ es, e.isProse = true → e.value.isSome

theorem proseHasValue_parse (raw : Text) : ProseHasValue (Entry.parse raw) :=
  fun _ he hprose => (Entry.wellFormed_of_mem_parse he).isSome_value (Entry.isProse_iff.1 hprose)

/-- Where no value is absent, none is left out. -/
theorem map_some_filterMap_value (h : ∀ e ∈ es, e.value.isSome) :
    (es.filterMap Entry.value).map some = es.map Entry.value := by
  induction es with
  | nil => rfl
  | cons e es ih =>
    obtain ⟨he, hes⟩ := List.forall_mem_cons.1 h
    obtain ⟨value, hvalue⟩ := Option.isSome_iff_exists.1 he
    rw [List.filterMap_cons_some hvalue, List.map_cons, List.map_cons, ih hes, hvalue]

theorem find_none (es : Entries) : es.find none = es.filter Entry.isProse :=
  List.filter_congr fun e _ => by cases h : e.key <;> simp [Entry.isProse, h]

theorem ProseHasValue.map_some_texts (h : es.ProseHasValue) :
    es.texts.map some = es.findValues none := by
  refine map_some_filterMap_value fun e he => ?_
  obtain ⟨hmem, hkey⟩ := mem_find.1 he
  exact h e hmem (Entry.isProse_iff.2 hkey)

theorem ProseHasValue.length_texts (h : es.ProseHasValue) :
    es.texts.length = (es.find none).length := by
  rw [← List.length_map some, h.map_some_texts, findValues, List.length_map]

/-! ## Dividing the entries -/

/-- The keys of the tags, each once. -/
def keys (es : Entries) : List Text :=
  (es.filterMap Entry.key).dedup

/-- What entries are looked up by: the absent key and each key of a tag. -/
def lookupKeys (es : Entries) : List (Option Text) :=
  none :: es.keys.map some

theorem nodup_lookupKeys (es : Entries) : es.lookupKeys.Nodup := by
  rw [lookupKeys, List.nodup_cons]
  exact ⟨by simp, (List.nodup_dedup _).map fun _ _ => Option.some.inj⟩

theorem mem_lookupKeys : key ∈ es.lookupKeys ↔ key = none ∨ ∃ e ∈ es, e.key = key := by
  rw [lookupKeys, List.mem_cons]
  cases key <;> simp [keys]

theorem key_mem_lookupKeys (he : e ∈ es) : e.key ∈ es.lookupKeys :=
  mem_lookupKeys.2 (.inr ⟨e, he, rfl⟩)

/-- Distinct keys find an entry as often as it occurs, if its key is among them. -/
theorem count_flatMap_find {keys : List (Option Text)} (hkeys : keys.Nodup) (es : Entries)
    (e : Entry) :
    (keys.flatMap es.find).count e = if e.key ∈ keys then es.count e else 0 := by
  induction keys with
  | nil => rfl
  | cons key keys ih =>
    obtain ⟨hkey, hkeys⟩ := List.nodup_cons.1 hkeys
    rw [List.flatMap_cons, List.count_append, count_find, ih hkeys]
    by_cases he : e.key = key
    · rw [if_pos he, if_neg (he ▸ hkey), if_pos (he ▸ List.mem_cons_self ..), Nat.add_zero]
    · rw [if_neg he, Nat.zero_add]
      simp only [List.mem_cons, he, false_or]

/-- **The finds of all keys hold every entry as often as it occurs.** -/
theorem perm_flatMap_find (es : Entries) : (es.lookupKeys.flatMap es.find).Perm es := by
  rw [List.perm_iff_count]
  intro e
  rw [count_flatMap_find es.nodup_lookupKeys]
  split
  · rfl
  · next hkey => exact (List.count_eq_zero.2 fun he => hkey (key_mem_lookupKeys he)).symm

/-- The tags are what is not found as prose. -/
theorem tags_eq_filter_not_mem (es : Entries) : es.tags = es.filter (· ∉ es.find none) := by
  refine List.filter_congr fun e he => ?_
  have hprose : e ∈ es.find none ↔ e.isProse = true := by
    rw [mem_find, Entry.isProse_iff, and_iff_right he]
  simp [Entry.isTag_eq_not_isProse, hprose]

/-- The entries fall into the finds of their keys, and into paragraphs and tags. -/
structure Divided (es : Entries) : Prop where
  /-- The keys are told apart. -/
  nodup_lookupKeys : es.lookupKeys.Nodup
  /-- The keys are the absent one and those of the entries. -/
  mem_lookupKeys : ∀ key, key ∈ es.lookupKeys ↔ key = none ∨ ∃ e ∈ es, e.key = key
  /-- Each entry is found under one key. -/
  existsUnique_key : ∀ e ∈ es, ∃! key, key ∈ es.lookupKeys ∧ e ∈ es.find key
  /-- Entries that are equal are all found. -/
  perm_find : (es.lookupKeys.flatMap es.find).Perm es
  /-- The texts are the values of the prose, and none of them is missing. -/
  findValues_none : es.findValues none = es.texts.map some
  /-- The tags are the entries that are not prose. -/
  tags : es.tags = es.filter (· ∉ es.find none)
  /-- The texts and the tags make up the entries. -/
  length_add_length : es.texts.length + es.tags.length = es.length

/-- **The entries are divided among their keys**, where prose has a value. -/
theorem ProseHasValue.divided (h : es.ProseHasValue) : es.Divided where
  nodup_lookupKeys := es.nodup_lookupKeys
  mem_lookupKeys _ := Entries.mem_lookupKeys
  existsUnique_key e he := by
    refine ⟨e.key, ⟨key_mem_lookupKeys he, mem_find.2 ⟨he, rfl⟩⟩, ?_⟩
    rintro key ⟨-, hfind⟩
    exact (mem_find.1 hfind).2.symm
  perm_find := es.perm_flatMap_find
  findValues_none := h.map_some_texts.symm
  tags := es.tags_eq_filter_not_mem
  length_add_length := by
    have htags : es.tags = es.filter fun e => !e.isProse :=
      List.filter_congr fun e _ => e.isTag_eq_not_isProse
    rw [h.length_texts, find_none, htags, ← List.length_eq_length_filter_add]

end Entries

/-- **The look-ups of a comment agree**, for every key, and its entries are divided among the
keys. -/
theorem Entry.lookups_parse (raw : Text) :
    (∀ key, Entries.Agrees (parse raw) key) ∧ Entries.Divided (parse raw) :=
  ⟨Entries.agrees (parse raw), (Entries.proseHasValue_parse raw).divided⟩

/-- A key that occurs twice, without a value the first time. -/
example :
    let es := Entry.parse " * a\n * @b\n * @c\n * @b d".toList
    es.findValues (some ['b']) = [none, some ['d']] ∧
      (es.firstValueOrFail (some ['b'])).toOption = none := by decide +kernel

end DocComments
