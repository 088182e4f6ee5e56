import DocComments.Proofs.Command.Stages
import Mathlib.Data.Prod.Lex

/-!
# The check of the tags that comments must have

The check goes through the documents, in each through the comments, and for each through the keys,
and ends at the first tag that is missing. So it is done exactly if every comment has every tag,
for which the order of the keys and their repetition do not matter; only the failure names the
first missing tag, by the position of its document, then of its comment, then of its key.

* `checkRequired_eq_ok_iff_forall` says when the check is done.
* `Demand.IsFirstUnmet` is the demand that it ends at, and `checkRequired_eq_error_iff_isFirstUnmet`
  shows that.
* `runOptions_without_require`: a run that succeeds comes to the same without the check.
* `run_require` puts the results together.
-/

namespace DocComments.Command

variable {o : Options} {stdin : ByteArray} {fs : FileSystem} {f : Failure} {args : List Text}
  {ds : List Document} {keys keys' : List Text}

/-! ## When the check is done -/

theorem checkRequired_eq_ok_iff_forall :
    checkRequired ds keys = .ok () ↔
      ∀ d ∈ ds, ∀ c ∈ d.comments, ∀ key ∈ keys, ∃ e ∈ c.entries, e.key = some key := by
  rw [checkRequired_eq_ok_iff]
  constructor
  · exact fun h d hd c hc key hkey => h ⟨d, c, key⟩ (mem_demands.2 ⟨hd, hc, hkey⟩)
  · intro h r hr
    obtain ⟨hd, hc, hkey⟩ := mem_demands.1 hr
    exact h r.document hd r.comment hc r.key hkey

/-- The order of the keys and their repetition do not matter. -/
theorem checkRequired_eq_ok_congr (h : ∀ key, key ∈ keys' ↔ key ∈ keys) :
    checkRequired ds keys' = .ok () ↔ checkRequired ds keys = .ok () := by
  simp only [checkRequired_eq_ok_iff_forall, h]

/-- Each key can be checked on its own. -/
theorem checkRequired_eq_ok_iff_singletons :
    checkRequired ds keys = .ok () ↔ ∀ key ∈ keys, checkRequired ds [key] = .ok () := by
  simp only [checkRequired_eq_ok_iff_forall, List.mem_singleton, forall_eq]
  exact ⟨fun h key hkey d hd c hc => h d hd c hc key hkey,
    fun h d hd c hc key hkey => h key hkey d hd c hc⟩

theorem checkRequired_nil (ds : List Document) : checkRequired ds [] = .ok () :=
  checkRequired_eq_ok_iff_forall.2 fun _ _ _ _ => List.forall_mem_nil _

/-! ## Where it ends -/

namespace Demand

/-- The demand is the one of the document, the comment and the key of these numbers. -/
def StandsAt (ds : List Document) (keys : List Text) (p : ℕ × ℕ × ℕ) (r : Demand) : Prop :=
  ds[p.1]? = some r.document ∧ r.document.comments[p.2.1]? = some r.comment ∧
    keys[p.2.2]? = some r.key

/-- The one position comes before the other: its document does, or in the same document its comment
does, or for the same comment its key does. -/
def Precedes : ℕ × ℕ × ℕ → ℕ × ℕ × ℕ → Prop :=
  Prod.Lex (· < ·) (Prod.Lex (· < ·) (· < ·))

/-- The demand is not met, and all that stand before it are. -/
def IsFirstUnmet (ds : List Document) (keys : List Text) (r : Demand) : Prop :=
  ∃ p, r.StandsAt ds keys p ∧ ¬ r.Met ∧
    ∀ q, Precedes q p → ∀ r' : Demand, r'.StandsAt ds keys q → r'.Met

theorem precedes_iff {i i' j j' k k' : ℕ} :
    Precedes (i', j', k') (i, j, k) ↔ i' < i ∨ i' = i ∧ (j' < j ∨ j' = j ∧ k' < k) := by
  rw [Precedes, Prod.lex_def, Prod.lex_def]

end Demand

open Demand

/-- The check of one comment ends at the first key that it has no tag of. -/
theorem failsFirst_keys_iff {d : Document} {c : Comment} :
    FailsFirst check (keys.map fun key => ⟨d, c, key⟩) f ↔
      ∃ (k : ℕ) (key : Text), keys[k]? = some key ∧ ¬ Met ⟨d, c, key⟩ ∧
        f = failure ⟨d, c, key⟩ ∧ ∀ k' < k, ∀ key', keys[k']? = some key' → Met ⟨d, c, key'⟩ := by
  rw [failsFirst_iff_getElem?]
  simp only [List.getElem?_map, check_eq_error_iff, exists_check_eq_ok_iff]
  constructor
  · rintro ⟨k, r, hr, ⟨hmet, hf⟩, hbefore⟩
    obtain ⟨key, hkey, rfl⟩ := Option.map_eq_some_iff.1 hr
    refine ⟨k, key, hkey, hmet, hf, fun k' hk' key' hkey' => hbefore k' hk' _ ?_⟩
    rw [hkey']
    rfl
  · rintro ⟨k, key, hkey, hmet, hf, hbefore⟩
    refine ⟨k, ⟨d, c, key⟩, by rw [hkey]; rfl, ⟨hmet, hf⟩, fun k' hk' r hr => ?_⟩
    obtain ⟨key', hkey', rfl⟩ := Option.map_eq_some_iff.1 hr
    exact hbefore k' hk' key' hkey'

/-- **The check ends at the first demand that is not met**, in the order of the documents, then of
their comments, then of the keys. -/
theorem checkRequired_eq_error_iff_isFirstUnmet :
    checkRequired ds keys = .error f ↔ ∃ r : Demand, r.IsFirstUnmet ds keys ∧ f = r.failure := by
  rw [checkRequired_eq_forM, forM_eq_error_iff, demands]
  simp only [failsFirst_flatMap_iff, failsFirst_keys_iff, exists_check_eq_ok_iff, List.mem_flatMap,
    List.mem_map]
  constructor
  · rintro ⟨i, d, hd, ⟨j, c, hc, ⟨k, key, hkey, hmet, hf, hkeys⟩, hcomments⟩, hdocuments⟩
    refine ⟨⟨d, c, key⟩, ⟨(i, j, k), ⟨hd, hc, hkey⟩, hmet, ?_⟩, hf⟩
    rintro ⟨i', j', k'⟩ hlex ⟨d', c', key'⟩ ⟨hd', hc', hkey'⟩
    have hmem := List.mem_of_getElem? hkey'
    -- the earlier demand is of an earlier document, comment or key
    rcases precedes_iff.1 hlex with hi | ⟨rfl, hj | ⟨rfl, hk⟩⟩
    · exact hdocuments i' hi d' hd' _ ⟨c', List.mem_of_getElem? hc', key', hmem, rfl⟩
    · cases hd.symm.trans hd'
      exact hcomments j' hj c' hc' _ ⟨key', hmem, rfl⟩
    · cases hd.symm.trans hd'
      cases hc.symm.trans hc'
      exact hkeys k' hk key' hkey'
  · rintro ⟨⟨d, c, key⟩, ⟨⟨i, j, k⟩, ⟨hd, hc, hkey⟩, hmet, hbefore⟩, hf⟩
    refine ⟨i, d, hd, ⟨j, c, hc, ⟨k, key, hkey, hmet, hf, ?_⟩, ?_⟩, ?_⟩
    · intro k' hk' key' hkey'
      exact hbefore (i, j, k') (precedes_iff.2 (.inr ⟨rfl, .inr ⟨rfl, hk'⟩⟩)) _ ⟨hd, hc, hkey'⟩
    · rintro j' hj' c' hc' _ ⟨key', hkey', rfl⟩
      obtain ⟨k', hk'⟩ := List.mem_iff_getElem?.1 hkey'
      exact hbefore (i, j', k') (precedes_iff.2 (.inr ⟨rfl, .inl hj'⟩)) _ ⟨hd, hc', hk'⟩
    · rintro i' hi' d' hd' _ ⟨c', hc', key', hkey', rfl⟩
      obtain ⟨j', hj'⟩ := List.mem_iff_getElem?.1 hc'
      obtain ⟨k', hk'⟩ := List.mem_iff_getElem?.1 hkey'
      exact hbefore (i', j', k') (precedes_iff.2 (.inl hi')) _ ⟨hd', hj', hk'⟩

/-! ## Runs without the check -/

/-- **A run that succeeds comes to the same without the check.** -/
theorem runOptions_without_require (h : (runOptions o stdin fs).ending = .success) :
    runOptions { o with require := [] } stdin fs = runOptions o stdin fs := by
  have hinputs : inputs { o with require := [] } stdin fs = inputs o stdin fs := rfl
  cases hds : (inputs o stdin fs).2 with
  | error f =>
    rw [runOptions_of_inputs_eq_error hds] at h
    cases h
  | ok ds =>
    rw [runOptions_of_inputs_eq_ok hds] at h ⊢
    rw [runOptions_of_inputs_eq_ok (hinputs ▸ hds), checkRequired_nil]
    cases hcheck : checkRequired ds o.require with
    | error f =>
      rw [hcheck] at h
      cases h
    | ok u => rfl

/-- The second arguments are the first without those that demand a tag. -/
def LeavesOutRequire (args args' : List Text) : Prop :=
  ∃ items, Item.readAll none args = .ok items ∧
    Item.readAll none args' = .ok (Item.besides .require items)

theorem run_of_leavesOutRequire {args' : List Text} (h : LeavesOutRequire args args')
    (hsuccess : (run args stdin fs).ending = .success) :
    run args' stdin fs = run args stdin fs := by
  obtain ⟨items, hitems, hitems'⟩ := h
  cases hparse : Options.parse args with
  | error e =>
    rw [run, hparse] at hsuccess
    cases hsuccess
  | ok o =>
    have hof := (Options.parse_eq_ofItems hitems).symm.trans hparse
    have hparse' := (Options.parse_eq_ofItems hitems').trans (Options.ofItems_besides_require hof)
    rw [run_of_parse hparse] at hsuccess
    rw [run_of_parse hparse, run_of_parse hparse']
    exact runOptions_without_require hsuccess

/-- **The tags that comments must have.** The check is done exactly if every comment of every
document has a tag of every key, with a value or without; so only the set of the keys matters, and
each key can be checked alone. Otherwise the failure names the first tag that is missing, with the
source and the line of its comment. And a run that succeeds prints, warns and writes the same
without the check. -/
theorem run_require (ds : List Document) (keys : List Text) :
    (checkRequired ds keys = .ok () ↔
        ∀ d ∈ ds, ∀ c ∈ d.comments, ∀ key ∈ keys, ∃ e ∈ c.entries, e.key = some key) ∧
      (∀ keys', (∀ key, key ∈ keys' ↔ key ∈ keys) →
        (checkRequired ds keys' = .ok () ↔ checkRequired ds keys = .ok ())) ∧
      (checkRequired ds keys = .ok () ↔ ∀ key ∈ keys, checkRequired ds [key] = .ok ()) ∧
      (∀ f, checkRequired ds keys = .error f ↔ ∃ r : Demand, r.IsFirstUnmet ds keys ∧
        f = .missingTag r.document.source r.comment.line r.key (.notFound (some r.key)) ∧
        f.message = r.document.source ++ ':' :: Text.ofNat r.comment.line ++
          ": missing required @".toList ++ r.key ∧
        f.cause? = some ("docblock key '".toList ++ r.key ++ "' not found".toList)) ∧
      (∀ o stdin fs, (runOptions o stdin fs).ending = .success →
        runOptions { o with require := [] } stdin fs = runOptions o stdin fs) ∧
      (∀ args args' stdin fs, LeavesOutRequire args args' →
        (run args stdin fs).ending = .success → run args' stdin fs = run args stdin fs) := by
  refine ⟨checkRequired_eq_ok_iff_forall, fun keys' => checkRequired_eq_ok_congr,
    checkRequired_eq_ok_iff_singletons, fun f => ?_, fun o stdin fs => runOptions_without_require,
    fun args args' stdin fs => run_of_leavesOutRequire⟩
  rw [checkRequired_eq_error_iff_isFirstUnmet]
  constructor
  · rintro ⟨r, hr, rfl⟩
    exact ⟨r, hr, rfl, rfl, rfl⟩
  · rintro ⟨r, hr, hf, -, -⟩
    exact ⟨r, hr, hf⟩

/-- The second of two comments lacks a tag, which the first has without a value; and the documents
are written with the check and without it. -/
theorem run_require_since :
    let c₁ : Comment := ⟨1, "/**\n * @since\n * @api x\n */".toList, none⟩
    let c₂ : Comment := ⟨5, "/** @api */".toList, none⟩
    let keys := ["api".toList, "since".toList]
    let fs : FileSystem := ⟨[(["a.php".toList], .file (encodeText "/** @since */".toList))],
      ⟨[], []⟩⟩
    let args := ["-ftext", "--require", "since", "a.php", "--require=since"].map String.toList
    checkRequired [⟨"a.php".toList, [c₁, c₂]⟩] keys = .error
        (.missingTag "a.php".toList 5 "since".toList (.notFound (some "since".toList))) ∧
      checkRequired [⟨"a.php".toList, [c₁]⟩] keys.reverse = .ok () ∧
      (run args .empty fs).stdout = "a.php:1\n@since\n\n".toList ∧
      run (["-ftext", "a.php"].map String.toList) .empty fs = run args .empty fs := by
  intro c₁ c₂ keys fs args
  have hmet : ∀ key ∈ keys, ∃ e ∈ c₁.entries, e.key = some key := by decide +kernel
  have hapi : ∃ e ∈ c₂.entries, e.key = some "api".toList := by decide +kernel
  have hsince : ¬ ∃ e ∈ c₂.entries, e.key = some "since".toList := by decide +kernel
  obtain ⟨-, -, -, herror, -, hrun⟩ := run_require [⟨"a.php".toList, [c₁, c₂]⟩] keys
  obtain ⟨hok, hkeys, -⟩ := run_require [⟨"a.php".toList, [c₁]⟩] keys
  refine ⟨(herror _).2 ⟨⟨⟨"a.php".toList, [c₁, c₂]⟩, c₂, "since".toList⟩, ?_, rfl, rfl, rfl⟩, ?_,
    by decide +kernel, hrun args _ .empty fs ?_ (by decide +kernel)⟩
  · refine ⟨(0, 1, 1), ⟨rfl, rfl, rfl⟩, hsince, ?_⟩
    rintro ⟨i, j, k⟩ hlex ⟨d, c, key⟩ ⟨hd, hc, hkey⟩
    rcases precedes_iff.1 hlex with hi | ⟨rfl, hj | ⟨rfl, hk⟩⟩
    · exact absurd hi (Nat.not_lt_zero i)
    · cases hd
      obtain rfl := Nat.lt_one_iff.1 hj
      obtain rfl : c = c₁ := (Option.some.inj hc).symm
      exact hmet key (List.mem_of_getElem? hkey)
    · cases hd
      obtain rfl : c = c₂ := (Option.some.inj hc).symm
      obtain rfl := Nat.lt_one_iff.1 hk
      cases hkey
      exact hapi
  · refine (hkeys keys.reverse fun key => List.mem_reverse).2 (hok.2 ?_)
    simpa using hmet
  · exact ⟨[.setting .format "text".toList, .setting .require "since".toList,
      .file "a.php".toList, .setting .require "since".toList],
      eq_ok_of_toOption (by decide +kernel), eq_ok_of_toOption (by decide +kernel)⟩

end DocComments.Command
