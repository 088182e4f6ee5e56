import DocComments.Proofs.Entry.Grouping

/-!
# The collector line by line

What the collector shows between two lines is settled by very little: a line completes the draft
unless it is prose, and leaves a draft unless it is blank. So the complete entries only grow at
their end, by at most one entry a line, and an entry is open exactly after a line that is not blank.

* `toList_entries_step`, `isPending_step` and `finish_eq` say this of one line and of the end.
* `after ls i` is the state after the first `i` lines, and `length_finish_foldl_feed` counts the
  entries of all lines by the lines that open one.
* `Collector.streaming` states it for every number of lines.
-/

namespace DocComments

open Text Line

namespace Collector

variable {c : Collector} {l : Line} {line : Text} {ls : List Text} {i : ℕ}

/-! ## One line -/

/-- The entry that the line completes: the one that is open, unless the line goes on with it. -/
def completed? (c : Collector) : Line → Option Entry
  | .prose _ => none
  | _ => c.draft.map Draft.toEntry

/-- **A line completes at most one entry**, and leaves the entries before it as they are. -/
theorem toList_entries_step (c : Collector) (l : Line) :
    (c.step l).entries.toList = c.entries.toList ++ (c.completed? l).toList := by
  cases l <;> cases hd : c.draft <;> simp [step, close, completed?, hd]

/-- **A line leaves an open entry exactly if it is not blank.** -/
theorem isPending_step : (c.step l).isPending = true ↔ l ≠ .blank := by
  cases l with
  | blank => simp [step]
  | tag key value => simp [step, isPending]
  | prose content => simp [step, isPending]

/-- **The end completes the open entry**, if there is one. -/
theorem finish_eq (c : Collector) :
    c.finish = c.entries.toList ++ (c.draft.map Draft.toEntry).toList := by
  cases hd : c.draft <;> simp [finish, close, hd]

theorem isPending_feed : (c.feed line).isPending = true ↔ ¬ IsBlank line := by
  rw [feed, isPending_step, ne_eq, ofText_eq_blank_iff]

theorem isSome_completed?_ofText :
    (c.completed? (ofText line)).isSome = true ↔
      c.isPending = true ∧ (IsBlank line ∨ OpensTag line) := by
  have h := ofText_spec line
  split at h <;> simp_all [completed?, isPending, IsProse]

/-! ## Any number of lines -/

/-- The state after the first `i` lines. -/
def after (ls : List Text) (i : ℕ) : Collector :=
  (ls.take i).foldl feed empty

theorem after_succ (hi : i < ls.length) : after ls (i + 1) = (after ls i).feed ls[i] := by
  rw [after, List.take_succ_eq_append_getElem hi, List.foldl_append]
  rfl

/-- An entry is open exactly after a last line that is not blank. -/
theorem isPending_foldl_feed (ls : List Text) :
    (ls.foldl feed empty).isPending = true ↔ ∃ line ∈ ls.getLast?, ¬ IsBlank line := by
  induction ls using List.reverseRecOn with
  | nil => simp [empty, isPending]
  | append_singleton ls line _ =>
    rw [List.foldl_append, List.foldl_cons, List.foldl_nil, isPending_feed]
    simp

theorem draft_foldl_feed_eq_none_iff (ls : List Text) :
    (ls.foldl feed empty).draft = none ↔ ls = [] ∨ ∃ l ∈ ls.getLast?, IsBlank l := by
  have hpending := isPending_foldl_feed ls
  rw [isPending, Option.isSome_iff_ne_none, ne_eq] at hpending
  rw [← not_iff_not, hpending]
  cases hlast : ls.getLast? with
  | none => simp [List.getLast?_eq_none_iff.1 hlast]
  | some l =>
    have hne : ls ≠ [] := by
      rintro rfl
      cases hlast
    simp [hne]

/-! ## Counting entries -/

/-- The line at `i` is prose that goes on with nothing: it is the first line, or the line before it
is blank. -/
def StartsProse (ls : List Text) (i : ℕ) : Prop :=
  (∃ line ∈ ls[i]?, IsProse line) ∧ (i = 0 ∨ ∃ line ∈ ls[i - 1]?, IsBlank line)

instance (ls : List Text) : DecidablePred (StartsProse ls) :=
  fun _ => inferInstanceAs (Decidable (_ ∧ _))

theorem startsProse_append_of_lt (hi : i < ls.length) (line : Text) :
    StartsProse (ls ++ [line]) i ↔ StartsProse ls i := by
  rw [StartsProse, StartsProse, List.getElem?_append_left hi, List.getElem?_append_left (by omega)]

theorem startsProse_append_length (ls : List Text) (line : Text) :
    StartsProse (ls ++ [line]) ls.length ↔
      IsProse line ∧ (ls.foldl feed empty).isPending = false := by
  rw [StartsProse, List.getElem?_concat_length, ← Bool.not_eq_true, isPending_foldl_feed,
    List.getLast?_eq_getElem?]
  refine and_congr (by simp) ?_
  cases ls with
  | nil => simp
  | cons l ls =>
    have hlast : (l :: ls ++ [line])[(l :: ls).length - 1]? = (l :: ls)[(l :: ls).length - 1]? :=
      List.getElem?_append_left (by simp)
    rw [hlast]
    simp

/-- One more line makes one more entry if it opens a tag, or is prose with no entry open. -/
theorem length_finish_feed (c : Collector) (line : Text) :
    (c.feed line).finish.length = c.finish.length + (if OpensTag line then 1 else 0) +
      if IsProse line ∧ c.isPending = false then 1 else 0 := by
  have h := ofText_spec line
  rw [feed, finish_eq, finish_eq, toList_entries_step]
  cases hl : ofText line with
  | blank =>
    simp only [hl] at h
    simp [h, IsProse, step, completed?]
  | tag key value =>
    simp only [hl] at h
    simp [h, IsProse, step, completed?, Nat.add_assoc]
  | prose content =>
    simp only [hl] at h
    cases hd : c.draft <;> simp [h, h.2, step, completed?, isPending, hd]

/-- **The number of entries**: the lines that open a tag, and the lines of prose that are the first
line or follow a blank one. -/
theorem length_finish_foldl_feed (ls : List Text) :
    (ls.foldl feed empty).finish.length = ls.countP (fun line => OpensTag line) +
      (List.range ls.length).countP fun i => StartsProse ls i := by
  -- from the end, since what a line counts for depends on the line before it
  induction ls using List.reverseRecOn with
  | nil => rfl
  | append_singleton ls line ih =>
    have hbefore : (List.range ls.length).countP (fun i => StartsProse (ls ++ [line]) i) =
        (List.range ls.length).countP fun i => StartsProse ls i := by
      refine List.countP_congr fun i hi => ?_
      simp [startsProse_append_of_lt (List.mem_range.1 hi)]
    rw [List.foldl_append, List.foldl_cons, List.foldl_nil, length_finish_feed, ih,
      List.countP_append, List.length_append, List.length_singleton, List.range_succ,
      List.countP_append, hbefore, List.countP_singleton, List.countP_singleton]
    simp only [decide_eq_true_eq, startsProse_append_length]
    omega

/-! ## The law -/

/-- An open entry has a key or a piece. -/
theorem isPending_after_iff (ls : List Text) (i : ℕ) :
    (after ls i).isPending = true ↔
      ∃ d ∈ (after ls i).draft, d.key.isSome ∨ d.pieces ≠ #[] := by
  rw [isPending, Option.isSome_iff_exists]
  refine exists_congr fun d => ⟨fun hd => ⟨hd, ?_⟩, fun hd => hd.1⟩
  have hgroup := (wellFormed_foldl_feed (ls.take i)).draft d hd
  rw [or_iff_not_imp_left, Option.not_isSome_iff_eq_none]
  intro hkey hnil
  exact hgroup.pieces_ne_nil hkey (by simp [Draft.toGroup, hnil])

/-- **What can be seen of the collector between the lines.** A line completes the open entry if it
is blank or opens a tag, and nothing else ever happens to the complete entries; an entry is open
after each line that is not blank; the end completes it. So the lines alone give the number of
entries. -/
theorem streaming (ls : List Text) :
    (∀ i, ∀ hi : i < ls.length,
      (∃ new : Option Entry,
        (after ls (i + 1)).entries.toList = (after ls i).entries.toList ++ new.toList ∧
        (new.isSome = true ↔
          (after ls i).isPending = true ∧ (IsBlank ls[i] ∨ OpensTag ls[i]))) ∧
      ((after ls (i + 1)).isPending = true ↔ ¬ IsBlank ls[i])) ∧
    (∀ i,
      ((after ls i).isPending = true ↔
        ∃ d ∈ (after ls i).draft, d.key.isSome ∨ d.pieces ≠ #[]) ∧
      ((after ls i).isPending = false → (after ls i).finish = (after ls i).entries.toList) ∧
      ((after ls i).isPending = true →
        ∃ e, (after ls i).finish = (after ls i).entries.toList ++ [e])) ∧
    (ls.foldl feed empty).finish.length = ls.countP (fun line => OpensTag line) +
      (List.range ls.length).countP fun i => StartsProse ls i := by
  refine ⟨fun i hi => ?_, fun i => ⟨isPending_after_iff ls i, fun h => ?_, fun h => ?_⟩,
    length_finish_foldl_feed ls⟩
  · rw [after_succ hi]
    exact ⟨⟨_, toList_entries_step _ _, isSome_completed?_ofText⟩, isPending_feed⟩
  · rw [isPending, Option.isSome_eq_false_iff, Option.isNone_iff_eq_none] at h
    rw [finish_eq, h]
    exact List.append_nil _
  · obtain ⟨d, hd⟩ := Option.isSome_iff_exists.1 h
    rw [finish_eq, hd]
    exact ⟨d.toEntry, rfl⟩

/-- A tag that stands alone is open, and the tag after it completes it. -/
theorem streaming_lone_tag :
    let ls := [" * @foo".toList, " * @bar value".toList, " */".toList, " * a".toList]
    (after ls 1).isPending = true ∧
      (∃ e, (after ls 2).entries.toList = (after ls 1).entries.toList ++ [e]) ∧
      (ls.foldl feed empty).finish.length = 3 := by
  intro ls
  obtain ⟨hlines, -, hlength⟩ := streaming ls
  have hopen : (after ls 1).isPending = true := by decide +kernel
  have htag : OpensTag " * @bar value".toList := by decide +kernel
  obtain ⟨⟨new, hnew, hsome⟩, -⟩ := hlines 1 (by decide)
  obtain ⟨e, rfl⟩ := Option.isSome_iff_exists.1 (hsome.2 ⟨hopen, .inr htag⟩)
  simp only [Nat.reduceAdd] at hnew
  have hcount : (ls.countP (fun line => OpensTag line) +
    (List.range ls.length).countP fun i => StartsProse ls i) = 3 := by decide +kernel
  exact ⟨hopen, ⟨e, hnew⟩, hlength.trans hcount⟩

end Collector

end DocComments
