import DocComments.Proofs.Command.Expand
import DocComments.Proofs.Files.Place

/-!
# Files that are named once

Arguments are expanded to paths of which no two have the same components. A file can still be named
by two of them, when they are spelled differently: `a.php`, the entry `./a.php` of the current
directory, and a path from the root can be one file.

* `resolve_eq_iff_of_expand`: two of the paths name one file exactly if they have one place.
* `pairwise_resolve_ne_of_expand`: those that are spelled alike name different files.
* `not_forall_pairwise_resolve_ne`: in general they do not.
-/

namespace DocComments.Command

variable {fs : FileSystem} {args : List Text} {files : List Path} {ds : List Document} {p q : Path}

/-- **Two files are one exactly if their paths have one place.** -/
theorem resolve_eq_iff_of_expand (h : (expand fs args).2 = .ok files) (hp : p ∈ files)
    (hq : q ∈ files) : fs.resolve p = fs.resolve q ↔ fs.place p = fs.place q := by
  obtain ⟨loc, -, hloc, -⟩ := FileSystem.hasFile_iff.1 (hasFile_of_expand h hp)
  obtain ⟨loc', -, hloc', -⟩ := FileSystem.hasFile_iff.1 (hasFile_of_expand h hq)
  rw [← FileSystem.eq_place_of_resolve hloc, ← FileSystem.eq_place_of_resolve hloc', hloc, hloc',
    Except.ok.injEq]

/-- **Paths that are spelled alike name different files.** -/
theorem pairwise_resolve_ne_of_expand (h : (expand fs args).2 = .ok files) :
    files.Pairwise fun p q => p.SpelledAlike q → fs.resolve p ≠ fs.resolve q := by
  refine (pairwise_of_expand h).imp_of_mem fun {p q} hp hq hpq halike heq => ?_
  have hplace := (resolve_eq_iff_of_expand h hp hq).1 heq
  have hsame := Path.same_iff.2 (halike.components_eq_of_place_eq hplace)
  exact absurd hsame (by simp [hpq.2])

/-- The documents are of the files, in their order and at most one of each. -/
theorem map_source_sublist (h : readDocuments fs files = .ok ds) :
    (ds.map Document.source).Sublist files := by
  obtain ⟨all, hall, rfl⟩ := map_eq_ok_iff.1 h
  have hsources : all.map Document.source = files := by
    rw [← List.forall₂_eq_eq_eq, List.forall₂_map_left_iff]
    refine (mapM_eq_ok_iff.1 hall).flip.imp fun d p hread => ?_
    obtain ⟨content, -, rfl⟩ := readDocument_eq_ok_iff.1 hread
    rfl
  rw [← hsources]
  exact List.filter_sublist.map Document.source

/-- **Which files a run reads once.** Two of the paths that the arguments are expanded to name one
file exactly if they have one place. Those that are spelled alike, with the same start and without
going up, never do, and so no two documents of paths that are spelled alike are of one file. -/
theorem resolve_ne_of_expand (h : (expand fs args).2 = .ok files) :
    (∀ p ∈ files, ∀ q ∈ files, fs.resolve p = fs.resolve q ↔ fs.place p = fs.place q) ∧
    (files.Pairwise fun p q => p.SpelledAlike q → fs.resolve p ≠ fs.resolve q) ∧
    ∀ o stdin ds, o.files = args → args ≠ [] → (inputs o stdin fs).2 = .ok ds →
      ds.Pairwise fun d d' => Path.SpelledAlike d.source d'.source →
        fs.resolve d.source ≠ fs.resolve d'.source := by
  refine ⟨fun p hp q hq => resolve_eq_iff_of_expand h hp hq, pairwise_resolve_ne_of_expand h, ?_⟩
  rintro o stdin ds rfl hne hinputs
  rw [inputs_of_files_ne_nil hne, h] at hinputs
  exact List.pairwise_map.1
    ((pairwise_resolve_ne_of_expand h).sublist (map_source_sublist hinputs))

/-- A directory together with a file in it, and a file beside it. -/
theorem resolve_ne_of_expand_overlap :
    let fs : FileSystem := ⟨[(["d"].map String.toList, .directory),
      (["d", "a.php"].map String.toList, .file (encodeText "/** a */".toList)),
      (["e.php"].map String.toList, .file (encodeText "/** e */".toList))], ⟨[], []⟩⟩
    let args := ["d", "d/a.php", "e.php"].map String.toList
    let files := ["d/a.php", "e.php"].map String.toList
    (expand fs args).2 = .ok files ∧
      files.Pairwise (fun p q => fs.resolve p ≠ fs.resolve q) ∧
      ∀ stdin ds, (inputs ⟨args, none, "text".toList, none, false, []⟩ stdin fs).2 = .ok ds →
        ds.Pairwise fun d d' => Path.SpelledAlike d.source d'.source →
          fs.resolve d.source ≠ fs.resolve d'.source := by
  intro fs args files
  have hgather : (gather fs args).2 =
      .ok (["d/a.php", "d/a.php", "e.php"].map String.toList) :=
    eq_ok_of_toOption (by decide +kernel)
  have hexpand : (expand fs args).2 = .ok files := expand_eq_keepFirsts hgather (by decide)
  obtain ⟨-, hfiles, hdocuments⟩ := resolve_ne_of_expand hexpand
  have halike : Path.SpelledAlike "d/a.php".toList "e.php".toList :=
    ⟨by decide, by decide, by decide, by decide⟩
  have hne := List.rel_of_pairwise_cons hfiles List.mem_cons_self halike
  exact ⟨hexpand, List.pairwise_pair.2 hne,
    fun stdin ds => hdocuments _ stdin ds rfl (by decide)⟩

/-- The current directory, and a file in it: the file is named twice. -/
theorem not_forall_pairwise_resolve_ne :
    ¬ ∀ (fs : FileSystem) (args : List Text) (files : List Path), fs.IsTree →
      (expand fs args).2 = .ok files → files.Pairwise fun p q => fs.resolve p ≠ fs.resolve q := by
  intro h
  let fs : FileSystem :=
    ⟨[(["a.php"].map String.toList, .file (encodeText "/** @x 1 */".toList))], ⟨[], []⟩⟩
  let args := [".", "a.php"].map String.toList
  let files := ["./a.php", "a.php"].map String.toList
  have hgather : (gather fs args).2 = .ok files := eq_ok_of_toOption (by decide +kernel)
  have hexpand : (expand fs args).2 = .ok files := expand_eq_keepFirsts hgather (by decide)
  have hne := h fs args files (by decide +kernel) hexpand
  have hone : fs.resolve "./a.php".toList = fs.resolve "a.php".toList := by decide +kernel
  exact List.rel_of_pairwise_cons hne List.mem_cons_self hone

end DocComments.Command
