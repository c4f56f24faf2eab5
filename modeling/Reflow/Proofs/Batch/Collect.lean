import Reflow.Batch.Run
import Reflow.Proofs.Files.Walk

/-!
# The files that paths stand for

A path mentions the file that it names, or the files of some types below the directory that it names
(`Batch.mentions`).  Among the files that some paths stand for, each one is as often as the paths mention it
(`Batch.collect_counts`), so a file that is named twice is there twice (`Batch.collect_twice`).
-/

namespace Reflow

open Reflow.Path FileTree

namespace FileTree

variable {fs : FileTree} {p : Path}

theorem isFile_iff : fs.isFile p = true ↔ ∃ place, fs.resolve p = .ok place ∧ fs.holdsFile place = true := by
  rw [isFile]
  split
  next h =>
    obtain ⟨place, hp, hplace⟩ := find_eq_ok_iff.mp h
    simp [hp, holdsFile, hplace]
  next e hdirectory h =>
    obtain ⟨place, hp, hplace⟩ := find_eq_ok_iff.mp h
    have hfile : e ≠ .directory := by
      rintro rfl
      exact hdirectory rfl
    simp [hp, holdsFile, hplace, hfile]
  next fault h =>
    refine iff_of_false Bool.false_ne_true ?_
    rintro ⟨place, hp, hplace⟩
    obtain ⟨e, he, -⟩ := holdsFile_iff.mp hplace
    cases h.symm.trans (find_eq_ok_iff.mpr ⟨place, hp, he⟩)

theorem isDirectory_iff :
    fs.isDirectory p = true ↔ ∃ place, fs.resolve p = .ok place ∧ fs.get? place = some .directory := by
  rw [← find_eq_ok_iff, isDirectory]
  split
  next h => simp [h]
  next h => exact iff_of_false Bool.false_ne_true h

theorem contains_iff : fs.contains p = true ↔ fs.isFile p = true ∨ fs.isDirectory p = true := by
  rw [contains, isFile, isDirectory]
  cases fs.find p with
  | error fault => simp [Except.isOk, Except.toBool]
  | ok e => cases e <;> simp [Except.isOk, Except.toBool]

end FileTree

namespace Batch

variable {fs : FileTree} {extensions : List Text} {p : Path} {paths files : List Path} {q : Place}

/-! ## One path -/

/-- The files that a path stands for, if there is anything at it. -/
def listed (fs : FileTree) (extensions : List Text) (p : Path) : List Path :=
  if fs.isFile p then [p] else (fs.walk p).filter (hasExtension extensions)

/-- Whether a path mentions the file at a place: it names the file, or it names a directory above it and the file
is of one of the types. -/
def mentions (fs : FileTree) (extensions : List Text) (q : Place) (p : Path) : Bool :=
  fs.holdsFile q &&
    match fs.resolve p with
    | .ok place =>
      place = q || fs.get? place = some .directory && place.isPrefixOf q &&
        hasExtension extensions (q.getLast?.getD [])
    | .error _ => false

theorem listed_of_isFile (extensions : List Text) {place : Place} (hp : fs.resolve p = .ok place)
    (hplace : fs.holdsFile place = true) :
    listed fs extensions p = [p] ∧ ∀ q, mentions fs extensions q p = decide (place = q) := by
  have hfile : fs.isFile p = true := isFile_iff.mpr ⟨place, hp, hplace⟩
  obtain ⟨e, he, hne⟩ := holdsFile_iff.mp hplace
  refine ⟨if_pos hfile, fun q => ?_⟩
  rw [mentions, hp]
  by_cases hq : place = q
  · subst hq
    simp [hplace]
  · simp [hq, he, hne]

theorem hasExtension_of_steps {front : List Text} {name : Text} (h : p.steps = front ++ [name]) (hname : IsName name) :
    hasExtension extensions p = hasExtension extensions name := by
  rw [hasExtension, hasExtension, extension?_of_steps h hname]

section

variable (hfs : fs.WellFormed) {place : Place} (hp : fs.resolve p = .ok place)
  (hplace : fs.get? place = some .directory)
include hfs hp hplace

theorem map_resolve_listed (extensions : List Text) : (listed fs extensions p).map fs.resolve =
    ((fs.filesBelow place).filter fun names => hasExtension extensions (names.getLast?.getD [])).map
      fun names => .ok (place ++ names) := by
  have hnot : fs.isFile p = false := by
    rw [Bool.eq_false_iff, Ne, isFile_iff]
    rintro ⟨place', hp', hfile⟩
    obtain rfl : place = place' := Except.ok.inj (hp.symm.trans hp')
    simp [holdsFile, hplace] at hfile
  rw [listed, if_neg (Bool.eq_false_iff.mp hnot), walk, hp, List.filter_map, List.map_map]
  have hspec : ∀ names ∈ fs.filesBelow place,
      fs.resolve (p.join (Text.join '/' names)) = .ok (place ++ names) ∧
      hasExtension extensions (p.join (Text.join '/' names)) = hasExtension extensions (names.getLast?.getD []) := by
    intro names hnames
    obtain ⟨e, he, hfile⟩ := holdsFile_iff.mp (hfs.mem_filesBelow.mp hnames)
    have hne : names ≠ [] := by
      rintro rfl
      rw [List.append_nil, hplace] at he
      exact hfile (Option.some.inj he).symm
    obtain ⟨hresolve, hsteps⟩ := hfs.resolve_join hne hp he
    refine ⟨hresolve, ?_⟩
    obtain ⟨front, name, rfl⟩ := (List.eq_nil_or_concat' names).resolve_left hne
    rw [← List.append_assoc] at hsteps
    rw [List.getLast?_concat, hasExtension_of_steps hsteps (hfs.isName he (by simp))]
    rfl
  have htypes : (fs.filesBelow place).filter (hasExtension extensions ∘ fun names => p.join (Text.join '/' names)) =
      (fs.filesBelow place).filter fun names => hasExtension extensions (names.getLast?.getD []) :=
    List.filter_congr fun names hnames => (hspec names hnames).2
  rw [htypes]
  exact List.map_congr_left fun names hnames => (hspec names (List.mem_filter.mp hnames).1).1

theorem mentions_iff_of_directory : mentions fs extensions q p = true ↔
    ∃ names ∈ fs.filesBelow place, hasExtension extensions (names.getLast?.getD []) = true ∧ place ++ names = q := by
  rw [mentions, hp]
  simp only [Bool.and_eq_true, Bool.or_eq_true, decide_eq_true_eq, List.isPrefixOf_iff_prefix]
  constructor
  · rintro ⟨hq, rfl | ⟨⟨-, names, rfl⟩, htype⟩⟩
    · simp [holdsFile, hplace] at hq
    · have hne : names ≠ [] := by
        rintro rfl
        simp [holdsFile, hplace] at hq
      rw [List.getLast?_append_of_ne_nil _ hne] at htype
      exact ⟨names, hfs.mem_filesBelow.mpr hq, htype, rfl⟩
  · rintro ⟨names, hnames, htype, rfl⟩
    have hq := hfs.mem_filesBelow.mp hnames
    have hne : names ≠ [] := by
      rintro rfl
      simp [holdsFile, hplace] at hq
    rw [List.getLast?_append_of_ne_nil _ hne]
    exact ⟨hq, .inr ⟨⟨hplace, names, rfl⟩, htype⟩⟩

end

/-- Each file that a path mentions is once among those that it stands for, and there is nothing else. -/
theorem count_listed (hfs : fs.WellFormed) (hp : fs.contains p = true) :
    (∀ f ∈ listed fs extensions p, ∃ q, fs.resolve f = .ok q ∧ fs.holdsFile q = true) ∧
    ∀ q, ((listed fs extensions p).map fs.resolve).count (.ok q) = if mentions fs extensions q p then 1 else 0 := by
  rcases contains_iff.mp hp with hfile | hdirectory
  · obtain ⟨place, hplace, hholds⟩ := isFile_iff.mp hfile
    obtain ⟨hlisted, hmentions⟩ := listed_of_isFile extensions hplace hholds
    rw [hlisted]
    refine ⟨?_, fun q => ?_⟩
    · intro f hf
      rw [List.mem_singleton.mp hf]
      exact ⟨place, hplace, hholds⟩
    · rw [hmentions, List.map_singleton, hplace, List.count_singleton]
      simp
  · obtain ⟨place, hplace, hdir⟩ := isDirectory_iff.mp hdirectory
    have hmap := map_resolve_listed hfs hplace hdir extensions
    refine ⟨?_, fun q => ?_⟩
    · intro f hf
      have hmem : fs.resolve f ∈ (listed fs extensions p).map fs.resolve := List.mem_map_of_mem hf
      rw [hmap] at hmem
      obtain ⟨names, hnames, heq⟩ := List.mem_map.mp hmem
      exact ⟨_, heq.symm, hfs.mem_filesBelow.mp (List.mem_filter.mp hnames).1⟩
    · have hnodup : ((listed fs extensions p).map fs.resolve).Nodup := by
        rw [hmap]
        refine List.Nodup.map (fun names names' heq => ?_) ((hfs.nodup_filesBelow place).filter _)
        exact List.append_cancel_left (Except.ok.inj heq)
      have hmem : .ok q ∈ (listed fs extensions p).map fs.resolve ↔ mentions fs extensions q p = true := by
        rw [hmap, mentions_iff_of_directory hfs hplace hdir]
        simp [and_assoc]
      rw [hnodup.count]
      simp only [hmem]

/-! ## All paths -/

theorem collect_cons (p : Path) (paths : List Path) : collect fs extensions (p :: paths) =
    if fs.contains p then (collect fs extensions paths).map (listed fs extensions p ++ ·)
    else .error (.noSuchPath p) := by
  rw [collect, listed]
  cases hfile : fs.isFile p with
  | true =>
    rw [if_pos (contains_iff.mpr (.inl hfile))]
    cases collect fs extensions paths <;> rfl
  | false =>
    cases hdirectory : fs.isDirectory p with
    | true =>
      rw [if_pos (contains_iff.mpr (.inr hdirectory))]
      cases collect fs extensions paths <;> rfl
    | false =>
      have hmissing : ¬fs.contains p = true := by simp [contains_iff, hfile, hdirectory]
      rw [if_neg hmissing]
      rfl

theorem collect_eq_listed (h : ∀ p ∈ paths, fs.contains p = true) :
    collect fs extensions paths = .ok (paths.flatMap (listed fs extensions)) := by
  induction paths with
  | nil => rfl
  | cons p paths ih =>
    rw [List.forall_mem_cons] at h
    rw [collect_cons, if_pos h.1, ih h.2]
    rfl

theorem collect_eq_error (h : paths.find? (fun p => !fs.contains p) = some p) :
    collect fs extensions paths = .error (.noSuchPath p) := by
  induction paths with
  | nil => cases h
  | cons p' paths ih =>
    rw [collect_cons]
    cases hp : fs.contains p' with
    | true =>
      rw [List.find?_cons_of_neg (by simp [hp])] at h
      rw [if_pos rfl, ih h]
      rfl
    | false =>
      rw [List.find?_cons_of_pos (by simp [hp])] at h
      rw [if_neg Bool.false_ne_true, Option.some.inj h]

section

variable (hfs : fs.WellFormed) (hall : ∀ p ∈ paths, fs.contains p = true)
include hfs hall

theorem exists_place_of_mem {f : Path} (hf : f ∈ paths.flatMap (listed fs extensions)) :
    ∃ q, fs.resolve f = .ok q ∧ fs.holdsFile q = true := by
  obtain ⟨p, hp, hf⟩ := List.mem_flatMap.mp hf
  exact (count_listed hfs (hall p hp)).1 f hf

theorem count_flatMap_listed (q : Place) :
    ((paths.flatMap (listed fs extensions)).map fs.resolve).count (.ok q) =
      paths.countP (mentions fs extensions q) := by
  induction paths with
  | nil => rfl
  | cons p paths ih =>
    rw [List.forall_mem_cons] at hall
    rw [List.flatMap_cons, List.map_append, List.count_append, (count_listed hfs hall.1).2, ih hall.2,
      List.countP_cons, Nat.add_comm]

end

theorem nodup_map_resolve_iff (h : ∀ f ∈ files, ∃ q, fs.resolve f = .ok q ∧ fs.holdsFile q = true) :
    (files.map fs.resolve).Nodup ↔ ∀ q, (files.map fs.resolve).count (.ok q) ≤ 1 := by
  rw [List.nodup_iff_count_le_one]
  refine ⟨fun hcount q => hcount (.ok q), fun hcount result => ?_⟩
  cases result with
  | ok q => exact hcount q
  | error fault =>
    have hnone : .error fault ∉ files.map fs.resolve := by
      intro hmem
      obtain ⟨f, hf, heq⟩ := List.mem_map.mp hmem
      obtain ⟨q, hq, -⟩ := h f hf
      cases hq.symm.trans heq
    rw [List.count_eq_zero_of_not_mem hnone]
    exact Nat.zero_le 1

/-- In a well-formed tree, the files that some paths stand for are the ones that the paths mention, each as often
as it is mentioned.  So no file is there twice just if no two of the paths mention the same one.  If there is
nothing at one of the paths, the first such path is complained of. -/
theorem collect_counts (hfs : fs.WellFormed) (extensions : List Text) (paths : List Path) :
    (∀ p, paths.find? (fun p => !fs.contains p) = some p →
      collect fs extensions paths = .error (.noSuchPath p)) ∧
    ((∀ p ∈ paths, fs.contains p = true) → ∃ files, collect fs extensions paths = .ok files ∧
      (∀ f ∈ files, ∃ q, fs.resolve f = .ok q ∧ fs.holdsFile q = true) ∧
      (∀ q, (files.map fs.resolve).count (.ok q) = paths.countP (mentions fs extensions q)) ∧
      ((files.map fs.resolve).Nodup ↔ ∀ q, paths.countP (mentions fs extensions q) ≤ 1)) := by
  refine ⟨fun p => collect_eq_error, fun hall => ⟨_, collect_eq_listed hall, ?_⟩⟩
  have hfiles : ∀ f ∈ paths.flatMap (listed fs extensions), ∃ q, fs.resolve f = .ok q ∧ fs.holdsFile q = true :=
    fun _ hf => exists_place_of_mem hfs hall hf
  have hcount (q : Place) : ((paths.flatMap (listed fs extensions)).map fs.resolve).count (.ok q) =
      paths.countP (mentions fs extensions q) := count_flatMap_listed hfs hall q
  refine ⟨hfiles, hcount, ?_⟩
  rw [nodup_map_resolve_iff hfiles]
  simp only [hcount]

/-- One file is named and lies below a directory that is named, one only lies below it, and one is of another
type. -/
theorem collect_counts_overlapping :
    let fs : FileTree := ⟨[(["d".toList], .directory), (["d".toList, "a.rs".toList], .file []),
      (["d".toList, "b.rs".toList], .binary []), (["d".toList, "c.md".toList], .file [])], []⟩
    let paths := ["d/a.rs".toList, "d/".toList]
    fs.WellFormed ∧ collect fs ["rs".toList] ("e".toList :: paths) = .error (.noSuchPath "e".toList) ∧
    ∃ files, collect fs ["rs".toList] paths = .ok files ∧ ¬(files.map fs.resolve).Nodup ∧
      (files.map fs.resolve).count (.ok ["d".toList, "a.rs".toList]) = 2 ∧
      (files.map fs.resolve).count (.ok ["d".toList, "b.rs".toList]) = 1 ∧
      (files.map fs.resolve).count (.ok ["d".toList, "c.md".toList]) = 0 := by
  intro fs paths
  have hfs : fs.WellFormed := by
    -- this is the tree that making the directory and writing the files comes to
    have hempty : FileTree.WellFormed ⟨[], []⟩ := by decide
    have hmade : FileTree.WellFormed ⟨[(["d".toList], .directory)], []⟩ := hempty.ensureDirectory (p := "d".toList) rfl
    have hwritten : FileTree.WellFormed ⟨[(["d".toList], .directory), (["d".toList, "a.rs".toList], .file [])], []⟩ :=
      hmade.writeText (p := "d/a.rs".toList) (t := []) rfl
    have hbinary := hwritten.put (hwritten.admits_of_resolve (p := "d/b.rs".toList) rfl) (by decide) (.binary [])
    exact hbinary.writeText (p := "d/c.md".toList) (t := []) rfl
  obtain ⟨herror, -⟩ := collect_counts hfs ["rs".toList] ("e".toList :: paths)
  obtain ⟨-, hlist⟩ := collect_counts hfs ["rs".toList] paths
  obtain ⟨files, hfiles, -, hcount, hnodup⟩ := hlist (by decide)
  refine ⟨hfs, herror _ (by decide), files, hfiles, ?_, ?_, ?_, ?_⟩
  · rw [hnodup]
    intro h
    exact absurd (h ["d".toList, "a.rs".toList]) (by decide)
  · rw [hcount]
    decide
  · rw [hcount]
    decide
  · rw [hcount]
    decide

/-- A file that is named twice is there twice. -/
theorem collect_twice :
    let fs : FileTree := ⟨[(["a.rs".toList], .file [])], []⟩
    fs.WellFormed ∧ (∀ p ∈ ["a.rs".toList, "a.rs".toList], fs.contains p = true) ∧
    collect fs [] ["a.rs".toList, "a.rs".toList] = .ok ["a.rs".toList, "a.rs".toList] ∧
    ¬["a.rs".toList, "a.rs".toList].Nodup := by
  decide

end Batch

end Reflow
