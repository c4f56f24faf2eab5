import Reflow.Batch.Run
import Reflow.Proofs.Batch.Wrap
import Reflow.Proofs.Files.Tree

/-!
# What comes of a file

Each file is either wrapped or there is an error about it (`Batch.reportOn_split`), and storing what has come
of it touches no other file (`Batch.exists_store`).
-/

namespace Reflow.Batch

variable {s : Settings} {o : BatchOptions} {fs now : FileTree} {p : Path} {paths : List Path} {r : FileReport}
  {e : Error}

/-! ## One file -/

/-- Whether a file can be wrapped: it holds a text, and the lines that are to be wrapped are in it. -/
def wrappable (o : BatchOptions) (fs : FileTree) (p : Path) : Bool :=
  match fs.readText p with
  | .ok t => o.scope.fits t
  | .error _ => false

/-- The text that is written into a file, if wrapping changes it and changes are written. -/
def written? (s : Settings) (o : BatchOptions) (fs : FileTree) (p : Path) : Option Text :=
  match wrapFile s o fs p with
  | .ok r => if r.changed && o.mode = .write then some r.output else none
  | .error _ => none

theorem wrapFile_congr (h : now.find p = fs.find p) : wrapFile s o now p = wrapFile s o fs p := by
  unfold wrapFile
  rw [FileTree.readText_congr h]

theorem wrapFile_of_readText {t : Text} (h : fs.readText p = .ok t) :
    wrapFile s o fs p = (wrapText s o (some p) t).map fun out => ⟨p, decide (out ≠ t), out⟩ := by
  unfold wrapFile
  rw [h]
  simp only [bind, Except.bind]
  cases wrapText s o (some p) t <;> rfl

theorem wrapFile_of_unreadable (h : fs.readText p = .error e) : wrapFile s o fs p = .error e := by
  unfold wrapFile
  rw [h]
  rfl

theorem isOk_wrapFile (s : Settings) (o : BatchOptions) (fs : FileTree) (p : Path) :
    (wrapFile s o fs p).isOk = wrappable o fs p := by
  unfold wrappable
  cases hread : fs.readText p with
  | error e =>
    rw [wrapFile_of_unreadable hread]
    rfl
  | ok t =>
    simp only
    rw [wrapFile_of_readText hread, ← isOk_wrapText s o (some p) t]
    cases wrapText s o (some p) t <;> rfl

theorem exists_of_wrapFile (h : wrapFile s o fs p = .ok r) :
    r.path = p ∧ ∃ t, fs.readText p = .ok t ∧ r.changed = decide (r.output ≠ t) := by
  cases hread : fs.readText p with
  | error e =>
    rw [wrapFile_of_unreadable hread] at h
    cases h
  | ok t =>
    rw [wrapFile_of_readText hread] at h
    cases hout : wrapText s o (some p) t with
    | error e =>
      rw [hout] at h
      cases h
    | ok out =>
      rw [hout] at h
      cases h
      exact ⟨rfl, t, rfl, rfl⟩

theorem path?_of_wrapFile (h : wrapFile s o fs p = .error e) : e.path? = some p := by
  cases hread : fs.readText p with
  | error e' =>
    rw [wrapFile_of_unreadable hread] at h
    cases h
    unfold FileTree.readText at hread
    cases hfs : fs.read p with
    | ok t =>
      rw [hfs] at hread
      cases hread
    | error fault =>
      rw [hfs] at hread
      cases hread
      rfl
  | ok t =>
    rw [wrapFile_of_readText hread] at h
    cases hout : wrapText s o (some p) t with
    | ok out =>
      rw [hout] at h
      cases h
    | error e' =>
      rw [hout] at h
      cases h
      exact path?_of_wrapText hout

/-- Storing what wrapping a file has given, in a tree that has the file as it was at the start: it succeeds,
and it changes what is at the place of the file only. -/
theorem exists_store (hfile : wrapFile s o fs p = .ok r) (halike : fs.Alike now)
    (hsame : ∀ place, fs.resolve p = .ok place → now.get? place = fs.get? place) :
    ∃ later, store o now r = .ok later ∧ fs.Alike later ∧
      (∀ place, fs.resolve p = .ok place →
        later.get? place = ((written? s o fs p).map Entry.file).or (fs.get? place)) ∧
      ∀ place, fs.resolve p ≠ .ok place → later.get? place = now.get? place := by
  obtain ⟨rfl, t, hread, -⟩ := exists_of_wrapFile hfile
  by_cases hwrite : (r.changed && o.mode = .write) = true
  · have hsome : written? s o fs r.path = some r.output := by simp [written?, hfile, hwrite]
    obtain ⟨place, hplace, hget⟩ := FileTree.readText_eq_ok_iff.mp hread
    have hnow : now.get? place = some (.file t) := (hsame place hplace).trans hget
    have hfree : now.get? place ≠ some .directory := by simp [hnow]
    have hput := FileTree.get?_put now (FileTree.ne_nil_of_get?_ne hfree) (.file r.output)
    refine ⟨now.put place (.file r.output), ?_, halike.trans (.put hnow _), ?_, ?_⟩
    · rw [store, if_pos hwrite]
      exact FileTree.writeText_of_get? ((halike.resolve_eq _).trans hplace) hnow _
    · intro q hq
      obtain rfl : place = q := Except.ok.inj (hplace.symm.trans hq)
      rw [hsome, hput, if_pos rfl]
      rfl
    · intro q hq
      rw [hput, if_neg]
      rintro rfl
      exact hq hplace
  · have hnone : written? s o fs r.path = none := by simp [written?, hfile, hwrite]
    refine ⟨now, ?_, halike, ?_, fun _ _ => rfl⟩
    · rw [store, if_neg hwrite]
    · rw [hnone]
      exact hsame

/-! ## Reports -/

/-- The report on the files as they are at the start. -/
def reportOn (s : Settings) (o : BatchOptions) (fs : FileTree) (paths : List Path) : BatchReport :=
  report (paths.map (wrapFile s o fs))

theorem mem_files_reportOn : r ∈ (reportOn s o fs paths).files ↔ ∃ p ∈ paths, wrapFile s o fs p = .ok r := by
  simp only [reportOn, report, List.mem_filterMap, List.mem_map]
  constructor
  · rintro ⟨result, ⟨p, hp, rfl⟩, h⟩
    refine ⟨p, hp, ?_⟩
    cases hfile : wrapFile s o fs p with
    | error e =>
      rw [hfile] at h
      cases h
    | ok file =>
      rw [hfile] at h
      cases h
      rfl
  · rintro ⟨p, hp, hfile⟩
    exact ⟨_, ⟨p, hp, rfl⟩, by rw [hfile]⟩

theorem reportOn_of_ok (h : wrapFile s o fs p = .ok r) : reportOn s o fs (p :: paths) =
    ⟨r :: (reportOn s o fs paths).files, (reportOn s o fs paths).failures⟩ := by
  rw [reportOn, List.map_cons, h]
  rfl

theorem reportOn_of_error (h : wrapFile s o fs p = .error e) : reportOn s o fs (p :: paths) =
    ⟨(reportOn s o fs paths).files, e :: (reportOn s o fs paths).failures⟩ := by
  rw [reportOn, List.map_cons, h]
  rfl

theorem reportOn_split (s : Settings) (o : BatchOptions) (fs : FileTree) (paths : List Path) :
    (reportOn s o fs paths).files.map FileReport.path = paths.filter (wrappable o fs) ∧
    (reportOn s o fs paths).failures.map Error.path? = (paths.filter fun p => !wrappable o fs p).map some := by
  induction paths with
  | nil => exact ⟨rfl, rfl⟩
  | cons p paths ih =>
    obtain ⟨hfiles, hfailures⟩ := ih
    have hok := isOk_wrapFile s o fs p
    cases hfile : wrapFile s o fs p with
    | error e =>
      rw [hfile] at hok
      rw [reportOn_of_error hfile]
      simp [← hok, Except.isOk, Except.toBool, hfiles, hfailures, path?_of_wrapFile hfile]
    | ok r =>
      rw [hfile] at hok
      rw [reportOn_of_ok hfile]
      simp [← hok, Except.isOk, Except.toBool, hfiles, hfailures, (exists_of_wrapFile hfile).1]

def modified (fs now : FileTree) (paths : List Path) : List Path :=
  paths.filter fun p => now.readText p ≠ fs.readText p

theorem changed_reportOn (h : ∀ p ∈ paths, match wrapFile s o fs p with
      | .ok r => r.changed = decide (now.readText p ≠ fs.readText p)
      | .error _ => now.readText p = fs.readText p) :
    (reportOn s o fs paths).changed.map FileReport.path = modified fs now paths := by
  induction paths with
  | nil => rfl
  | cons p paths ih =>
    rw [List.forall_mem_cons] at h
    obtain ⟨hp, hpaths⟩ := h
    have hrest := ih hpaths
    simp only [BatchReport.changed, modified] at hrest ⊢
    cases hfile : wrapFile s o fs p with
    | error e =>
      rw [hfile] at hp
      rw [reportOn_of_error hfile, hrest, List.filter_cons_of_neg (by simpa using hp)]
    | ok r =>
      rw [hfile] at hp
      simp only at hp
      rw [reportOn_of_ok hfile, List.filter_cons, List.filter_cons, hp]
      split
      next => rw [List.map_cons, hrest, (exists_of_wrapFile hfile).1]
      next => exact hrest

end Reflow.Batch
