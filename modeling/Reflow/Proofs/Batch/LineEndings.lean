import Reflow.Batch.Run
import Reflow.Proofs.Wrapper.Spelling

/-!
# Files that differ in their line endings

What wrapping does to a text with line feeds it does to the same text with `CR LF`: the result is the
same but for the line endings, errors are the same, and a check reports the same files.  All of this is
`Batch.crlf_transparent`.
-/

namespace Reflow

/-- The lines of the text end in line feeds alone, and there are at least two of them. -/
def EndsInFeeds (t : Text) : Prop :=
  '\r' ∉ t ∧ '\n' ∈ t

instance (t : Text) : Decidable (EndsInFeeds t) :=
  inferInstanceAs (Decidable (_ ∧ _))

namespace LineEnding

variable {t : Text}

theorem detect_apply_crlf (h : EndsInFeeds t) : detect (apply crlf t) = crlf := by
  rcases detect_apply crlf h.1 with hdetect | hnone
  · exact hdetect
  · exact absurd h.2 hnone

end LineEnding

open LineEnding (crlf)

theorem Wrapper.wrap_crlf (w : Wrapper) {t : Text} (h : EndsInFeeds t) :
    w.wrap (crlf.apply t) = crlf.apply (w.wrap t) := by
  rw [w.wrap_eq, w.wrap_eq, LineEnding.detect_apply_crlf h, LineEnding.normalize_apply_crlf,
    LineEnding.detect_eq_lf h.1, LineEnding.normalize_eq_self h.1, LineEnding.apply_lf]

namespace Batch

variable {s : Settings} {o : BatchOptions} {fs fs' : FileTree} {p : Path} {t : Text}

theorem wrapText_crlf (s : Settings) (o : BatchOptions) (p : Option Path) (h : EndsInFeeds t) :
    wrapText s o p (crlf.apply t) = (wrapText s o p t).map crlf.apply := by
  unfold wrapText
  cases Wrapper.ofOptions? (optionsFor s o p) with
  | none => rfl
  | some w =>
    simp only
    rw [LineEnding.detect_apply_crlf h, LineEnding.normalize_apply_crlf, LineEnding.detect_eq_lf h.1,
      LineEnding.normalize_eq_self h.1]
    cases wrapScope w o.scope p t with
    | error e => rfl
    | ok wrapped => rfl

/-! ## Reports -/

/-- Where one tree has a text with line feeds, the other one has the text with `CR LF`. -/
def DiffersInEndings (fs fs' : FileTree) (p : Path) : Prop :=
  ∃ t, EndsInFeeds t ∧ fs.readText p = .ok t ∧ fs'.readText p = .ok (crlf.apply t)

/-- What a report says of a file, its text apart. -/
def verdict (r : FileReport) : Path × Bool :=
  (r.path, r.changed)

theorem verdict_wrapFile_crlf (h : DiffersInEndings fs fs' p) :
    (wrapFile s o fs' p).map verdict = (wrapFile s o fs p).map verdict := by
  obtain ⟨t, ht, hread, hread'⟩ := h
  have hfile : wrapFile s o fs p = (wrapText s o (some p) t).map fun out => ⟨p, decide (out ≠ t), out⟩ := by
    unfold wrapFile
    rw [hread]
    show (wrapText s o (some p) t).bind _ = _
    cases wrapText s o (some p) t <;> rfl
  have hfile' : wrapFile s o fs' p = (wrapText s o (some p) t).map fun out =>
      ⟨p, decide (crlf.apply out ≠ crlf.apply t), crlf.apply out⟩ := by
    unfold wrapFile
    rw [hread']
    show (wrapText s o (some p) (crlf.apply t)).bind _ = _
    rw [wrapText_crlf s o (some p) ht]
    cases wrapText s o (some p) t <;> rfl
  rw [hfile, hfile']
  cases wrapText s o (some p) t with
  | error e => rfl
  | ok out =>
    have hiff : crlf.apply out ≠ crlf.apply t ↔ out ≠ t :=
      not_congr ⟨LineEnding.apply_crlf_injective, congrArg _⟩
    show Except.ok (p, decide (crlf.apply out ≠ crlf.apply t)) = Except.ok (p, decide (out ≠ t))
    rw [decide_eq_decide.mpr hiff]

theorem storeAll_of_check (hmode : o.mode = .check) (results : List (Except Error FileReport)) :
    storeAll o fs results = (results, fs) := by
  induction results with
  | nil => rfl
  | cons result results ih =>
    cases result with
    | error e =>
      show ((Except.error e :: (storeAll o fs results).1), (storeAll o fs results).2) = _
      rw [ih]
    | ok r =>
      have hstore : store o fs r = .ok fs := by
        simp [store, hmode]
      have hbind : ((Except.ok r : Except Error FileReport).bind fun r =>
          (store o fs r).map fun fs => (r, fs)) = .ok (r, fs) := by
        show (store o fs r).map _ = _
        rw [hstore]
        rfl
      rw [storeAll, hbind]
      show ((Except.ok r :: (storeAll o fs results).1), (storeAll o fs results).2) = _
      rw [ih]

/-- The paths of the files that are reported as changed, read off what is said of each file. -/
def changedPaths (results : List (Except Error (Path × Bool))) : List Path :=
  results.filterMap fun
    | .ok (p, true) => some p
    | _ => none

theorem changed_report (results : List (Except Error FileReport)) :
    (report results).changed.map FileReport.path = changedPaths (results.map fun r => r.map verdict) := by
  induction results with
  | nil => rfl
  | cons result results ih =>
    cases result with
    | error e => exact ih
    | ok r =>
      obtain ⟨path, changed, output⟩ := r
      cases changed with
      | false => exact ih
      | true => exact congrArg (path :: ·) ih

theorem changed_run_crlf (hmode : o.mode = .check) {paths : List Path}
    (h : ∀ p ∈ paths, DiffersInEndings fs fs' p) :
    (run s o fs' paths).1.changed.map FileReport.path = (run s o fs paths).1.changed.map FileReport.path := by
  have hrun : ∀ fs, (run s o fs paths).1 = report (paths.map (wrapFile s o fs)) := by
    intro fs
    show report (storeAll o fs _).1 = _
    rw [storeAll_of_check hmode]
  rw [hrun, hrun, changed_report, changed_report, List.map_map, List.map_map]
  congr 1
  apply List.map_congr_left
  intro p hp
  exact verdict_wrapFile_crlf (h p hp)

/-- Wrapping a text with `CR LF` for its line feeds gives what wrapping the text gives, with `CR LF` for
its line feeds; it fails with the same errors; and a check reports the same files as changed. -/
theorem crlf_transparent :
    (∀ (w : Wrapper) (t : Text), EndsInFeeds t → w.wrap (crlf.apply t) = crlf.apply (w.wrap t)) ∧
    (∀ (s : Settings) (o : BatchOptions) (p : Option Path) (t : Text), EndsInFeeds t →
      wrapText s o p (crlf.apply t) = (wrapText s o p t).map crlf.apply) ∧
    ∀ (s : Settings) (o : BatchOptions) (fs fs' : FileTree) (paths : List Path), o.mode = .check →
      (∀ p ∈ paths, DiffersInEndings fs fs' p) →
      (run s o fs' paths).1.changed.map FileReport.path =
        (run s o fs paths).1.changed.map FileReport.path :=
  ⟨fun w _ h => w.wrap_crlf h, fun s o p _ h => wrapText_crlf s o p h,
    fun _ _ _ _ _ hmode h => changed_run_crlf hmode h⟩

theorem crlf_transparent_two_lines :
    Wrapper.code.wrap "// a\r\n// b".toList = crlf.apply (Wrapper.code.wrap "// a\n// b".toList) ∧
    wrapText {} { scope := .lines 4 5 } none "// a\r\n// b".toList =
      (wrapText {} { scope := .lines 4 5 } none "// a\n// b".toList).map crlf.apply ∧
    (run {} { mode := .check } ⟨[(["a".toList], .file "// a\r\n// b".toList)], []⟩ ["a".toList]).1.changed.map
        FileReport.path =
      (run {} { mode := .check } ⟨[(["a".toList], .file "// a\n// b".toList)], []⟩ ["a".toList]).1.changed.map
        FileReport.path := by
  obtain ⟨hwrap, htext, hrun⟩ := crlf_transparent
  have hfeeds : EndsInFeeds "// a\n// b".toList := by decide
  refine ⟨hwrap Wrapper.code _ hfeeds, htext {} { scope := .lines 4 5 } none _ hfeeds, ?_⟩
  apply hrun {} { mode := .check } _ _ _ rfl
  intro p hp
  rw [List.mem_singleton.mp hp]
  exact ⟨_, hfeeds, rfl, rfl⟩

end Batch

end Reflow
