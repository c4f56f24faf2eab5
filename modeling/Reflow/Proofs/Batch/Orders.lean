import Reflow.Proofs.Batch.Jobs
import Reflow.Proofs.Batch.Report

/-!
# The order of the jobs does not count

Jobs on different files do not meet: each one finds its file as it was at the start, and leaves all other
files alone (`Batch.Workshop.Sound`).  So whatever the order of their steps, the jobs come to the report of
`Batch.run` and to the same files (`Batch.jobs_in_any_order`).
-/

namespace Reflow.Batch

variable {s : Settings} {o : BatchOptions} {fs now : FileTree} {p : Path} {paths : List Path} {r : FileReport}
  {e : Error} {schedule : List Nat}

/-! ## One job among others -/

namespace Job

/-- What the job knows of its file is what wrapping the file as it was at the start gives. -/
def Keeps (s : Settings) (o : BatchOptions) (fs : FileTree) (job : Job) : Prop :=
  match job.stage with
  | .waiting => True
  | .wrapped result | .done result => result = wrapFile s o fs job.path

/-- What the job has left at the place of its file. -/
def left (s : Settings) (o : BatchOptions) (fs : FileTree) (job : Job) (place : Place) : Option Entry :=
  match job.stage with
  | .waiting | .wrapped _ => fs.get? place
  | .done _ => ((written? s o fs job.path).map Entry.file).or (fs.get? place)

/-- A step of a job whose file is as the job has left it: after it that is so again, and at all other
places there is what was there before. -/
theorem next_spec {job : Job} (hkeeps : job.Keeps s o fs) (halike : fs.Alike now)
    (hleft : ∀ place, fs.resolve job.path = .ok place → now.get? place = job.left s o fs place) :
    let (after, later) := job.next s o now
    after.Keeps s o fs ∧ fs.Alike later ∧
    (∀ place, fs.resolve job.path = .ok place → later.get? place = after.left s o fs place) ∧
    ∀ place, fs.resolve job.path ≠ .ok place → later.get? place = now.get? place := by
  obtain ⟨p, stage⟩ := job
  cases stage with
  | waiting => exact ⟨wrapFile_congr (halike.find_eq hleft), halike, hleft, fun _ _ => rfl⟩
  | done result => exact ⟨hkeeps, halike, hleft, fun _ _ => rfl⟩
  | wrapped result =>
    obtain rfl : result = wrapFile s o fs p := hkeeps
    cases hfile : wrapFile s o fs p with
    | error e =>
      have hnone : written? s o fs p = none := by simp [written?, hfile]
      refine ⟨hfile.symm, halike, ?_, fun _ _ => rfl⟩
      intro place hplace
      show now.get? place = ((written? s o fs p).map Entry.file).or (fs.get? place)
      rw [hnone]
      exact hleft place hplace
    | ok r =>
      obtain ⟨later, hstore, hlater, hplace, hothers⟩ := exists_store hfile halike hleft
      have hnext : next s o now ⟨p, .wrapped (.ok r)⟩ = (⟨p, .done (.ok r)⟩, later) := by
        simp only [next, Except.bind, hstore, Except.map]
      rw [hnext]
      exact ⟨hfile.symm, hlater, hplace, hothers⟩

theorem files_next (hmode : o.mode ≠ .write) (job : Job) : (job.next s o now).2 = now := by
  obtain ⟨p, stage⟩ := job
  cases stage with
  | waiting => rfl
  | done result => rfl
  | wrapped result =>
    cases result with
    | error e => rfl
    | ok r =>
      have hstore : store o now r = .ok now := by simp [store, hmode]
      simp only [next, Except.bind, hstore, Except.map]

end Job

/-! ## All jobs -/

namespace Workshop

variable {x : Workshop}

/-- What the jobs keep to, whatever the order of their steps: each one has its file to itself, and all other
places are as they were at the start. -/
structure Sound (s : Settings) (o : BatchOptions) (fs : FileTree) (paths : List Path) (x : Workshop) : Prop where
  map_path : x.jobs.map Job.path = paths
  keeps : ∀ job ∈ x.jobs, job.Keeps s o fs
  alike : fs.Alike x.files
  left : ∀ job ∈ x.jobs, ∀ place, fs.resolve job.path = .ok place → x.files.get? place = job.left s o fs place
  others : ∀ place, (∀ p ∈ paths, fs.resolve p ≠ .ok place) → x.files.get? place = fs.get? place

theorem sound_start (s : Settings) (o : BatchOptions) (fs : FileTree) (paths : List Path) :
    (start fs paths).Sound s o fs paths where
  map_path := by simp [start, Function.comp_def]
  keeps job hjob := by
    obtain ⟨p, -, rfl⟩ := List.mem_map.mp hjob
    trivial
  alike := .refl fs
  left job hjob place _ := by
    obtain ⟨p, -, rfl⟩ := List.mem_map.mp hjob
    rfl
  others _ _ := rfl

theorem Sound.step (hapart : paths.Pairwise fs.Apart) (hx : x.Sound s o fs paths) (n : Nat) :
    (x.step s o n).Sound s o fs paths := by
  rcases step_cases s o x n with ⟨-, hstep⟩ | ⟨front, job, back, hjobs, -, hstep⟩
  · rw [hstep]
    exact hx
  obtain ⟨hpaths, hkeeps, halike, hleft, hothers⟩ := hx
  rw [hstep]
  rw [hjobs] at hpaths
  rw [hjobs, List.forall_mem_append, List.forall_mem_cons] at hkeeps hleft
  obtain ⟨hkeepsFront, hkeepsJob, hkeepsBack⟩ := hkeeps
  obtain ⟨hleftFront, hleftJob, hleftBack⟩ := hleft
  obtain ⟨hkeeps', halike', hleft', hsame⟩ := Job.next_spec hkeepsJob halike hleftJob
  -- No other job has the file of this one.
  rw [← hpaths, List.map_append, List.map_cons, List.pairwise_append, List.pairwise_cons] at hapart
  obtain ⟨-, ⟨hback, -⟩, hfront⟩ := hapart
  refine ⟨?_, ?_, halike', ?_, ?_⟩
  · rw [← hpaths, List.map_append, List.map_cons, List.map_append, List.map_cons, Job.path_next]
  · rw [List.forall_mem_append, List.forall_mem_cons]
    exact ⟨hkeepsFront, hkeeps', hkeepsBack⟩
  · rw [List.forall_mem_append, List.forall_mem_cons, Job.path_next]
    refine ⟨?_, hleft', ?_⟩
    · intro k hk place hplace
      have hother := hfront k.path (List.mem_map_of_mem hk) job.path List.mem_cons_self place hplace
      exact (hsame place hother).trans (hleftFront k hk place hplace)
    · intro k hk place hplace
      have hother := fun hplace' => hback k.path (List.mem_map_of_mem hk) place hplace' hplace
      exact (hsame place hother).trans (hleftBack k hk place hplace)
  · intro place hplace
    have hjob : job.path ∈ paths := by simp [← hpaths]
    exact (hsame place (hplace job.path hjob)).trans (hothers place hplace)

theorem Sound.work (hapart : paths.Pairwise fs.Apart) (schedule : List Nat) (hx : x.Sound s o fs paths) :
    (x.work s o schedule).Sound s o fs paths := by
  induction schedule generalizing x with
  | nil => exact hx
  | cons n schedule ih => exact ih (hx.step hapart n)

theorem files_work (hmode : o.mode ≠ .write) (schedule : List Nat) (x : Workshop) :
    (x.work s o schedule).files = x.files := by
  induction schedule generalizing x with
  | nil => rfl
  | cons n schedule ih =>
    show ((x.step s o n).work s o schedule).files = x.files
    rw [ih]
    rcases step_cases s o x n with ⟨-, hstep⟩ | ⟨front, job, back, -, -, hstep⟩
    · rw [hstep]
    · rw [hstep]
      exact Job.files_next hmode job

/-! ## When all jobs are done -/

theorem stepsOf_start {n : Nat} (hn : n < paths.length) : (start fs paths).stepsOf n = 0 := by
  simp [stepsOf, start, hn, Job.steps]

theorem exists_done (hx : ((start fs paths).work s o schedule).jobs.length = paths.length)
    (hschedule : ∀ n < paths.length, 2 ≤ schedule.count n) :
    ∀ job ∈ ((start fs paths).work s o schedule).jobs, ∃ result, job.stage = .done result := by
  intro job hjob
  obtain ⟨n, hn, rfl⟩ := List.mem_iff_getElem.mp hjob
  have hlt : n < paths.length := Nat.lt_of_lt_of_eq hn hx
  have hsteps := stepsOf_work s o schedule (start fs paths) n (by simp [stepsOf_start hlt])
  rw [stepsOf_start hlt, Nat.zero_add, Nat.min_eq_left (hschedule n hlt), stepsOf, List.getElem?_eq_getElem hn] at hsteps
  generalize ((start fs paths).work s o schedule).jobs[n] = job at hsteps
  obtain ⟨p, stage⟩ := job
  cases stage with
  | waiting => cases hsteps
  | wrapped result => cases hsteps
  | done result => exact ⟨result, rfl⟩

theorem Sound.results_eq (hx : x.Sound s o fs paths) (hdone : ∀ job ∈ x.jobs, ∃ result, job.stage = .done result) :
    x.results = paths.map (wrapFile s o fs) := by
  have hresult : ∀ job ∈ x.jobs, job.result? = some (wrapFile s o fs job.path) := by
    intro job hjob
    obtain ⟨result, hstage⟩ := hdone job hjob
    have hkeeps := hx.keeps job hjob
    rw [Job.Keeps, hstage] at hkeeps
    rw [Job.result?, hstage, ← hkeeps]
  rw [results, List.filterMap_eq_map_iff_forall_eq_some.mpr hresult, ← hx.map_path, List.map_map]
  rfl

theorem Sound.get?_of_done (hx : x.Sound s o fs paths) (hdone : ∀ job ∈ x.jobs, ∃ result, job.stage = .done result)
    (hp : p ∈ paths) {place : Place} (hplace : fs.resolve p = .ok place) :
    x.files.get? place = ((written? s o fs p).map Entry.file).or (fs.get? place) := by
  rw [← hx.map_path, List.mem_map] at hp
  obtain ⟨job, hjob, rfl⟩ := hp
  obtain ⟨result, hstage⟩ := hdone job hjob
  rw [hx.left job hjob place hplace, Job.left, hstage]

end Workshop

/-! ## All orders -/

/-- What there is to say of the report and of the files when the jobs on some paths are done. -/
structure Accounted (o : BatchOptions) (fs : FileTree) (paths : List Path) (x : Workshop) : Prop where
  /-- The files that can be wrapped are reported in the order of their paths. -/
  files : x.report.files.map FileReport.path = paths.filter (wrappable o fs)
  /-- For every other path there is an error, in the order of the paths. -/
  failures : x.report.failures.map Error.path? = (paths.filter fun p => !wrappable o fs p).map some
  untouched : o.mode ≠ .write → x.files = fs
  written : o.mode = .write → ∀ r ∈ x.report.files, x.files.readText r.path = .ok r.output
  /-- Only files that are reported as changed differ from before. -/
  only : ∀ place, x.files.get? place ≠ fs.get? place →
    ∃ r ∈ x.report.files, r.changed = true ∧ fs.resolve r.path = .ok place
  /-- The files that are reported as changed are those that differ from before. -/
  changed : o.mode = .write → x.report.changed.map FileReport.path = modified fs x.files paths
  failed : ∀ p ∈ paths, wrappable o fs p = false → x.files.find p = fs.find p

namespace Workshop

variable {x : Workshop}

theorem Sound.readText_of_written (hx : x.Sound s o fs paths)
    (hdone : ∀ job ∈ x.jobs, ∃ result, job.stage = .done result) (hmode : o.mode = .write) (hp : p ∈ paths)
    (hfile : wrapFile s o fs p = .ok r) : x.files.readText p = .ok r.output := by
  obtain ⟨-, t, hread, hchanged⟩ := exists_of_wrapFile hfile
  obtain ⟨place, hplace, hget⟩ := FileTree.readText_eq_ok_iff.mp hread
  refine FileTree.readText_eq_ok_iff.mpr ⟨place, (hx.alike.resolve_eq p).trans hplace, ?_⟩
  rw [hx.get?_of_done hdone hp hplace, hget]
  by_cases hne : r.output = t
  · simp [written?, hfile, hchanged, hne]
  · simp [written?, hfile, hchanged, hne, hmode]

theorem Sound.find_of_unwritten (hx : x.Sound s o fs paths)
    (hdone : ∀ job ∈ x.jobs, ∃ result, job.stage = .done result) (hp : p ∈ paths)
    (hfile : wrapFile s o fs p = .error e) : x.files.find p = fs.find p := by
  apply hx.alike.find_eq
  intro place hplace
  have hnone : written? s o fs p = none := by simp [written?, hfile]
  rw [hx.get?_of_done hdone hp hplace, hnone]
  rfl

theorem Sound.exists_changed (hx : x.Sound s o fs paths)
    (hdone : ∀ job ∈ x.jobs, ∃ result, job.stage = .done result) {place : Place}
    (hne : x.files.get? place ≠ fs.get? place) :
    ∃ p ∈ paths, ∃ r, wrapFile s o fs p = .ok r ∧ r.changed = true ∧ fs.resolve p = .ok place := by
  obtain ⟨p, hp, hplace⟩ : ∃ p ∈ paths, fs.resolve p = .ok place := by
    by_contra hnone
    apply hne
    apply hx.others
    intro p hp hplace
    exact hnone ⟨p, hp, hplace⟩
  rw [hx.get?_of_done hdone hp hplace] at hne
  refine ⟨p, hp, ?_⟩
  cases hfile : wrapFile s o fs p with
  | error e => simp [written?, hfile] at hne
  | ok r =>
    refine ⟨r, rfl, ?_, hplace⟩
    by_contra hchanged
    simp [written?, hfile, hchanged] at hne

theorem Sound.accounted (hx : x.Sound s o fs paths) (hdone : ∀ job ∈ x.jobs, ∃ result, job.stage = .done result)
    (huntouched : o.mode ≠ .write → x.files = fs) : Accounted o fs paths x := by
  have hreport : x.report = reportOn s o fs paths := congrArg Batch.report (hx.results_eq hdone)
  obtain ⟨hfiles, hfailures⟩ := reportOn_split s o fs paths
  refine ⟨by rw [hreport, hfiles], by rw [hreport, hfailures], huntouched, ?_, ?_, ?_, ?_⟩
  · intro hmode r hr
    rw [hreport, mem_files_reportOn] at hr
    obtain ⟨p, hp, hfile⟩ := hr
    rw [(exists_of_wrapFile hfile).1]
    exact hx.readText_of_written hdone hmode hp hfile
  · intro place hne
    obtain ⟨p, hp, r, hfile, hchanged, hplace⟩ := hx.exists_changed hdone hne
    obtain rfl := (exists_of_wrapFile hfile).1
    exact ⟨r, hreport ▸ mem_files_reportOn.mpr ⟨r.path, hp, hfile⟩, hchanged, hplace⟩
  · intro hmode
    rw [hreport]
    apply changed_reportOn
    intro p hp
    cases hfile : wrapFile s o fs p with
    | error e => exact FileTree.readText_congr (hx.find_of_unwritten hdone hp hfile)
    | ok r =>
      obtain ⟨-, t, hread, hchanged⟩ := exists_of_wrapFile hfile
      show r.changed = _
      rw [hchanged, hx.readText_of_written hdone hmode hp hfile, hread]
      simp
  · intro p hp hfails
    rw [← isOk_wrapFile s o fs p] at hfails
    cases hfile : wrapFile s o fs p with
    | error e => exact hx.find_of_unwritten hdone hp hfile
    | ok r =>
      rw [hfile] at hfails
      cases hfails

end Workshop

theorem accounted_work (s : Settings) (o : BatchOptions) (hapart : paths.Pairwise fs.Apart)
    (hschedule : ∀ n < paths.length, 2 ≤ schedule.count n) :
    let x := (Workshop.start fs paths).work s o schedule
    Accounted o fs paths x ∧ x.report = reportOn s o fs paths ∧
    ∀ place, x.files.get? place = ((Workshop.start fs paths).work s o (readFirst paths)).files.get? place := by
  intro x
  have hsound : ∀ schedule, ((Workshop.start fs paths).work s o schedule).Sound s o fs paths :=
    fun schedule => (Workshop.sound_start s o fs paths).work hapart schedule
  have hlength : ∀ schedule, ((Workshop.start fs paths).work s o schedule).jobs.length = paths.length := by
    intro schedule
    rw [← List.length_map (f := Job.path), (hsound schedule).map_path]
  have hdone := Workshop.exists_done (hlength schedule) hschedule
  have hdone' := Workshop.exists_done (hlength (readFirst paths)) fun n hn => Nat.le_of_eq (count_readFirst hn).symm
  refine ⟨(hsound schedule).accounted hdone fun hmode => Workshop.files_work hmode schedule _,
    congrArg report ((hsound schedule).results_eq hdone), ?_⟩
  intro place
  by_cases hplace : ∃ p ∈ paths, fs.resolve p = .ok place
  · obtain ⟨p, hp, hplace⟩ := hplace
    rw [(hsound schedule).get?_of_done hdone hp hplace, (hsound _).get?_of_done hdone' hp hplace]
  · have hnone : ∀ p ∈ paths, fs.resolve p ≠ .ok place := fun p hp h => hplace ⟨p, hp, h⟩
    rw [(hsound schedule).others place hnone, (hsound _).others place hnone]

/-- Jobs on different files, in any order of their steps, come to the report and to the files of
`Batch.run`: each path is accounted for, the report does not depend on what is done with the files, and a
check reports those files as changed whose text is another one after writing. -/
theorem jobs_in_any_order (s : Settings) (o : BatchOptions) (hapart : paths.Pairwise fs.Apart)
    (hschedule : ∀ n < paths.length, 2 ≤ schedule.count n) :
    let x := (Workshop.start fs paths).work s o schedule
    Accounted o fs paths x ∧ x.report = (run s o fs paths).1 ∧
    (∀ place, x.files.get? place = (run s o fs paths).2.get? place) ∧
    (∀ mode, (run s { o with mode } fs paths).1 = x.report) ∧
    (run s { o with mode := .check } fs paths).1.changed.map FileReport.path =
      modified fs (run s { o with mode := .write } fs paths).2 paths := by
  intro x
  have hcount : ∀ n < paths.length, 2 ≤ (readFirst paths).count n := fun n hn => Nat.le_of_eq (count_readFirst hn).symm
  have hrun : ∀ o : BatchOptions, (run s o fs paths).1 = reportOn s o fs paths := by
    intro o
    rw [run_eq_work]
    exact (accounted_work s o hapart hcount).2.1
  obtain ⟨haccounted, hreport, hfiles⟩ := accounted_work s o hapart hschedule
  refine ⟨haccounted, hreport.trans (hrun o).symm, ?_, ?_, ?_⟩
  · rw [run_eq_work]
    exact hfiles
  · intro mode
    exact (hrun { o with mode }).trans hreport.symm
  · obtain ⟨hwritten, hreport', -⟩ := accounted_work s { o with mode := .write } hapart hcount
    rw [hrun, run_eq_work, ← hwritten.changed rfl, hreport']
    rfl

theorem jobs_in_any_order_three :
    let fs : FileTree := ⟨[(["a".toList], .file "aa bb cc".toList), (["b".toList], .binary [255])], []⟩
    let paths := ["a".toList, "b".toList, "c".toList]
    let o : BatchOptions := { mode := .write, fallbackWidth := 5 }
    let x := (Workshop.start fs paths).work {} o [0, 1, 2, 1, 0, 2]
    x.report.files.map FileReport.path = ["a".toList] ∧
    x.report.failures.map Error.path? = [some "b".toList, some "c".toList] ∧
    x.files.find "b".toList = .ok (.binary [255]) ∧ (run {} { o with mode := .check } fs paths).1 = x.report ∧
    modified fs (run {} o fs paths).2 paths = ["a".toList] := by
  intro fs paths o x
  have hapart : paths.Pairwise fs.Apart := by
    simp only [paths, List.pairwise_cons, List.forall_mem_cons]
    refine ⟨⟨?_, ?_, ?_⟩, ⟨?_, ?_⟩, ?_, List.Pairwise.nil⟩
    all_goals first
      | exact FileTree.apart_of_ne (by decide)
      | exact List.forall_mem_nil _
  have hschedule : ∀ n < paths.length, 2 ≤ [0, 1, 2, 1, 0, 2].count n := by decide
  obtain ⟨haccounted, -, -, hmodes, hcheck⟩ := jobs_in_any_order {} o hapart hschedule
  refine ⟨haccounted.files.trans (by decide), haccounted.failures.trans (by decide), ?_, hmodes .check, ?_⟩
  · rw [haccounted.failed "b".toList (by decide) (by decide)]
    rfl
  · rw [← hcheck]
    cbv

end Reflow.Batch
