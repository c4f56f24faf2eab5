import Reflow.Batch.Run

/-!
# Jobs

Files are wrapped by jobs that are at work at the same time, one for each file.  A job reads its file and
wraps the text, and stores the result after that; other jobs may come in between.  A schedule is a list
that says which job goes on next, and `Batch.run` is the one in which all files are read before the first
one is stored (`Batch.run_eq_work`).
-/

namespace Reflow.Batch

/-- How far a job is. -/
inductive Stage
  | waiting
  /-- The file has been read and wrapped, and nothing is stored yet. -/
  | wrapped (result : Except Error FileReport)
  | done (result : Except Error FileReport)

structure Job where
  path : Path
  stage : Stage

structure Workshop where
  files : FileTree
  jobs : List Job

namespace Job

/-- What a job has come to, once it is done. -/
def result? (job : Job) : Option (Except Error FileReport) :=
  match job.stage with
  | .done result => some result
  | _ => none

def steps (job : Job) : Nat :=
  match job.stage with
  | .waiting => 0
  | .wrapped _ => 1
  | .done _ => 2

/-- The next step of a job, with the tree after it. -/
def next (s : Settings) (o : BatchOptions) (fs : FileTree) (job : Job) : Job × FileTree :=
  match job.stage with
  | .waiting => (⟨job.path, .wrapped (wrapFile s o fs job.path)⟩, fs)
  | .wrapped result =>
    match result.bind fun r => (store o fs r).map fun fs => (r, fs) with
    | .ok (r, fs) => (⟨job.path, .done (.ok r)⟩, fs)
    | .error e => (⟨job.path, .done (.error e)⟩, fs)
  | .done _ => (job, fs)

theorem path_next (s : Settings) (o : BatchOptions) (fs : FileTree) (job : Job) :
    (job.next s o fs).1.path = job.path := by
  obtain ⟨p, stage⟩ := job
  cases stage with
  | waiting => rfl
  | wrapped result =>
    simp only [next]
    split <;> rfl
  | done result => rfl

theorem steps_next (s : Settings) (o : BatchOptions) (fs : FileTree) (job : Job) :
    (job.next s o fs).1.steps = min 2 (job.steps + 1) := by
  obtain ⟨p, stage⟩ := job
  cases stage with
  | waiting => rfl
  | wrapped result =>
    simp only [next]
    split <;> rfl
  | done result => rfl

end Job

namespace Workshop

/-- The jobs for some paths, before the first step. -/
def start (fs : FileTree) (paths : List Path) : Workshop :=
  ⟨fs, paths.map fun p => ⟨p, .waiting⟩⟩

/-- Lets the job with the given number go on. -/
def step (s : Settings) (o : BatchOptions) (x : Workshop) (n : Nat) : Workshop :=
  match x.jobs[n]? with
  | some job =>
    let (job, fs) := job.next s o x.files
    ⟨fs, x.jobs.set n job⟩
  | none => x

/-- Lets the jobs go on one after the other as a schedule says. -/
def work (s : Settings) (o : BatchOptions) (x : Workshop) (schedule : List Nat) : Workshop :=
  schedule.foldl (step s o) x

def results (x : Workshop) : List (Except Error FileReport) :=
  x.jobs.filterMap Job.result?

def report (x : Workshop) : BatchReport :=
  Batch.report x.results

theorem step_split (s : Settings) (o : BatchOptions) (fs : FileTree) (front : List Job) (job : Job)
    (back : List Job) :
    step s o ⟨fs, front ++ job :: back⟩ front.length =
      ⟨(job.next s o fs).2, front ++ (job.next s o fs).1 :: back⟩ := by
  simp [step]

/-- A step either leaves all as it is, as there is no job with the number, or one job goes on. -/
theorem step_cases (s : Settings) (o : BatchOptions) (x : Workshop) (n : Nat) :
    (x.jobs.length ≤ n ∧ step s o x n = x) ∨
    ∃ front job back, x.jobs = front ++ job :: back ∧ front.length = n ∧
      step s o x n = ⟨(job.next s o x.files).2, front ++ (job.next s o x.files).1 :: back⟩ := by
  by_cases hn : n < x.jobs.length
  · right
    refine ⟨x.jobs.take n, x.jobs[n], x.jobs.drop (n + 1), ?_, List.length_take_of_le (Nat.le_of_lt hn), ?_⟩
    · rw [← List.drop_eq_getElem_cons hn, List.take_append_drop]
    · simp only [step, List.getElem?_eq_getElem hn, List.set_eq_take_append_cons_drop, if_pos hn]
  · left
    have hle := Nat.le_of_not_lt hn
    refine ⟨hle, ?_⟩
    simp only [step, List.getElem?_eq_none hle]

/-! ## Complete schedules -/

/-- The number of steps that the job with the given number has taken. -/
def stepsOf (x : Workshop) (n : Nat) : Nat :=
  (x.jobs[n]?.map Job.steps).getD 2

theorem stepsOf_step (s : Settings) (o : BatchOptions) (x : Workshop) (m n : Nat) :
    (step s o x m).stepsOf n = if m = n then min 2 (x.stepsOf n + 1) else x.stepsOf n := by
  rcases step_cases s o x m with ⟨hle, hstep⟩ | ⟨front, job, back, hjobs, rfl, hstep⟩
  · rw [hstep]
    split
    next heq =>
      subst heq
      rw [stepsOf, List.getElem?_eq_none hle]
      rfl
    next => rfl
  · rw [hstep]
    split
    next heq =>
      subst heq
      simp [stepsOf, hjobs, Job.steps_next]
    next hne =>
      rw [stepsOf, stepsOf, hjobs]
      rcases Nat.lt_or_gt_of_ne hne with hlt | hgt
      · obtain ⟨k, rfl⟩ := Nat.exists_eq_add_of_lt hlt
        have hindex : front.length + k + 1 - front.length = k + 1 := by omega
        rw [List.getElem?_append_right (by omega), List.getElem?_append_right (by omega), hindex]
        rfl
      · rw [List.getElem?_append_left hgt, List.getElem?_append_left hgt]

theorem stepsOf_work (s : Settings) (o : BatchOptions) (schedule : List Nat) (x : Workshop) (n : Nat)
    (hx : x.stepsOf n ≤ 2) : (x.work s o schedule).stepsOf n = min 2 (x.stepsOf n + schedule.count n) := by
  induction schedule generalizing x with
  | nil => simp [work, hx]
  | cons m schedule ih =>
    show ((step s o x m).work s o schedule).stepsOf n = _
    have hstep := stepsOf_step s o x m n
    rw [ih _ (by rw [hstep]; split <;> omega), hstep, List.count_cons]
    by_cases hmn : m = n
    · simp only [hmn, if_pos, beq_self_eq_true]
      omega
    · simp [hmn]

/-! ## Reading all files first -/

theorem work_append (s : Settings) (o : BatchOptions) (x : Workshop) (first later : List Nat) :
    x.work s o (first ++ later) = (x.work s o first).work s o later :=
  List.foldl_append

theorem work_waiting (s : Settings) (o : BatchOptions) (fs : FileTree) (front : List Job) (paths : List Path) :
    work s o ⟨fs, front ++ paths.map fun p => ⟨p, .waiting⟩⟩ (List.range' front.length paths.length) =
      ⟨fs, front ++ paths.map fun p => ⟨p, .wrapped (wrapFile s o fs p)⟩⟩ := by
  induction paths generalizing front with
  | nil => rfl
  | cons p paths ih =>
    have hrest := ih (front ++ [⟨p, .wrapped (wrapFile s o fs p)⟩])
    rw [List.length_append, List.length_singleton, List.append_assoc, List.append_assoc] at hrest
    rw [List.length_cons, List.range'_succ, List.map_cons]
    show work s o (step s o _ front.length) _ = _
    rw [step_split]
    exact hrest

theorem work_wrapped (s : Settings) (o : BatchOptions) (fs : FileTree) (front : List Job)
    (given : List (Path × Except Error FileReport)) :
    let x := work s o ⟨fs, front ++ given.map fun y => ⟨y.1, .wrapped y.2⟩⟩ (List.range' front.length given.length)
    let (results, fs) := storeAll o fs (given.map Prod.snd)
    x.results = front.filterMap Job.result? ++ results ∧ x.files = fs := by
  induction given generalizing fs front with
  | nil => simp [work, results, storeAll]
  | cons y given ih =>
    obtain ⟨p, result⟩ := y
    have hstep := step_split s o fs front ⟨p, .wrapped result⟩ (given.map fun y => ⟨y.1, .wrapped y.2⟩)
    rw [List.length_cons, List.range'_succ, List.map_cons, List.map_cons, storeAll]
    simp only [work, List.foldl_cons, hstep, Job.next]
    cases result.bind fun r => (store o fs r).map fun fs => (r, fs) with
    | ok stored =>
      obtain ⟨r, fs⟩ := stored
      have hrest := ih fs (front ++ [⟨p, .done (.ok r)⟩])
      simpa [work, Job.result?] using hrest
    | error e =>
      have hrest := ih fs (front ++ [⟨p, .done (.error e)⟩])
      simpa [work, Job.result?] using hrest

end Workshop

/-- The schedule that reads all files in the order of their paths, and stores them in the same order. -/
def readFirst (paths : List Path) : List Nat :=
  List.range paths.length ++ List.range paths.length

theorem run_eq_work (s : Settings) (o : BatchOptions) (fs : FileTree) (paths : List Path) :
    let x := (Workshop.start fs paths).work s o (readFirst paths)
    run s o fs paths = (x.report, x.files) := by
  intro x
  have hread := Workshop.work_waiting s o fs [] paths
  have hstore := Workshop.work_wrapped s o fs [] (paths.map fun p => (p, wrapFile s o fs p))
  simp only [List.nil_append, List.length_nil, ← List.range_eq_range', List.length_map, List.map_map,
    List.filterMap_nil] at hread hstore
  obtain ⟨hresults, hfiles⟩ := hstore
  have hx : x = Workshop.work s o ⟨fs, paths.map fun p => ⟨p, .wrapped (wrapFile s o fs p)⟩⟩
      (List.range paths.length) := by
    show (Workshop.start fs paths).work s o (readFirst paths) = _
    rw [readFirst, Workshop.work_append, ← hread]
    rfl
  rw [hx, Workshop.report]
  exact Prod.ext (congrArg Batch.report hresults).symm hfiles.symm

theorem count_readFirst {paths : List Path} {n : Nat} (hn : n < paths.length) : (readFirst paths).count n = 2 := by
  rw [readFirst, List.count_append, List.nodup_range.count, if_pos (List.mem_range.mpr hn)]

end Reflow.Batch
