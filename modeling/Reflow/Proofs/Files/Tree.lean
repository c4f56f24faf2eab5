import Mathlib
import Reflow.Files.Access

/-!
# Files after writing

Writing a text into a file changes what is at its place and nothing else (`FileTree.get?_put`).  So every
path leads to where it led before (`FileTree.Alike.resolve_eq`), and what has been written is what is read
afterwards (`FileTree.readText_writeText`).
-/

namespace Reflow

theorem exists_of_bind {ε α β : Type} {x : Except ε α} {f : α → Except ε β} {b : β} (h : (x >>= f) = .ok b) :
    ∃ a, x = .ok a ∧ f a = .ok b := by
  cases x with
  | error e => cases h
  | ok a => exact ⟨a, rfl, h⟩

namespace FileTree

variable {fs fs' : FileTree} {place q : Place} {p : Path} {t u : Text}

/-! ## What is at a place -/

theorem ne_nil_of_get?_ne (h : fs.get? place ≠ some .directory) : place ≠ [] := by
  rintro rfl
  exact h rfl

theorem get?_of_ne_nil (hne : place ≠ []) : fs.get? place = fs.entries.lookup place := by
  rw [get?, if_neg (by simpa using hne)]

theorem lookup_replaced (entries : List (Place × Entry)) (place : Place) (e : Entry) (q : Place) :
    (entries.map fun x => if x.1 = place then (place, e) else x).lookup q =
      if q = place then (entries.lookup q).map fun _ => e else entries.lookup q := by
  induction entries with
  | nil => simp
  | cons x entries ih =>
    obtain ⟨k, d⟩ := x
    rw [List.map_cons]
    by_cases hq : q = k
    · subst hq
      by_cases hk : q = place
      · simp [hk]
      · simp [hk]
    · have hqk : (q == k) = false := beq_eq_false_iff_ne.mpr hq
      by_cases hk : k = place
      · subst hk
        simpa [List.lookup_cons, hqk, hq] using ih
      · simpa [List.lookup_cons, hqk, hk] using ih

theorem isSome_lookup (entries : List (Place × Entry)) (place : Place) :
    (entries.lookup place).isSome = entries.any fun x => x.1 = place := by
  induction entries with
  | nil => rfl
  | cons x entries ih =>
    obtain ⟨k, d⟩ := x
    by_cases hk : place = k
    · simp [hk]
    · have hbeq : (place == k) = false := beq_eq_false_iff_ne.mpr hk
      have hne : ¬k = place := fun h => hk h.symm
      rw [List.lookup_cons, hbeq, List.any_cons, decide_eq_false hne, Bool.false_or]
      exact ih

theorem here_put (fs : FileTree) (place : Place) (e : Entry) : (fs.put place e).here = fs.here := by
  rw [put]
  split <;> rfl

theorem get?_put (fs : FileTree) (hne : place ≠ []) (e : Entry) (q : Place) :
    (fs.put place e).get? q = if q = place then some e else fs.get? q := by
  by_cases hq : q = []
  · rw [hq, if_neg hne.symm]
    rfl
  rw [get?_of_ne_nil hq, get?_of_ne_nil hq, put]
  split
  next hany =>
    rw [lookup_replaced]
    split
    next heq =>
      rw [← isSome_lookup, ← heq, Option.isSome_iff_exists] at hany
      obtain ⟨d, hd⟩ := hany
      rw [hd]
      rfl
    next => rfl
  next hany =>
    have hnone : fs.entries.lookup place = none := by
      rw [← isSome_lookup] at hany
      exact Option.not_isSome_iff_eq_none.mp hany
    rw [List.lookup_append]
    by_cases heq : q = place
    · rw [if_pos heq, heq, hnone]
      simp
    · have hbeq : (q == place) = false := beq_eq_false_iff_ne.mpr heq
      simp [heq, List.lookup_cons, hbeq]

/-! ## Where a path leads -/

/-- At each place there is a directory, something else or nothing in both trees, and relative paths start
at the same place. -/
structure Alike (fs fs' : FileTree) : Prop where
  here : fs'.here = fs.here
  directory : ∀ place, fs'.get? place = some .directory ↔ fs.get? place = some .directory
  missing : ∀ place, fs'.get? place = none ↔ fs.get? place = none

namespace Alike

theorem refl (fs : FileTree) : Alike fs fs :=
  ⟨rfl, fun _ => .rfl, fun _ => .rfl⟩

theorem trans {fs'' : FileTree} (h : Alike fs fs') (h' : Alike fs' fs'') : Alike fs fs'' :=
  ⟨h'.here.trans h.here, fun place => (h'.directory place).trans (h.directory place),
    fun place => (h'.missing place).trans (h.missing place)⟩

theorem follow_eq (h : Alike fs fs') (needed : Bool) (start : Place) (steps : List Text) :
    fs'.follow needed start steps = fs.follow needed start steps := by
  induction steps generalizing start with
  | nil => rfl
  | cons step steps ih =>
    simp only [follow]
    generalize (if step = ['.', '.'] then start.dropLast else start ++ [step]) = next
    cases hnext : fs.get? next with
    | none => rw [(h.missing next).mpr hnext]
    | some e =>
      by_cases he : e = .directory
      · rw [he] at hnext ⊢
        rw [(h.directory next).mpr hnext]
        simp only [ih]
      · obtain ⟨d, hd⟩ : ∃ d, fs'.get? next = some d := by
          apply Option.ne_none_iff_exists'.mp
          rw [Ne, h.missing, hnext]
          simp
        have hdne : d ≠ .directory := by
          rintro rfl
          rw [h.directory, hnext] at hd
          exact he (Option.some.inj hd)
        rw [hd]
        cases e <;> cases d <;> simp_all

theorem resolve_eq (h : Alike fs fs') (p : Path) : fs'.resolve p = fs.resolve p := by
  rw [resolve, resolve, h.here]
  simp only [h.follow_eq]

theorem put (h : fs.get? place = some (.file t)) (u : Text) : Alike fs (fs.put place (.file u)) := by
  have hfile : fs.get? place ≠ some .directory := by simp [h]
  have hne := ne_nil_of_get?_ne hfile
  refine ⟨here_put fs place _, ?_, ?_⟩
  · intro q
    rw [get?_put fs hne]
    by_cases hq : q = place
    · simp [hq, h]
    · rw [if_neg hq]
  · intro q
    rw [get?_put fs hne]
    by_cases hq : q = place
    · simp [hq, h]
    · rw [if_neg hq]

end Alike

/-! ## Reading and writing -/

theorem find_eq_ok_iff {e : Entry} :
    fs.find p = .ok e ↔ ∃ place, fs.resolve p = .ok place ∧ fs.get? place = some e := by
  unfold find
  cases fs.resolve p with
  | error fault => simp [bind, Except.bind]
  | ok place =>
    cases hplace : fs.get? place with
    | none => simp [bind, Except.bind, hplace]
    | some d => simp [bind, Except.bind, hplace]

theorem readText_eq_ok_iff :
    fs.readText p = .ok t ↔ ∃ place, fs.resolve p = .ok place ∧ fs.get? place = some (.file t) := by
  rw [← find_eq_ok_iff, readText, read]
  cases fs.find p with
  | error fault => simp [bind, Except.bind, Except.mapError]
  | ok e => cases e <;> simp [bind, Except.bind, Except.mapError]

theorem writeText_of_get? (hplace : fs.resolve p = .ok place) (h : fs.get? place = some (.file t)) (u : Text) :
    fs.writeText p u = .ok (fs.put place (.file u)) := by
  unfold writeText write
  simp only [hplace, bind, Except.bind, h]
  rfl

theorem exists_of_writeText (h : fs.writeText p u = .ok fs') :
    ∃ place, fs.resolve p = .ok place ∧ fs' = fs.put place (.file u) ∧ fs.get? place ≠ some .directory ∧
      (fs.get? place = none → p.endsOpen = false) := by
  unfold writeText write at h
  cases hplace : fs.resolve p with
  | error fault =>
    rw [hplace] at h
    cases h
  | ok place =>
    rw [hplace] at h
    simp only [bind, Except.bind] at h
    cases hget : fs.get? place with
    | some e =>
      rw [hget] at h
      cases e <;> simp_all [Except.mapError]
    | none =>
      rw [hget] at h
      simp only at h
      cases hparent : fs.get? place.dropLast with
      | none => simp [hparent, Except.mapError] at h
      | some e =>
        rw [hparent] at h
        cases e <;> cases hopen : p.endsOpen <;> simp_all [Except.mapError]

theorem follow_put {needed : Bool} {start : Place} {steps : List Text} (hfile : fs.get? place ≠ some .directory)
    (hneeded : fs.get? place = none → needed = false) (h : fs.follow needed start steps = .ok place) (u : Text) :
    (fs.put place (.file u)).follow needed start steps = .ok place := by
  have hne := ne_nil_of_get?_ne hfile
  induction steps generalizing start with
  | nil => exact h
  | cons step steps ih =>
    simp only [follow] at h ⊢
    generalize (if step = ['.', '.'] then start.dropLast else start ++ [step]) = next at h ⊢
    split at h
    next hlast => rw [if_pos hlast, h]
    next hlast =>
      rw [if_neg hlast]
      split at h
      next hnext =>
        have hput : (fs.put place (.file u)).get? next = some .directory := by
          rw [get?_put fs hne, if_neg, hnext]
          rintro rfl
          exact hfile hnext
        rw [hput]
        exact ih h
      next => cases h
      next hnext =>
        -- Nothing is at the place, so that its path has to name a directory contradicts the writing.
        split at h
        next hsteps =>
          obtain rfl := Except.ok.inj h
          simp [hneeded hnext, hsteps] at hlast
        next => cases h

/-- What writing does: the path leads where it led before, and there the text is put. -/
theorem resolve_writeText (h : fs.writeText p u = .ok fs') :
    ∃ place, place ≠ [] ∧ fs' = fs.put place (.file u) ∧ fs'.resolve p = .ok place := by
  obtain ⟨place, hplace, rfl, hfile, hopen⟩ := exists_of_writeText h
  refine ⟨place, ne_nil_of_get?_ne hfile, rfl, ?_⟩
  rw [resolve] at hplace ⊢
  rw [here_put]
  split at hplace
  next => cases hplace
  next hp =>
    rw [if_neg hp]
    exact follow_put hfile hopen hplace u

theorem readText_writeText (h : fs.writeText p u = .ok fs') : fs'.readText p = .ok u := by
  obtain ⟨place, hne, rfl, hplace⟩ := resolve_writeText h
  rw [readText_eq_ok_iff]
  exact ⟨place, hplace, by rw [get?_put fs hne, if_pos rfl]⟩

theorem isFile_of_readText (h : fs.readText p = .ok t) : fs.isFile p = true := by
  rw [isFile, find_eq_ok_iff.mpr (readText_eq_ok_iff.mp h)]

/-! ## Files that are left alone -/

/-- The paths do not lead to the same place. -/
def Apart (fs : FileTree) (p q : Path) : Prop :=
  ∀ place, fs.resolve p = .ok place → fs.resolve q ≠ .ok place

theorem apart_of_ne {p q : Path} (h : fs.resolve p ≠ fs.resolve q) : fs.Apart p q :=
  fun _ hp hq => h (hp.trans hq.symm)

theorem Alike.find_eq (h : Alike fs fs')
    (hplace : ∀ place, fs.resolve p = .ok place → fs'.get? place = fs.get? place) : fs'.find p = fs.find p := by
  unfold find
  rw [h.resolve_eq]
  cases hp : fs.resolve p with
  | error fault => rfl
  | ok place =>
    simp only [bind, Except.bind]
    rw [hplace place hp]

theorem readText_congr (h : fs'.find p = fs.find p) : fs'.readText p = fs.readText p := by
  unfold readText read
  rw [h]

/-! ## Directories that are made -/

theorem exists_of_makeDirectory (h : fs.makeDirectory p = .ok fs') :
    ∃ place, fs.resolve p = .ok place ∧ fs.get? place = none ∧ fs' = fs.put place .directory := by
  obtain ⟨place, hplace, h⟩ := exists_of_bind h
  refine ⟨place, hplace, ?_⟩
  cases hget : fs.get? place with
  | some e =>
    rw [hget] at h
    cases h
  | none =>
    rw [hget] at h
    simp only at h
    split at h
    next => exact ⟨rfl, (Except.ok.inj h).symm⟩
    next => cases h
    next => cases h

section

variable {P : FileTree → Prop} (hmake : ∀ {fs fs' p}, makeDirectory fs p = .ok fs' → P fs → P fs')
include hmake

theorem makeDirectoriesWithin_induction {n : Nat} (h : makeDirectoriesWithin n fs p = .ok fs') (hfs : P fs) :
    P fs' := by
  -- A directory that could not be made may have been there before.
  have hretry {fs fs' : FileTree} {p : Path} {fault : Fault} (hfs : P fs)
      (h : (if fs.isDirectory p then .ok fs else .error fault) = Except.ok fs') : P fs' := by
    split at h
    · obtain rfl := Except.ok.inj h
      exact hfs
    · cases h
  induction n generalizing fs fs' p with
  | zero =>
    obtain rfl := Except.ok.inj h
    exact hfs
  | succ n ih =>
    unfold makeDirectoriesWithin at h
    split at h
    next =>
      obtain rfl := Except.ok.inj h
      exact hfs
    next =>
      simp only at h
      split at h
      next made hmade =>
        obtain rfl := Except.ok.inj h
        exact hmake hmade hfs
      next =>
        split at h
        next => cases h
        next parent _ =>
          obtain ⟨made, hparents, h⟩ := exists_of_bind h
          have hmade := ih hparents hfs
          split at h
          next made' hmade' =>
            obtain rfl := Except.ok.inj h
            exact hmake hmade' hmade
          next => exact hretry hmade h
      next => exact hretry hfs h

/-- What making one directory keeps, making all directories of a path keeps. -/
theorem ensureDirectory_induction (h : fs.ensureDirectory p = .ok fs') (hfs : P fs) : P fs' := by
  unfold ensureDirectory makeDirectories at h
  cases hmade : makeDirectoriesWithin (p.length + 1) fs p with
  | error fault =>
    rw [hmade] at h
    cases h
  | ok made =>
    rw [hmade] at h
    obtain rfl := Except.ok.inj h
    exact makeDirectoriesWithin_induction hmake hmade hfs

end

/-- The one tree has directories where the other has nothing, and the same everywhere else. -/
structure Extends (fs fs' : FileTree) : Prop where
  here : fs'.here = fs.here
  get? : ∀ place, fs'.get? place = fs.get? place ∨ fs.get? place = none ∧ fs'.get? place = some .directory

namespace Extends

theorem refl (fs : FileTree) : Extends fs fs :=
  ⟨rfl, fun _ => .inl rfl⟩

theorem trans {fs'' : FileTree} (h : Extends fs fs') (h' : Extends fs' fs'') : Extends fs fs'' := by
  refine ⟨h'.here.trans h.here, fun place => ?_⟩
  rcases h.get? place with hsame | ⟨hnone, hmade⟩
  · rw [← hsame]
    exact h'.get? place
  · rcases h'.get? place with hsame' | ⟨hnone', -⟩
    · exact .inr ⟨hnone, hsame'.trans hmade⟩
    · cases hmade.symm.trans hnone'

theorem makeDirectory (h : fs.makeDirectory p = .ok fs') : Extends fs fs' := by
  obtain ⟨place, -, hget, rfl⟩ := exists_of_makeDirectory h
  have hmissing : fs.get? place ≠ some .directory := by simp [hget]
  refine ⟨here_put .., fun q => ?_⟩
  rw [get?_put fs (ne_nil_of_get?_ne hmissing)]
  by_cases hq : q = place
  · exact .inr ⟨hq ▸ hget, if_pos hq⟩
  · exact .inl (if_neg hq)

theorem ensureDirectory (h : fs.ensureDirectory p = .ok fs') : Extends fs fs' :=
  ensureDirectory_induction (P := Extends fs) (fun hmake hfs => hfs.trans (makeDirectory hmake)) h (refl fs)

end Extends

end FileTree

end Reflow
