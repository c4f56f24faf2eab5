import Reflow.Proofs.Files.Tree
import Reflow.Proofs.Text.Split

/-!
# Well-formed trees

In a well-formed tree each place has one entry, which is called by a name and in a directory.  A path leads only to
places that an entry can be at (`FileTree.Admits`), so writing a file or making directories keeps a tree well-formed
(`FileTree.WellFormed.writeText`, `FileTree.WellFormed.ensureDirectory`).
-/

namespace Reflow

namespace Path

variable {p : Path} {name : Text}

/-! ## Names -/

/-- What an entry of a directory can be called. -/
def IsName (name : Text) : Prop :=
  name ≠ [] ∧ name ≠ ['.'] ∧ name ≠ ['.', '.'] ∧ '/' ∉ name

instance (name : Text) : Decidable (IsName name) :=
  inferInstanceAs (Decidable (_ ∧ _))

theorem IsName.isStep (h : IsName name) : isStep name = true := by
  simp [Path.isStep, h.1, h.2.1]

theorem isName_of_mem_steps (h : name ∈ p.steps) (hup : name ≠ ['.', '.']) : IsName name := by
  obtain ⟨hpart, hstep⟩ := List.mem_filter.mp h
  have hslash : '/' ∉ name := by
    intro hmem
    simpa using Text.not_sep_of_mem_split hpart '/' hmem
  simp only [Path.isStep, Bool.and_eq_true, Bool.not_eq_true', List.isEmpty_eq_false_iff, decide_eq_true_eq] at hstep
  exact ⟨hstep.1, hstep.2, hup, hslash⟩

end Path

namespace FileTree

open Reflow.Path

variable {fs fs' : FileTree} {p : Path} {place : Place} {names : List Text} {e : Entry}

/-! ## Well-formed trees -/

/-- Each place has one entry, and it is in a directory that its last name is a name in. -/
structure WellFormed (fs : FileTree) : Prop where
  nodup : (fs.entries.map Prod.fst).Nodup
  named : ∀ x ∈ fs.entries, x.1 ≠ [] ∧ ∀ name ∈ x.1, IsName name
  parent : ∀ x ∈ fs.entries, fs.get? x.1.dropLast = some .directory
  here : fs.get? fs.here = some .directory

instance (fs : FileTree) : Decidable fs.WellFormed :=
  decidable_of_iff ((fs.entries.map Prod.fst).Nodup ∧ (∀ x ∈ fs.entries, x.1 ≠ [] ∧ ∀ name ∈ x.1, IsName name) ∧
      (∀ x ∈ fs.entries, fs.get? x.1.dropLast = some .directory) ∧ fs.get? fs.here = some .directory)
    ⟨fun ⟨h, h', h'', h'''⟩ => ⟨h, h', h'', h'''⟩, fun h => ⟨h.nodup, h.named, h.parent, h.here⟩⟩

def holdsFile (fs : FileTree) (place : Place) : Bool :=
  (fs.get? place).any fun e => e ≠ .directory

theorem holdsFile_iff : fs.holdsFile place = true ↔ ∃ e, fs.get? place = some e ∧ e ≠ .directory := by
  simp [holdsFile, Option.any_eq_true]

theorem mem_of_lookup {entries : List (Place × Entry)} (h : entries.lookup place = some e) : (place, e) ∈ entries := by
  obtain ⟨front, back, rfl, -⟩ := List.lookup_eq_some_iff.mp h
  simp

theorem lookup_of_mem {entries : List (Place × Entry)} (hnodup : (entries.map Prod.fst).Nodup)
    (h : (place, e) ∈ entries) : entries.lookup place = some e := by
  induction entries with
  | nil => cases h
  | cons x entries ih =>
    obtain ⟨k, d⟩ := x
    rw [List.map_cons, List.nodup_cons] at hnodup
    rcases List.mem_cons.mp h with heq | h
    · obtain ⟨rfl, rfl⟩ := Prod.mk.inj heq
      exact List.lookup_cons_self
    · have hne : place ≠ k := fun heq => hnodup.1 (List.mem_map.mpr ⟨_, h, heq⟩)
      rw [List.lookup_cons, beq_eq_false_iff_ne.mpr hne]
      exact ih hnodup.2 h

namespace WellFormed

variable (h : fs.WellFormed)
include h

theorem get?_eq_some_iff (hne : place ≠ []) : fs.get? place = some e ↔ (place, e) ∈ fs.entries := by
  rw [get?_of_ne_nil hne]
  exact ⟨mem_of_lookup, lookup_of_mem h.nodup⟩

theorem isName (hplace : fs.get? place = some e) {name : Text} (hname : name ∈ place) : IsName name := by
  have hne : place ≠ [] := List.ne_nil_of_mem hname
  exact (h.named _ ((h.get?_eq_some_iff hne).mp hplace)).2 name hname

theorem directory_above (hne : names ≠ []) (hplace : fs.get? (place ++ names) = some e) :
    fs.get? place = some .directory := by
  induction names using List.reverseRecOn generalizing e with
  | nil => exact absurd rfl hne
  | append_singleton names name ih =>
    have hmem := (h.get?_eq_some_iff (by simp)).mp hplace
    have hparent := h.parent _ hmem
    rw [← List.append_assoc, List.dropLast_concat] at hparent
    by_cases hnames : names = []
    · rwa [hnames, List.append_nil] at hparent
    · exact ih hnames hparent

end WellFormed

/-! ## Places for entries -/

/-- An entry can be at the place: it is in a directory, and the names on the way to it are names. -/
structure Admits (fs : FileTree) (place : Place) : Prop where
  isName : ∀ name ∈ place, IsName name
  parent : fs.get? place.dropLast = some .directory

namespace WellFormed

variable (h : fs.WellFormed)
include h

theorem admits (hplace : fs.get? place = some e) : fs.Admits place := by
  refine ⟨fun name => h.isName hplace, ?_⟩
  by_cases hne : place = []
  · rw [hne]
    rfl
  · exact h.parent _ ((h.get?_eq_some_iff hne).mp hplace)

theorem admits_next (hplace : fs.get? place = some .directory) {step : Text} (hstep : step ≠ ['.', '.'] → IsName step) :
    fs.Admits (if step = ['.', '.'] then place.dropLast else place ++ [step]) := by
  split
  next => exact h.admits (h.admits hplace).parent
  next hup =>
    refine ⟨?_, by rw [List.dropLast_concat]; exact hplace⟩
    rw [List.forall_mem_append, List.forall_mem_singleton]
    exact ⟨fun name => h.isName hplace, hstep hup⟩

/-- The way of a path goes from directory to directory, and only its last place may be no directory. -/
theorem admits_of_follow {needed : Bool} {start : Place} {steps : List Text}
    (hsteps : ∀ step ∈ steps, step ≠ ['.', '.'] → IsName step) (hstart : fs.get? start = some .directory)
    (hfollow : fs.follow needed start steps = .ok place) : fs.Admits place := by
  induction steps generalizing start with
  | nil =>
    obtain rfl := Except.ok.inj hfollow
    exact h.admits hstart
  | cons step steps ih =>
    rw [List.forall_mem_cons] at hsteps
    have hnext := h.admits_next hstart hsteps.1
    simp only [follow] at hfollow
    generalize (if step = ['.', '.'] then start.dropLast else start ++ [step]) = next at hnext hfollow
    split at hfollow
    next =>
      obtain rfl := Except.ok.inj hfollow
      exact hnext
    next =>
      split at hfollow
      next hdirectory => exact ih hsteps.2 hdirectory hfollow
      next => cases hfollow
      next =>
        split at hfollow
        next =>
          obtain rfl := Except.ok.inj hfollow
          exact hnext
        next => cases hfollow

theorem admits_of_resolve (hp : fs.resolve p = .ok place) : fs.Admits place := by
  rw [resolve] at hp
  split at hp
  next => cases hp
  next =>
    refine h.admits_of_follow (fun step => isName_of_mem_steps) ?_ hp
    split
    · rfl
    · exact h.here

end WellFormed

/-! ## Trees that are written to -/

theorem mem_put {x : Place × Entry} (h : x ∈ (fs.put place e).entries) : x.1 = place ∨ x ∈ fs.entries := by
  rw [put] at h
  split at h
  next =>
    obtain ⟨y, hy, rfl⟩ := List.mem_map.mp h
    split
    next => exact .inl rfl
    next => exact .inr hy
  next =>
    rcases List.mem_append.mp h with h | h
    · exact .inr h
    · exact .inl (congrArg Prod.fst (List.mem_singleton.mp h))

theorem nodup_put (h : (fs.entries.map Prod.fst).Nodup) : ((fs.put place e).entries.map Prod.fst).Nodup := by
  rw [put]
  split
  next =>
    have hplaces : (fs.entries.map fun x => if x.1 = place then (place, e) else x).map Prod.fst =
        fs.entries.map Prod.fst := by
      rw [List.map_map]
      refine List.map_congr_left fun x _ => ?_
      by_cases hx : x.1 = place
      · simp [hx]
      · simp [hx]
    rw [hplaces]
    exact h
  next hany =>
    rw [List.map_append, List.map_singleton, List.nodup_append_comm, List.singleton_append, List.nodup_cons]
    refine ⟨?_, h⟩
    intro hmem
    obtain ⟨x, hx, rfl⟩ := List.mem_map.mp hmem
    exact hany (List.any_eq_true.mpr ⟨x, hx, decide_eq_true rfl⟩)

namespace WellFormed

variable (h : fs.WellFormed)
include h

theorem put (hplace : fs.Admits place) (hfile : fs.get? place ≠ some .directory) (e : Entry) :
    (fs.put place e).WellFormed := by
  have hne := ne_nil_of_get?_ne hfile
  have hkept (q : Place) (hq : fs.get? q = some .directory) : (fs.put place e).get? q = some .directory := by
    rw [get?_put fs hne, if_neg, hq]
    rintro rfl
    exact hfile hq
  refine ⟨nodup_put h.nodup, fun x hx => ?_, fun x hx => hkept _ ?_, ?_⟩
  · rcases mem_put hx with hx | hx
    · rw [hx]
      exact ⟨hne, hplace.isName⟩
    · exact h.named x hx
  · rcases mem_put hx with hx | hx
    · rw [hx]
      exact hplace.parent
    · exact h.parent x hx
  · rw [here_put]
    exact hkept _ h.here

theorem writeText {t : Text} (hwrite : fs.writeText p t = .ok fs') : fs'.WellFormed := by
  obtain ⟨place, hp, rfl, hfile, -⟩ := exists_of_writeText hwrite
  exact h.put (h.admits_of_resolve hp) hfile _

theorem makeDirectory (hmake : fs.makeDirectory p = .ok fs') : fs'.WellFormed := by
  obtain ⟨place, hp, hmissing, rfl⟩ := exists_of_makeDirectory hmake
  exact h.put (h.admits_of_resolve hp) (by simp [hmissing]) _

theorem ensureDirectory (hmake : fs.ensureDirectory p = .ok fs') : fs'.WellFormed :=
  ensureDirectory_induction (fun hmake h => h.makeDirectory hmake) hmake h

end WellFormed

end FileTree

end Reflow
