import Reflow.Proofs.Files.WellFormed

/-!
# Walking a tree

A walk below a directory of a well-formed tree comes to each file below it once
(`FileTree.WellFormed.mem_filesBelow`, `FileTree.WellFormed.nodup_filesBelow`), and the path that it writes for a
file leads to the file (`FileTree.WellFormed.resolve_join`).
-/

namespace Reflow

namespace Path

variable {p q x y : Path} {names : List Text} {name : Text}

/-! ## Parts -/

theorem parts_append (x y : Path) : parts (x ++ '/' :: y) = parts x ++ parts y :=
  Text.split_append (by simp)

theorem steps_append (x y : Path) : steps (x ++ '/' :: y) = steps x ++ steps y := by
  rw [steps, parts_append, List.filter_append]
  rfl

theorem parts_join (hne : names ≠ []) (h : ∀ name ∈ names, IsName name) : parts (Text.join '/' names) = names :=
  Text.splitOn_join hne fun name hname => (h name hname).2.2.2

theorem steps_join (hne : names ≠ []) (h : ∀ name ∈ names, IsName name) : steps (Text.join '/' names) = names := by
  rw [steps, parts_join hne h]
  exact List.filter_eq_self.mpr fun name hname => (h name hname).isStep

theorem isAbsolute_join (hne : names ≠ []) (h : ∀ name ∈ names, IsName name) :
    isAbsolute (Text.join '/' names) = false := by
  obtain ⟨name, names, rfl⟩ := List.exists_cons_of_ne_nil hne
  obtain ⟨c, name, rfl⟩ := List.exists_cons_of_ne_nil (h name List.mem_cons_self).1
  obtain ⟨-, -, -, hslash⟩ := h (c :: name) List.mem_cons_self
  have hc : c ≠ '/' := fun hc => hslash (hc ▸ List.mem_cons_self)
  have hhead : (Text.join '/' ((c :: name) :: names)).head? = some c := by
    by_cases hnames : names = []
    · rw [hnames, Text.join_singleton]
      rfl
    · rw [Text.join_cons hnames]
      rfl
  simp [isAbsolute, hhead, hc]

theorem exists_join_eq (hp : p ≠ []) (hq : q.isAbsolute = false) :
    ∃ x, p.join q = x ++ '/' :: q ∧ x.steps = p.steps ∧ (p.join q).isAbsolute = p.isAbsolute := by
  obtain ⟨c, p, rfl⟩ := List.exists_cons_of_ne_nil hp
  have hnot : (q.isAbsolute || (c :: p).isEmpty) = false := by simp [hq]
  rw [join, if_neg (Bool.eq_false_iff.mp hnot)]
  split
  next hlast =>
    obtain ⟨x, hx⟩ := List.getLast?_eq_some_iff.mp hlast
    refine ⟨x, by rw [hx, List.append_assoc]; rfl, ?_, rfl⟩
    rw [hx, steps_append]
    exact (List.append_nil _).symm
  next => exact ⟨c :: p, rfl, rfl, rfl⟩

/-! ## Types of files -/

theorem fileName?_of_steps {front : List Text} (h : p.steps = front ++ [name]) (hname : IsName name) :
    p.fileName? = some name := by
  simp [fileName?, h, hname.2.2.1]

theorem extension?_of_steps {front : List Text} (h : p.steps = front ++ [name]) (hname : IsName name) :
    p.extension? = extension? name := by
  have hself : steps name = [] ++ [name] := by
    have hsteps : steps (Text.join '/' [name]) = [name] := steps_join (by simp) (by simpa using hname)
    rwa [Text.join_singleton] at hsteps
  rw [extension?, extension?, fileName?_of_steps h hname, fileName?_of_steps hself hname]

end Path

namespace FileTree

open Reflow.Path

variable {fs : FileTree} {p : Path} {place : Place} {names : List Text} {e : Entry}

/-! ## Ways that go on -/

theorem follow_append {needed : Bool} {start : Place} {steps more : List Text} (hmore : more ≠ [])
    (hplace : fs.follow needed start steps = .ok place) (hdirectory : fs.get? place = some .directory) :
    fs.follow false start (steps ++ more) = fs.follow false place more := by
  induction steps generalizing start with
  | nil =>
    obtain rfl := Except.ok.inj hplace
    rfl
  | cons step steps ih =>
    have hgoes : ((steps ++ more).isEmpty && !false) = false := by simp [hmore]
    rw [List.cons_append]
    simp only [follow] at hplace ⊢
    generalize (if step = ['.', '.'] then start.dropLast else start ++ [step]) = next at hplace ⊢
    rw [if_neg (Bool.eq_false_iff.mp hgoes)]
    split at hplace
    next hlast =>
      obtain rfl := Except.ok.inj hplace
      simp only [Bool.and_eq_true, List.isEmpty_iff] at hlast
      rw [hdirectory, hlast.1]
      rfl
    next =>
      split at hplace
      next => exact ih hplace
      next => cases hplace
      next hnext =>
        -- The way ends at nothing, which is no directory.
        split at hplace
        next =>
          obtain rfl := Except.ok.inj hplace
          cases hnext.symm.trans hdirectory
        next => cases hplace

theorem WellFormed.follow_names (h : fs.WellFormed) (hplace : fs.get? (place ++ names) = some e) :
    fs.follow false place names = .ok (place ++ names) := by
  induction names generalizing place with
  | nil => rw [List.append_nil]; rfl
  | cons name names ih =>
    have hstep : name ≠ ['.', '.'] := (h.isName hplace (by simp)).2.2.1
    rw [List.append_cons] at hplace ⊢
    simp only [follow, if_neg hstep]
    by_cases hnames : names = []
    · simp [hnames]
    · have hgoes : (names.isEmpty && !false) = false := by simp [hnames]
      rw [if_neg (Bool.eq_false_iff.mp hgoes), h.directory_above hnames hplace]
      exact ih hplace

theorem WellFormed.resolve_join (h : fs.WellFormed) (hne : names ≠ []) (hp : fs.resolve p = .ok place)
    (hplace : fs.get? (place ++ names) = some e) :
    fs.resolve (p.join (Text.join '/' names)) = .ok (place ++ names) ∧
      (p.join (Text.join '/' names)).steps = p.steps ++ names := by
  have hnames : ∀ name ∈ names, IsName name := fun name hname => h.isName hplace (List.mem_append_right _ hname)
  have hpne : p ≠ [] := by
    rintro rfl
    cases hp
  obtain ⟨x, hjoin, hx, habsolute⟩ := exists_join_eq hpne (isAbsolute_join hne hnames)
  have hsteps : (p.join (Text.join '/' names)).steps = p.steps ++ names := by
    rw [hjoin, steps_append, hx, steps_join hne hnames]
  have hclosed : (p.join (Text.join '/' names)).endsOpen = false := by
    have hlast : (names.getLast?.any isStep) = true := by
      rw [List.getLast?_eq_some_getLast hne]
      exact (hnames _ (List.getLast_mem hne)).isStep
    rw [hjoin, endsOpen, parts_append, parts_join hne hnames, List.getLast?_append_of_ne_nil _ hne, hlast]
    simp
  refine ⟨?_, hsteps⟩
  rw [resolve, if_neg (by simpa using hpne)] at hp
  rw [resolve, if_neg (by simp [hjoin]), hclosed, habsolute, hsteps,
    follow_append hne hp (h.directory_above hne hplace)]
  exact h.follow_names hplace

/-! ## Files below a directory -/

theorem WellFormed.mem_filesBelow (h : fs.WellFormed) :
    names ∈ fs.filesBelow place ↔ fs.holdsFile (place ++ names) = true := by
  rw [filesBelow, List.mem_mergeSort, List.mem_filterMap, holdsFile_iff]
  constructor
  · rintro ⟨⟨k, e⟩, hmem, hx⟩
    simp only [Option.ite_none_right_eq_some, Option.some.injEq, Bool.and_eq_true, decide_eq_true_eq] at hx
    obtain ⟨⟨hbelow, hfile⟩, rfl⟩ := hx
    have hk : place ++ k.drop place.length = k :=
      List.prefix_iff_eq_append.mp (List.isPrefixOf_iff_prefix.mp hbelow)
    exact ⟨e, by rw [hk, h.get?_eq_some_iff (h.named _ hmem).1]; exact hmem, hfile⟩
  · rintro ⟨e, hplace, hfile⟩
    have hnot : fs.get? (place ++ names) ≠ some .directory := by simp [hplace, hfile]
    have hne := ne_nil_of_get?_ne hnot
    refine ⟨(place ++ names, e), (h.get?_eq_some_iff hne).mp hplace, ?_⟩
    simp [hfile]

theorem filterMap_drop_sublist (place : Place) (entries : List (Place × Entry)) :
    ((entries.filterMap fun x =>
      if place.isPrefixOf x.1 && x.2 ≠ .directory then some (x.1.drop place.length) else none).map
        (place ++ ·)).Sublist (entries.map Prod.fst) := by
  induction entries with
  | nil => exact .slnil
  | cons x entries ih =>
    rw [List.filterMap_cons, List.map_cons]
    split
    next => exact ih.cons _
    next rest hx =>
      simp only [Option.ite_none_right_eq_some, Option.some.injEq, Bool.and_eq_true] at hx
      obtain ⟨⟨hbelow, -⟩, rfl⟩ := hx
      have hk := List.prefix_iff_eq_append.mp (List.isPrefixOf_iff_prefix.mp hbelow)
      rw [List.map_cons, hk]
      exact ih.cons_cons _

theorem WellFormed.nodup_filesBelow (h : fs.WellFormed) (place : Place) : (fs.filesBelow place).Nodup := by
  rw [filesBelow, (List.mergeSort_perm _ _).nodup_iff]
  exact .of_map _ ((filterMap_drop_sublist place fs.entries).nodup h.nodup)

end FileTree

end Reflow
