import Reflow.Proofs.Files.Tree
import Reflow.Proofs.Text.LineEnding
import Reflow.Settings.DotEnv

/-!
# Variable files that are read again

Which variables the lines of a variable file name, and where the first broken line is, depends on no value
(`DotEnv.map_fst_line?`).  After the file was read, all these variables have values, so that reading it again
changes nothing (`DotEnv.applyLines_applyLines`).
-/

namespace Reflow.DotEnv

variable {env : Environment} {name u : Text} {line : Text} {lines : List Text}

/-! ## Values and lines -/

theorem isSome_valueFrom? (value value' : Text → Text) (mode : Mode) (reference : Reference) (escaped : Bool)
    (read read' t : Text) :
    (valueFrom? value mode reference escaped read t).isSome =
      (valueFrom? value' mode reference escaped read' t).isSome := by
  induction t generalizing value value' mode reference escaped read read' with
  | nil => cases mode <;> cases reference <;> rfl
  | cons c t ih =>
    -- The next state depends on the character and the state alone.
    obtain ⟨readable, h, h'⟩ : ∃ readable : Mode → Reference → Bool → Bool,
        (∀ m r e read, (valueFrom? value m r e read t).isSome = readable m r e) ∧
        ∀ m r e read, (valueFrom? value' m r e read t).isSome = readable m r e :=
      ⟨fun m r e => (valueFrom? value m r e [] t).isSome, fun m r e _ => ih .., fun m r e _ => ih ..⟩
    cases escaped with
    | true =>
      simp only [valueFrom?, if_true, apply_ite Option.isSome, h, h', Option.isSome_some]
      congr 1
      split
      case h_7 => rfl
      all_goals rw [h, h']
    | false =>
      cases reference with
      | _ => simp only [valueFrom?, Bool.false_eq_true, if_false, apply_ite Option.isSome, h, h', Option.isSome_some]

/-- What a line gives to a variable, after the name of it. -/
def given? (value : Text → Text) (name t : Text) : Option (Option (Text × Text)) := do
  let t := Text.trimStart (← Text.after? ['='] t)
  if t.isEmpty || t.head? = some '#' then return some (name, [])
  return some (name, ← valueFrom? value .plain .none false [] t)

theorem map_fst_given? (value value' : Text → Text) (name t : Text) :
    (given? value name t).map (Option.map Prod.fst) = (given? value' name t).map (Option.map Prod.fst) := by
  simp only [given?, bind, pure]
  cases Text.after? ['='] t with
  | none => rfl
  | some u =>
    simp only [Option.bind_some]
    split_ifs
    · rfl
    · have h := isSome_valueFrom? value value' .plain .none false [] [] (Text.trimStart u)
      cases hv : valueFrom? value .plain .none false [] (Text.trimStart u) with
      | none =>
        rw [hv, Option.isSome_none, eq_comm, Option.isSome_eq_false_iff, Option.isNone_iff_eq_none] at h
        rw [h]
      | some v =>
        rw [hv, Option.isSome_some, eq_comm, Option.isSome_iff_exists] at h
        obtain ⟨v', hv'⟩ := h
        rw [hv']
        rfl

theorem map_fst_line? (value value' : Text → Text) (t : Text) :
    (line? value t).map (Option.map Prod.fst) = (line? value' t).map (Option.map Prod.fst) := by
  simp only [line?, bind, pure]
  split_ifs
  · rfl
  · cases name? (Text.trimStart (Text.dropEndWhile isBlank t)) with
    | none => rfl
    | some found =>
      simp only [Option.bind_some]
      split_ifs
      · cases name? (Text.trimStart found.2) with
        | none => rfl
        | some found => exact map_fst_given? value value' found.1 (Text.trimStart found.2)
      · exact map_fst_given? value value' found.1 (Text.trimStart found.2)

/-! ## Files -/

/-- The variables that some lines name, up to the first broken one. -/
def names : List Text → List Text
  | [] => []
  | line :: lines =>
    match (line? (fun _ => []) (LineEnding.chop line)).map (Option.map Prod.fst) with
    | none => []
    | some none => names lines
    | some (some name) => name :: names lines

/-- What a line does: it ends the reading, it names no variable, or it offers a value to one. -/
theorem applyLines_cases (env : Environment) (given : List (Text × Text)) (line : Text) (lines : List Text) :
    (applyLines env given (line :: lines) = env ∧ names (line :: lines) = []) ∨
    (applyLines env given (line :: lines) = applyLines env given lines ∧ names (line :: lines) = names lines) ∨
    ∃ name v, applyLines env given (line :: lines) = applyLines (env.offer name v) ((name, v) :: given) lines ∧
      names (line :: lines) = name :: names lines := by
  have hnames := map_fst_line? (fun _ => []) (fun name => ((env.lookup name).or (given.lookup name)).getD [])
    (LineEnding.chop line)
  rw [names, hnames, applyLines, LineEnding.chop]
  generalize line? _ _ = found
  rcases found with _ | _ | found
  · exact .inl ⟨rfl, rfl⟩
  · exact .inr (.inl ⟨rfl, rfl⟩)
  · exact .inr (.inr ⟨found.1, found.2, rfl, rfl⟩)

theorem offer_eq_self (h : (env.lookup name).isSome = true) (v : Text) : env.offer name v = env :=
  if_pos h

theorem isSome_lookup_offer (h : (env.lookup u).isSome = true ∨ u = name) (v : Text) :
    ((env.offer name v).lookup u).isSome = true := by
  unfold Environment.offer
  split
  next hname =>
    rcases h with h | rfl
    · exact h
    · exact hname
  next hname =>
    by_cases hu : u = name
    · simp [hu]
    · rw [List.lookup_cons, beq_false_of_ne hu]
      exact h.resolve_right hu

theorem isSome_lookup_applyLines (given : List (Text × Text)) (h : (env.lookup u).isSome = true ∨ u ∈ names lines) :
    ((applyLines env given lines).lookup u).isSome = true := by
  induction lines generalizing env given with
  | nil => exact h.resolve_right List.not_mem_nil
  | cons line lines ih =>
    rcases applyLines_cases env given line lines with ⟨happly, hnames⟩ | ⟨happly, hnames⟩ | ⟨name, v, happly, hnames⟩
    · rw [hnames] at h
      rw [happly]
      exact h.resolve_right List.not_mem_nil
    · rw [hnames] at h
      rw [happly]
      exact ih given h
    · rw [hnames, List.mem_cons, ← or_assoc] at h
      rw [happly]
      exact ih _ (h.imp_left fun h => isSome_lookup_offer h v)

theorem applyLines_eq_self (h : ∀ name ∈ names lines, (env.lookup name).isSome = true) (given : List (Text × Text)) :
    applyLines env given lines = env := by
  induction lines generalizing given with
  | nil => rfl
  | cons line lines ih =>
    rcases applyLines_cases env given line lines with ⟨happly, hnames⟩ | ⟨happly, hnames⟩ | ⟨name, v, happly, hnames⟩
    · exact happly
    · rw [hnames] at h
      rw [happly]
      exact ih h given
    · rw [hnames, List.forall_mem_cons] at h
      rw [happly, offer_eq_self h.1]
      exact ih h.2 _

theorem applyLines_applyLines (env : Environment) (given given' : List (Text × Text)) (lines : List Text) :
    applyLines (applyLines env given lines) given' lines = applyLines env given lines :=
  applyLines_eq_self (fun _ hname => isSome_lookup_applyLines given (.inr hname)) given'

/-- The environment with the variables of a variable file, if there is one. -/
def applyEntry (env : Environment) : Option Entry → Environment
  | some (.file t) => applyLines env [] (Text.lines t)
  | some (.binary bytes) => applyLines env [] (textLines bytes)
  | _ => env

theorem applyEntry_applyEntry (env : Environment) (e : Option Entry) :
    applyEntry (applyEntry env e) e = applyEntry env e := by
  cases e with
  | none => rfl
  | some e =>
    cases e with
    | file t => exact applyLines_applyLines ..
    | binary bytes => exact applyLines_applyLines ..
    | directory => rfl

theorem apply_eq (fs : FileTree) (env : Environment) :
    apply fs env = applyEntry env (find? fs (fs.here.length + 1) fs.here) :=
  rfl

/-! ## Which file it is -/

variable {fs fs' : FileTree}

/-- The variable file of a directory, where the second entry is the one of the directories above it. -/
def orAbove : Option Entry → Option Entry → Option Entry
  | none, above => above
  | some .directory, above => above
  | some e, _ => some e

theorem find?_succ (fs : FileTree) (n : Nat) (place : Place) : find? fs (n + 1) place =
    orAbove (fs.get? (place ++ [".env".toList])) (if place.isEmpty then none else find? fs n place.dropLast) := by
  rw [find?]
  cases fs.get? (place ++ [".env".toList]) with
  | none => rfl
  | some e => cases e <;> rfl

theorem find?_extends (h : fs.Extends fs') (n : Nat) (place : Place) : find? fs' n place = find? fs n place := by
  induction n generalizing place with
  | zero => rfl
  | succ n ih =>
    rw [find?_succ, find?_succ, ih]
    rcases h.get? (place ++ [".env".toList]) with hget | ⟨hmissing, hmade⟩
    · rw [hget]
    · rw [hmissing, hmade]
      rfl

theorem find?_put (fs : FileTree) {written : Place} (hne : written ≠ []) (t : Text) (n : Nat) (place : Place) :
    find? (fs.put written (.file t)) n place = find? fs n place ∨
    find? (fs.put written (.file t)) n place = some (.file t) ∧ ∃ dir, written = dir ++ [".env".toList] := by
  induction n generalizing place with
  | zero => exact .inl rfl
  | succ n ih =>
    rw [find?_succ, find?_succ, FileTree.get?_put fs hne]
    by_cases hplace : place ++ [".env".toList] = written
    · rw [if_pos hplace]
      exact .inr ⟨rfl, place, hplace.symm⟩
    · rw [if_neg hplace]
      by_cases hroot : place.isEmpty = true
      · rw [if_pos hroot, if_pos hroot]
        exact .inl rfl
      · rw [if_neg hroot, if_neg hroot]
        rcases ih place.dropLast with hsame | ⟨hfound, hnamed⟩
        · rw [hsame]
          exact .inl rfl
        · rw [hfound]
          cases fs.get? (place ++ [".env".toList]) with
          | none => exact .inr ⟨rfl, hnamed⟩
          | some e =>
            cases e with
            | directory => exact .inr ⟨rfl, hnamed⟩
            | _ => exact .inl rfl

end Reflow.DotEnv
