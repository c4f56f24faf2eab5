import Reflow.Proofs.Settings.Json
import Reflow.Settings.Environment

/-!
# Settings that are read and printed

Settings whose numbers fit in a word are read back as they were printed (`Settings.read?_print`), and the numbers
of settings that were read fit, from a file (`Settings.Fits.of_read?`) or from the environment
(`Settings.Fits.applyEnvironment`).
-/

namespace Reflow.Settings

open Json

variable {s s' : Settings} {v : Json} {t : Text}

/-- The numbers of the settings fit in a word. -/
structure Fits (s : Settings) : Prop where
  width : ∀ n ∈ s.width, n < wordBound
  tabWidth : s.tabWidth < wordBound

/-! ## Printing -/

def printWidth (width : Option Nat) : Text :=
  (width.map printNumber).getD "null".toList

def widthValue (width : Option Nat) : Json :=
  (width.map natural).getD null

def members (s : Settings) : List (Option Text × Json) :=
  [(some "column_width_override".toList, widthValue s.width),
    (some "use_minimum_raggedness".toList, bool s.ragged),
    (some "plaintext_file_types".toList, string (some s.proseTypes)),
    (some "tab_width".toList, natural s.tabWidth)]

theorem print_eq (s : Settings) : s.print =
    '\x7b' :: (printMember "column_width_override".toList (printWidth s.width) ++
    ',' :: (printMember "use_minimum_raggedness".toList (if s.ragged then "true".toList else "false".toList) ++
    ',' :: (printMember "plaintext_file_types".toList (printString s.proseTypes) ++
    ',' :: (printMember "tab_width".toList (printNumber s.tabWidth) ++ ['\n', '\x7d'])))) := by
  unfold print printWidth
  simp only [printMember, List.append_assoc]
  rfl

theorem prints_width (width : Option Nat) : Prints (printWidth width) (widthValue width) := by
  cases width with
  | none => exact prints_null
  | some n => exact prints_natural n

theorem prints_number (n : Nat) : Prints (printNumber n) (natural n) :=
  prints_natural n

/-- Four steps are enough for four members, and two more for the object and its last value. -/
theorem value?_print (s : Settings) (n : Nat) : value? (n + 6) s.print = some (object s.members, []) := by
  rw [print_eq, value?_object, members?_cons (prints_width s.width), members?_cons (prints_bool s.ragged),
    members?_cons (prints_string s.proseTypes), members?_last (prints_number s.tabWidth)]
  rfl

theorem read?_print_object (s : Settings) : Json.read? s.print = some (object s.members) := by
  obtain ⟨n, hn⟩ : ∃ n, 2 * s.print.length + 2 = n + 6 := by
    have hlength : 2 ≤ s.print.length := by
      rw [print_eq, List.length_cons, List.length_append, List.length_cons]
      omega
    exact ⟨2 * s.print.length - 4, by omega⟩
  rw [Json.read?, hn, value?_print]
  rfl

/-! ## Reading -/

theorem ofMembers?_cons {seen : List Nat} {name : Text} {k : Nat} {set : Settings → Json → Option Settings}
    (hname : position? name = some k) (hseen : seen.contains k = false) (hset : setters[k]? = some set)
    (hv : set s v = some s') (members : List (Option Text × Json)) :
    ofMembers? s seen ((some name, v) :: members) = ofMembers? s' (k :: seen) members := by
  simp only [ofMembers?, bind, Option.bind, hname, hseen, hset, hv]
  rfl

theorem number?_natural {n : Nat} (h : n < wordBound) : number? (natural n) = some n :=
  if_pos h

theorem setWidth?_widthValue (s : Settings) {width : Option Nat} (h : ∀ n ∈ width, n < wordBound) :
    s.setWidth? (widthValue width) = some { s with width } := by
  cases width with
  | none => rfl
  | some n =>
    show (number? (natural n)).map _ = _
    rw [number?_natural (h n rfl)]
    rfl

theorem setTabWidth?_natural (s : Settings) {n : Nat} (h : n < wordBound) :
    s.setTabWidth? (natural n) = some { s with tabWidth := n } := by
  rw [setTabWidth?, number?_natural h]
  rfl

theorem ofMembers?_members (h : s.Fits) : ofMembers? {} [] s.members = some s := by
  rw [Settings.members, ofMembers?_cons (k := 0) rfl rfl rfl (setWidth?_widthValue _ h.width),
    ofMembers?_cons (k := 1) rfl rfl rfl rfl, ofMembers?_cons (k := 2) rfl rfl rfl rfl,
    ofMembers?_cons (k := 3) rfl rfl rfl (setTabWidth?_natural _ h.tabWidth)]
  rfl

theorem read?_print (h : s.Fits) : read? s.print = some s := by
  rw [read?, read?_print_object]
  exact ofMembers?_members h

/-! ## What was read -/

theorem lt_of_number? {n : Nat} (h : number? v = some n) : n < wordBound := by
  unfold number? at h
  split at h
  · split at h
    next hlt => exact Option.some.inj h ▸ hlt
    next => cases h
  · cases h

theorem lt_of_positive? {n : Nat} (h : positive? t = some n) : n < wordBound := by
  obtain ⟨hread, -⟩ := Option.filter_eq_some_iff.mp h
  exact (Numeral.read?_eq_some_iff.mp hread).2

namespace Fits

theorem default : Fits {} :=
  ⟨nofun, by decide⟩

theorem of_setter {set : Settings → Json → Option Settings} (hset : set ∈ setters) (h : s.Fits)
    (hv : set s v = some s') : s'.Fits := by
  simp only [setters, List.mem_cons, List.not_mem_nil, or_false] at hset
  rcases hset with rfl | rfl | rfl | rfl
  · unfold setWidth? at hv
    split at hv
    · cases hv
      exact ⟨nofun, h.tabWidth⟩
    · obtain ⟨n, hn, rfl⟩ := Option.map_eq_some_iff.mp hv
      refine ⟨?_, h.tabWidth⟩
      rintro m ⟨⟩
      exact lt_of_number? hn
  · unfold setRagged? at hv
    split at hv
    · cases hv
      exact ⟨h.width, h.tabWidth⟩
    · cases hv
  · unfold setProseTypes? at hv
    split at hv
    · cases hv
      exact ⟨h.width, h.tabWidth⟩
    · cases hv
  · obtain ⟨n, hn, rfl⟩ := Option.map_eq_some_iff.mp hv
    exact ⟨h.width, lt_of_number? hn⟩

theorem of_ofMembers? {seen : List Nat} {members : List (Option Text × Json)} (h : s.Fits)
    (hread : ofMembers? s seen members = some s') : s'.Fits := by
  induction members generalizing s seen with
  | nil =>
    cases hread
    exact h
  | cons member members ih =>
    obtain ⟨name, v⟩ := member
    obtain ⟨known, -, hread⟩ := Option.bind_eq_some_iff.mp hread
    split at hread
    next => exact ih h hread
    next k _ =>
      split at hread
      next => cases hread
      next =>
        split at hread
        next => cases hread
        next set hset =>
          obtain ⟨next, hv, hread⟩ := Option.bind_eq_some_iff.mp hread
          exact ih (h.of_setter (List.mem_of_getElem? hset) hv) hread

theorem of_ofItems? {sets : List (Settings → Json → Option Settings)} {items : List Json}
    (hsets : ∀ set ∈ sets, set ∈ setters) (h : s.Fits) (hread : ofItems? s sets items = some s') : s'.Fits := by
  induction items generalizing s sets with
  | nil =>
    rw [ofItems?] at hread
    exact Option.some.inj hread ▸ h
  | cons item items ih =>
    cases sets with
    | nil => cases hread
    | cons set sets =>
      rw [List.forall_mem_cons] at hsets
      obtain ⟨s₁, hv, hrest⟩ := Option.bind_eq_some_iff.mp hread
      exact ih hsets.2 (h.of_setter hsets.1 hv) hrest

theorem of_read? (h : read? t = some s) : s.Fits := by
  obtain ⟨v, -, hv⟩ := Option.bind_eq_some_iff.mp h
  cases v with
  | object members => exact default.of_ofMembers? hv
  | array items => exact default.of_ofItems? (fun _ => id) hv
  | _ => cases hv

theorem applyEnvironment (h : s.Fits) (env : Environment) : (s.applyEnvironment env).Fits := by
  refine ⟨?_, ?_⟩
  · intro n hn
    rcases Option.or_eq_some_iff.mp hn with hn | ⟨-, hn⟩
    · obtain ⟨t, -, ht⟩ := Option.bind_eq_some_iff.mp hn
      exact lt_of_positive? ht
    · exact h.width n hn
  · show ((env.get? "COLWRAP_TAB_WIDTH").bind positive?).getD s.tabWidth < wordBound
    cases hn : (env.get? "COLWRAP_TAB_WIDTH").bind positive? with
    | none => exact h.tabWidth
    | some n =>
      obtain ⟨t, -, ht⟩ := Option.bind_eq_some_iff.mp hn
      exact lt_of_positive? ht

end Fits

end Reflow.Settings
