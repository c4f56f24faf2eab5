import Reflow.Proofs.Text.Lines
import Reflow.Text.LineEnding

/-!
# Line endings, line by line

Normalizing a text takes the carriage return off each of its lines but the last (`LineEnding.lines_normalize`),
and writing it with `CR LF` puts one there (`LineEnding.lines_apply_crlf`).  So what was written is always read
back, if it was not written with line feeds after carriage returns (`LineEnding.normalize_apply_iff`), and a
text is written the way it was just if its lines end alike (`LineEnding.apply_detect_normalize_iff`).  The same
said of the line feeds of a text and what stands before each is `LineEnding.codec`.
-/

namespace Reflow

open Text

namespace LineEnding

variable {t u x y line : Text}

/-! ## Characters -/

theorem normalize_cons_of_ne {c : Char} (h : c ≠ '\r') : normalize (c :: t) = c :: normalize t := by
  rw [normalize]
  intro _ hc
  exact absurd hc h

theorem normalize_eq_self (h : '\r' ∉ t) : normalize t = t := by
  induction t with
  | nil => rfl
  | cons c t ih =>
    rw [List.mem_cons, not_or] at h
    rw [normalize_cons_of_ne (Ne.symm h.1), ih h.2]

theorem normalize_eq_nil_iff : normalize t = [] ↔ t = [] := by
  fun_cases normalize t <;> simp

theorem mem_of_mem_normalize {c : Char} (h : c ∈ normalize t) : c ∈ t := by
  induction t using normalize.induct with
  | case1 => exact h
  | case2 t ih =>
    rw [normalize] at h
    rcases List.mem_cons.mp h with rfl | h
    · simp
    · exact List.mem_cons_of_mem _ (List.mem_cons_of_mem _ (ih h))
  | case3 d t hd ih =>
    rw [normalize] at h
    · rcases List.mem_cons.mp h with rfl | h
      · exact List.mem_cons_self
      · exact List.mem_cons_of_mem _ (ih h)
    · exact hd

theorem detect_cons_of_ne {c : Char} (hlf : c ≠ '\n') (hcr : c ≠ '\r') : detect (c :: t) = detect t := by
  rw [detect]
  · exact hlf
  · intro _ hc
    exact absurd hc hcr

theorem detect_eq_lf (h : '\r' ∉ t) : detect t = lf := by
  induction t with
  | nil => rfl
  | cons c t ih =>
    rw [List.mem_cons, not_or] at h
    by_cases hc : c = '\n'
    · rw [hc, detect]
    · rw [detect_cons_of_ne hc (Ne.symm h.1), ih h.2]

@[simp] theorem apply_lf : apply lf t = t := rfl

theorem apply_crlf_cons (c : Char) :
    apply crlf (c :: t) = (if c = '\n' then ['\r', '\n'] else [c]) ++ apply crlf t := rfl

theorem mem_of_mem_apply {ending : LineEnding} {c : Char} (h : c ∈ apply ending t) : c = '\r' ∨ c ∈ t := by
  cases ending with
  | lf => exact .inr h
  | crlf =>
    obtain ⟨d, hd, hc⟩ := List.mem_flatMap.mp h
    split at hc
    · next heq =>
      rcases List.mem_pair.mp hc with rfl | rfl
      · exact .inl rfl
      · exact .inr (heq ▸ hd)
    · rw [List.mem_singleton.mp hc]
      exact .inr hd

theorem head?_apply_crlf_ne (t : Text) : (apply crlf t).head? ≠ some '\n' := by
  cases t with
  | nil => simp [apply]
  | cons c t =>
    rw [apply_crlf_cons]
    by_cases hc : c = '\n'
    · simp [hc]
    · simp [hc]

theorem normalize_cons_of_head? {c : Char} (h : u.head? ≠ some '\n') :
    normalize (c :: u) = c :: normalize u := by
  rw [normalize]
  intro v _ hv
  apply h
  rw [hv]
  rfl

theorem normalize_apply_crlf (t : Text) : normalize (apply crlf t) = t := by
  induction t with
  | nil => rfl
  | cons c t ih =>
    rw [apply_crlf_cons]
    by_cases hc : c = '\n'
    · show normalize ((if c = '\n' then ['\r', '\n'] else [c]) ++ apply crlf t) = c :: t
      rw [if_pos hc, List.cons_append, List.cons_append, List.nil_append, normalize, ih, hc]
    · rw [if_neg hc, List.singleton_append, normalize_cons_of_head? (head?_apply_crlf_ne t), ih]

theorem normalize_apply (ending : LineEnding) (h : '\r' ∉ t) : normalize (apply ending t) = t := by
  cases ending with
  | lf => exact normalize_eq_self h
  | crlf => exact normalize_apply_crlf t

theorem apply_crlf_injective (h : apply crlf t = apply crlf u) : t = u := by
  rw [← normalize_apply_crlf t, h, normalize_apply_crlf]

theorem detect_apply (ending : LineEnding) (h : '\r' ∉ t) :
    detect (apply ending t) = ending ∨ '\n' ∉ t := by
  cases ending with
  | lf => exact .inl (detect_eq_lf h)
  | crlf =>
    induction t with
    | nil => exact .inr List.not_mem_nil
    | cons c t ih =>
      rw [List.mem_cons, not_or] at h
      rw [apply_crlf_cons]
      split
      · exact .inl rfl
      · rename_i hc
        rw [List.singleton_append, detect_cons_of_ne hc (Ne.symm h.1), List.mem_cons, not_or]
        exact (ih h.2).imp_right fun hmem => ⟨Ne.symm hc, hmem⟩

theorem apply_of_not_mem (ending : LineEnding) (h : '\n' ∉ t) : apply ending t = t := by
  cases ending with
  | lf => rfl
  | crlf =>
    induction t with
    | nil => rfl
    | cons c t ih =>
      rw [List.mem_cons, not_or] at h
      rw [apply_crlf_cons, if_neg (Ne.symm h.1), ih h.2]
      rfl

/-! ## Lines -/

/-- A line without the carriage return at its end, if it has one. -/
def chop (line : Text) : Text :=
  if line.getLast? = some '\r' then line.dropLast else line

theorem chop_cons_of_ne_nil {c : Char} (h : line ≠ []) : chop (c :: line) = c :: chop line := by
  unfold chop
  rw [List.getLast?_cons_of_ne_nil h, List.dropLast_cons_of_ne_nil h]
  split <;> rfl

theorem chop_eq_self_iff : chop line = line ↔ line.getLast? ≠ some '\r' := by
  unfold chop
  split
  next h =>
    refine iff_of_false (fun heq => ?_) (not_not_intro h)
    obtain ⟨front, rfl⟩ := List.getLast?_eq_some_iff.mp h
    simpa using congrArg List.length heq
  next h => exact iff_of_true rfl h

theorem chop_append_iff : chop line ++ ['\r'] = line ↔ line.getLast? = some '\r' := by
  unfold chop
  split
  next h =>
    obtain ⟨front, rfl⟩ := List.getLast?_eq_some_iff.mp h
    simp
  next h =>
    refine iff_of_false (fun heq => ?_) h
    simpa using congrArg List.length heq

theorem mem_of_mem_chop {c : Char} (h : c ∈ chop line) : c ∈ line := by
  unfold chop at h
  split at h
  · exact List.mem_of_mem_dropLast h
  · exact h

theorem normalize_of_not_mem (h : '\n' ∉ t) : normalize t = t := by
  induction t with
  | nil => rfl
  | cons c t ih =>
    rw [List.mem_cons, not_or] at h
    have hhead : t.head? ≠ some '\n' := fun hc => h.2 (List.mem_of_mem_head? hc)
    rw [normalize_cons_of_head? hhead, ih h.2]

theorem normalize_append (hx : '\n' ∉ x) : normalize (x ++ '\n' :: y) = chop x ++ '\n' :: normalize y := by
  induction x with
  | nil => rfl
  | cons c x ih =>
    rw [List.mem_cons, not_or] at hx
    by_cases hnil : x = []
    · subst hnil
      by_cases hc : c = '\r'
      · subst hc
        rfl
      · have hchop : chop [c] = [c] := chop_eq_self_iff.mpr (by simpa using hc)
        rw [hchop, List.singleton_append, normalize_cons_of_ne hc]
        rfl
    · have hhead : (x ++ '\n' :: y).head? ≠ some '\n' := by
        rw [List.head?_append_of_ne_nil _ hnil]
        exact fun hc => hx.2 (List.mem_of_mem_head? hc)
      rw [List.cons_append, normalize_cons_of_head? hhead, ih hx.2, chop_cons_of_ne_nil hnil, List.cons_append]

theorem detect_cons_of_head? {c : Char} (hc : c ≠ '\n') (h : u.head? ≠ some '\n') : detect (c :: u) = detect u := by
  rw [detect]
  · exact hc
  · intro v _ hv
    apply h
    rw [hv]
    rfl

theorem detect_append (hx : '\n' ∉ x) :
    detect (x ++ '\n' :: y) = if x.getLast? = some '\r' then crlf else lf := by
  induction x with
  | nil => rfl
  | cons c x ih =>
    rw [List.mem_cons, not_or] at hx
    by_cases hnil : x = []
    · subst hnil
      by_cases hc : c = '\r'
      · subst hc
        rfl
      · rw [if_neg (by simpa using hc), List.singleton_append, detect_cons_of_ne (Ne.symm hx.1) hc]
        rfl
    · have hhead : (x ++ '\n' :: y).head? ≠ some '\n' := by
        rw [List.head?_append_of_ne_nil _ hnil]
        exact fun hc => hx.2 (List.mem_of_mem_head? hc)
      rw [List.getLast?_cons_of_ne_nil hnil, ← ih hx.2, List.cons_append, detect_cons_of_head? (Ne.symm hx.1) hhead]

theorem apply_crlf_append (hx : '\n' ∉ x) : apply crlf (x ++ '\n' :: y) = (x ++ ['\r']) ++ '\n' :: apply crlf y := by
  have happend : apply crlf (x ++ '\n' :: y) = apply crlf x ++ apply crlf ('\n' :: y) := List.flatMap_append
  rw [happend, apply_of_not_mem crlf hx, apply_crlf_cons, List.append_assoc]
  rfl

theorem lines_normalize (t : Text) : lines (normalize t) = (upper t).map chop ++ [lastLine t] := by
  induction t using lines_induction with
  | last t ht =>
    obtain ⟨hupper, hlast⟩ := upper_of_not_mem ht
    rw [normalize_of_not_mem ht, hupper, hlast, lines_eq_singleton ht]
    rfl
  | cons x y hx ih =>
    obtain ⟨hupper, hlast⟩ := upper_append_of_not_mem hx y
    have hchop : '\n' ∉ chop x := fun h => hx (mem_of_mem_chop h)
    rw [normalize_append hx, lines_append, lines_eq_singleton hchop, ih, hupper, hlast]
    rfl

theorem lines_apply_crlf (t : Text) : lines (apply crlf t) = (upper t).map (· ++ ['\r']) ++ [lastLine t] := by
  induction t using lines_induction with
  | last t ht =>
    obtain ⟨hupper, hlast⟩ := upper_of_not_mem ht
    rw [apply_of_not_mem crlf ht, hupper, hlast, lines_eq_singleton ht]
    rfl
  | cons x y hx ih =>
    obtain ⟨hupper, hlast⟩ := upper_append_of_not_mem hx y
    have hreturn : '\n' ∉ x ++ ['\r'] := by simp [hx]
    rw [apply_crlf_append hx, lines_append, lines_eq_singleton hreturn, ih, hupper, hlast]
    rfl

/-- No line but the last ends in a carriage return, so none would be lost before a line feed. -/
def NoReturns (t : Text) : Prop :=
  ∀ line ∈ upper t, line.getLast? ≠ some '\r'

/-- All line feeds come after carriage returns, or none does: the lines but the last end alike. -/
def Homogeneous (t : Text) : Prop :=
  (∀ line ∈ upper t, line.getLast? = some '\r') ∨ NoReturns t

theorem map_upper_eq_iff {f : Text → Text} :
    (upper t).map f ++ [lastLine t] = lines t ↔ ∀ line ∈ upper t, f line = line := by
  rw [lines_eq_upper t, List.append_left_inj]
  conv_lhs => rw [← List.map_id (upper t)]
  rw [List.map_map]
  exact List.map_inj_left

theorem normalize_eq_self_iff : normalize t = t ↔ NoReturns t := by
  rw [← lines_inj, lines_normalize, map_upper_eq_iff]
  simp only [chop_eq_self_iff]
  rfl

theorem apply_crlf_normalize_iff :
    apply crlf (normalize t) = t ↔ ∀ line ∈ upper t, line.getLast? = some '\r' := by
  obtain ⟨hupper, hlast⟩ := upper_eq (lines_normalize t)
  rw [← lines_inj, lines_apply_crlf, hupper, hlast, List.map_map, map_upper_eq_iff]
  simp only [Function.comp_apply, chop_append_iff]

theorem normalize_apply_iff (ending : LineEnding) :
    normalize (apply ending t) = t ↔ ending = crlf ∨ NoReturns t := by
  cases ending with
  | lf =>
    rw [apply_lf, normalize_eq_self_iff]
    simp
  | crlf => exact iff_of_true (normalize_apply_crlf t) (.inl rfl)

theorem apply_detect_normalize_iff : apply (detect t) (normalize t) = t ↔ Homogeneous t := by
  by_cases hfeed : '\n' ∈ t
  · obtain ⟨x, y, rfl, hx⟩ := List.eq_append_cons_of_mem hfeed
    obtain ⟨hupper, -⟩ := upper_append_of_not_mem hx y
    rw [detect_append hx, Homogeneous]
    split
    next hreturn =>
      have hsome : ¬NoReturns (x ++ '\n' :: y) := fun h => h x (by simp [hupper]) hreturn
      rw [apply_crlf_normalize_iff, or_iff_left hsome]
    next hreturn =>
      have hnot : ¬∀ line ∈ upper (x ++ '\n' :: y), line.getLast? = some '\r' := fun h => hreturn (h x (by simp [hupper]))
      rw [apply_lf, normalize_eq_self_iff, or_iff_right hnot]
  · obtain ⟨hupper, -⟩ := upper_of_not_mem hfeed
    have happly : apply (detect t) (normalize t) = t := by
      rw [normalize_of_not_mem hfeed, apply_of_not_mem _ hfeed]
    refine iff_of_true happly (.inr fun line hline => ?_)
    rw [hupper] at hline
    cases hline

/-! ## Line feeds one by one -/

theorem mem_upper_iff : line ∈ upper t ↔ ∃ x y, t = x ++ '\n' :: y ∧ lastLine x = line := by
  constructor
  · intro h
    induction t using lines_induction with
    | last t ht =>
      rw [(upper_of_not_mem ht).1] at h
      cases h
    | cons a b ha ih =>
      rw [(upper_append_of_not_mem ha b).1, List.mem_cons] at h
      rcases h with rfl | h
      · exact ⟨line, b, rfl, (upper_of_not_mem ha).2⟩
      · obtain ⟨x, y, rfl, rfl⟩ := ih h
        exact ⟨a ++ '\n' :: x, y, by simp, (upper_append_lf a x).2⟩
  · rintro ⟨x, y, rfl, rfl⟩
    rw [(upper_append_lf x y).1, lines_eq_upper x]
    simp

theorem getLast?_lastLine {c : Char} (hc : c ≠ '\n') : (lastLine x).getLast? = some c ↔ x.getLast? = some c := by
  by_cases hfeed : '\n' ∈ x
  · obtain ⟨a, b, rfl, hb⟩ := exists_last_line hfeed
    rw [(upper_append_lf a b).2, (upper_of_not_mem hb).2]
    by_cases hnil : b = []
    · simp [hnil, hc.symm]
    · rw [List.getLast?_append_of_ne_nil _ (List.cons_ne_nil _ _), List.getLast?_cons_of_ne_nil hnil]
  · rw [(upper_of_not_mem hfeed).2]

theorem noReturns_iff : NoReturns t ↔ ∀ x y, t = x ++ '\n' :: y → x.getLast? ≠ some '\r' := by
  constructor
  · intro h x y ht hlast
    exact h (lastLine x) (mem_upper_iff.mpr ⟨x, y, ht, rfl⟩) ((getLast?_lastLine (by decide)).mpr hlast)
  · intro h line hline hlast
    obtain ⟨x, y, ht, rfl⟩ := mem_upper_iff.mp hline
    exact h x y ht ((getLast?_lastLine (by decide)).mp hlast)

theorem noReturns_iff_not_isInfix : NoReturns t ↔ ¬['\r', '\n'] <:+: t := by
  rw [noReturns_iff]
  constructor
  · rintro h ⟨x, y, rfl⟩
    exact h (x ++ ['\r']) y (by simp) List.getLast?_concat
  · intro h x y ht hlast
    obtain ⟨a, rfl⟩ := List.getLast?_eq_some_iff.mp hlast
    exact h ⟨a, y, by simp [ht]⟩

theorem homogeneous_iff : Homogeneous t ↔
    (∀ x y, t = x ++ '\n' :: y → x.getLast? = some '\r') ∨ ∀ x y, t = x ++ '\n' :: y → x.getLast? ≠ some '\r' := by
  rw [Homogeneous, noReturns_iff]
  apply or_congr_left
  constructor
  · intro h x y ht
    exact (getLast?_lastLine (by decide)).mp (h (lastLine x) (mem_upper_iff.mpr ⟨x, y, ht, rfl⟩))
  · intro h line hline
    obtain ⟨x, y, ht, rfl⟩ := mem_upper_iff.mp hline
    exact (getLast?_lastLine (by decide)).mpr (h x y ht)

/-- Writing with `CR LF` loses nothing of any text, and a text is written the way it was just if every line feed
of it comes right after a carriage return, or none does. -/
theorem codec :
    (∀ t, normalize (apply crlf t) = t) ∧
    ∀ t, apply (detect t) (normalize t) = t ↔
      (∀ x y, t = x ++ '\n' :: y → x.getLast? = some '\r') ∨ ∀ x y, t = x ++ '\n' :: y → x.getLast? ≠ some '\r' := by
  refine ⟨normalize_apply_crlf, fun t => ?_⟩
  rw [apply_detect_normalize_iff, homogeneous_iff]

example : apply (detect "a\r\r\nb\rc".toList) (normalize "a\r\r\nb\rc".toList) = "a\r\r\nb\rc".toList := by decide

end LineEnding

end Reflow
