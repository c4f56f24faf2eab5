import Reflow.Batch.Wrap

/-!
# When a text can be wrapped

Settings always stand for a wrapper, so wrapping a text fails in one case only: some of the lines that are
to be wrapped are past its end (`Batch.isOk_wrapText`).
-/

namespace Reflow

variable {s : Settings} {o : BatchOptions} {p : Option Path} {t : Text} {e : Error}

theorem Wrapper.exists_ofOptions? {o : Options} (h : o.leader = codeLeader ∨ o.leader = proseLeader) :
    ∃ w, ofOptions? o = some w := by
  unfold ofOptions? Markers.read?
  rcases h with h | h
  · exact ⟨_, by rw [h, if_pos rfl]; rfl⟩
  · exact ⟨_, by rw [h, if_neg (by decide), if_pos rfl]; rfl⟩

theorem Settings.leader_optionsFor (s : Settings) (p : Option Path) (width : Nat) :
    (s.optionsFor p width).leader = codeLeader ∨ (s.optionsFor p width).leader = proseLeader := by
  unfold optionsFor
  cases p.any s.isProse with
  | false => exact .inl rfl
  | true => exact .inr rfl

/-- Whether the lines that are to be wrapped are all in a text. -/
def Scope.fits (scope : Scope) (t : Text) : Bool :=
  let count := (Text.lines (LineEnding.normalize t)).length
  match scope with
  | .all => true
  | .lines _ last => last < count
  | .paragraphAt line => line < count

namespace Batch

theorem exists_wrapper (s : Settings) (o : BatchOptions) (p : Option Path) :
    ∃ w, Wrapper.ofOptions? (optionsFor s o p) = some w := by
  apply Wrapper.exists_ofOptions?
  unfold optionsFor
  cases o.prose with
  | false => exact s.leader_optionsFor p o.fallbackWidth
  | true => exact .inr rfl

theorem isOk_wrapScope (w : Wrapper) (scope : Scope) (p : Option Path) (t : Text) :
    (wrapScope w scope p (LineEnding.normalize t)).isOk = scope.fits t := by
  cases scope with
  | all => rfl
  | lines first last =>
    by_cases h : last < (Text.lines (LineEnding.normalize t)).length
    · simp [wrapScope, Scope.fits, Buffer.ofText, h, bind, Except.bind, pure, Except.pure, Except.isOk, Except.toBool]
    · simp [wrapScope, Scope.fits, Buffer.ofText, h, bind, Except.bind, Except.isOk, Except.toBool]
  | paragraphAt line =>
    by_cases h : line < (Text.lines (LineEnding.normalize t)).length
    · simp [wrapScope, Scope.fits, Buffer.ofText, h, bind, Except.bind, pure, Except.pure, Except.isOk, Except.toBool]
    · simp [wrapScope, Scope.fits, Buffer.ofText, h, bind, Except.bind, Except.isOk, Except.toBool]

theorem path?_of_wrapScope {w : Wrapper} {scope : Scope} (h : wrapScope w scope p t = .error e) : e.path? = p := by
  cases scope with
  | all => cases h
  | lines first last =>
    by_cases hlt : last < (Buffer.ofText t).lines.length
    · simp [wrapScope, hlt, bind, Except.bind, pure, Except.pure] at h
    · simp [wrapScope, hlt, bind, Except.bind] at h
      rw [← h]
      rfl
  | paragraphAt line =>
    by_cases hlt : line < (Buffer.ofText t).lines.length
    · simp [wrapScope, hlt, bind, Except.bind, pure, Except.pure] at h
    · simp [wrapScope, hlt, bind, Except.bind] at h
      rw [← h]
      rfl

theorem exists_wrapText_eq (s : Settings) (o : BatchOptions) (p : Option Path) (t : Text) :
    ∃ w, Wrapper.ofOptions? (optionsFor s o p) = some w ∧
      wrapText s o p t = (wrapScope w o.scope p (LineEnding.normalize t)).map (LineEnding.detect t).apply := by
  obtain ⟨w, hw⟩ := exists_wrapper s o p
  refine ⟨w, hw, ?_⟩
  unfold wrapText
  rw [hw]
  simp only
  cases wrapScope w o.scope p (LineEnding.normalize t) <;> rfl

theorem isOk_wrapText (s : Settings) (o : BatchOptions) (p : Option Path) (t : Text) :
    (wrapText s o p t).isOk = o.scope.fits t := by
  obtain ⟨w, -, h⟩ := exists_wrapText_eq s o p t
  rw [h, ← isOk_wrapScope w o.scope p t]
  cases wrapScope w o.scope p (LineEnding.normalize t) <;> rfl

theorem path?_of_wrapText (h : wrapText s o p t = .error e) : e.path? = p := by
  obtain ⟨w, -, heq⟩ := exists_wrapText_eq s o p t
  rw [heq] at h
  cases hscope : wrapScope w o.scope p (LineEnding.normalize t) with
  | ok out =>
    rw [hscope] at h
    cases h
  | error e' =>
    rw [hscope] at h
    cases h
    exact path?_of_wrapScope hscope

end Batch

end Reflow
