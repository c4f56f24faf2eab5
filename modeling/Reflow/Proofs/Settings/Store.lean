import Reflow.Proofs.Settings.DotEnv
import Reflow.Proofs.Settings.Format
import Reflow.Settings.Store

/-!
# Settings that are kept

Settings that were saved are loaded again as they were, from any file (`Settings.loadFrom_of_readText`), and from the
settings file with the same environment (`Settings.save_and_load`): what the environment overrides is in the
settings already, and saving them changes no variable.
-/

namespace Reflow.Settings

variable {s : Settings} {fs fs' : FileTree} {env : Environment} {p : Path}

/-! ## The file -/

theorem exists_of_saveTo (h : s.saveTo fs p = .ok fs') :
    ∃ made, fs.Extends made ∧ made.writeText p s.print = .ok fs' := by
  unfold saveTo at h
  cases hparent : p.parent? with
  | none =>
    rw [hparent] at h
    exact ⟨fs, .refl fs, h⟩
  | some parent =>
    rw [hparent] at h
    obtain ⟨made, hmade, h⟩ := exists_of_bind h
    exact ⟨made, .ensureDirectory hmade, h⟩

theorem readText_of_saveTo (h : s.saveTo fs p = .ok fs') : fs'.readText p = .ok s.print := by
  obtain ⟨made, -, hwrite⟩ := exists_of_saveTo h
  exact FileTree.readText_writeText hwrite

theorem loadFrom_of_readText (hs : s.Fits) (h : fs.readText p = .ok s.print) : loadFrom fs p = .ok s := by
  simp only [loadFrom, h, bind, Except.bind, read?_print hs]

theorem fits_of_loadFrom (h : loadFrom fs p = .ok s) : s.Fits := by
  obtain ⟨t, -, h⟩ := exists_of_bind h
  split at h
  next hs =>
    obtain rfl := Except.ok.inj h
    exact .of_read? hs
  next => cases h

/-! ## The environment -/

theorem applyEnvironment_applyEnvironment (s : Settings) (env : Environment) :
    (s.applyEnvironment env).applyEnvironment env = s.applyEnvironment env := by
  unfold applyEnvironment
  congr 1
  · cases (env.get? "COLWRAP_WIDTH").bind positive? <;> rfl
  · cases (env.get? "COLWRAP_MINIMUM_RAGGEDNESS").bind flag? <;> rfl
  · cases env.get? "COLWRAP_PLAINTEXT_TYPES" <;> rfl
  · cases (env.get? "COLWRAP_TAB_WIDTH").bind positive? <;> rfl

theorem applyLines_print (s : Settings) (env : Environment) : DotEnv.applyLines env [] (Text.lines s.print) = env := by
  obtain ⟨t, ht⟩ : ∃ t, s.print = ['\x7b'] ++ '\n' :: t := by
    rw [print_eq]
    exact ⟨_, rfl⟩
  have hnames : DotEnv.names (Text.lines s.print) = [] := by
    rw [ht, Text.lines_append]
    rfl
  apply DotEnv.applyLines_eq_self
  rw [hnames]
  nofun

/-- Saving settings leaves the variable file as it is, or it is the file that they are saved to. -/
theorem find?_of_saveTo (h : s.saveTo fs p = .ok fs') (n : Nat) (place : Place) :
    DotEnv.find? fs' n place = DotEnv.find? fs n place ∨
    DotEnv.find? fs' n place = some (.file s.print) ∧ ∃ dir, fs'.resolve p = .ok (dir ++ [".env".toList]) := by
  obtain ⟨made, hmade, hwrite⟩ := exists_of_saveTo h
  obtain ⟨written, hne, rfl, hresolve⟩ := FileTree.resolve_writeText hwrite
  rw [← DotEnv.find?_extends hmade]
  rcases DotEnv.find?_put made hne s.print n place with hsame | ⟨hfound, dir, rfl⟩
  · exact .inl hsame
  · exact .inr ⟨hfound, dir, hresolve⟩

theorem here_of_saveTo (h : s.saveTo fs p = .ok fs') : fs'.here = fs.here := by
  obtain ⟨made, hmade, hwrite⟩ := exists_of_saveTo h
  obtain ⟨written, -, rfl, -⟩ := FileTree.resolve_writeText hwrite
  exact (FileTree.here_put ..).trans hmade.here

theorem apply_apply_of_saveTo (h : s.saveTo fs p = .ok fs') (env : Environment) :
    DotEnv.apply fs' (DotEnv.apply fs env) = DotEnv.apply fs env := by
  rw [DotEnv.apply_eq fs', DotEnv.apply_eq fs, here_of_saveTo h]
  rcases find?_of_saveTo h (fs.here.length + 1) fs.here with hsame | ⟨hfound, -⟩
  · rw [hsame, DotEnv.applyEntry_applyEntry]
  · rw [hfound]
    exact applyLines_print s _

theorem apply_of_saveTo (h : s.saveTo fs p = .ok fs') (hnamed : ∀ dir, fs'.resolve p ≠ .ok (dir ++ [".env".toList]))
    (env : Environment) : DotEnv.apply fs' env = DotEnv.apply fs env := by
  rw [DotEnv.apply_eq fs', DotEnv.apply_eq fs, here_of_saveTo h]
  rcases find?_of_saveTo h (fs.here.length + 1) fs.here with hsame | ⟨-, dir, hdir⟩
  · rw [hsame]
  · exact absurd hdir (hnamed dir)

/-! ## Loading again -/

theorem of_load (h : load fs env = .ok s) : s.Fits ∧ s.applyEnvironment (DotEnv.apply fs env) = s := by
  obtain ⟨file, hfile, rfl⟩ : ∃ file : Settings, file.Fits ∧ s = file.applyEnvironment (DotEnv.apply fs env) := by
    unfold load at h
    simp only at h
    split at h
    next p _ =>
      split at h
      next =>
        obtain ⟨file, hread, h⟩ := exists_of_bind h
        exact ⟨file, fits_of_loadFrom hread, (Except.ok.inj h).symm⟩
      next => exact ⟨_, .default, (Except.ok.inj h).symm⟩
    next => exact ⟨_, .default, (Except.ok.inj h).symm⟩
  exact ⟨hfile.applyEnvironment _, applyEnvironment_applyEnvironment ..⟩

theorem load_of_readText (hs : s.Fits) (hpath : (DotEnv.apply fs env).settingsPath? = some p)
    (h : fs.readText p = .ok s.print) : load fs env = .ok (s.applyEnvironment (DotEnv.apply fs env)) := by
  unfold load
  simp only [hpath, FileTree.isFile_of_readText h, if_true, loadFrom_of_readText hs h, bind, Except.bind]
  rfl

theorem exists_of_save (h : s.save fs env = .ok (fs', p)) : env.settingsPath? = some p ∧ s.saveTo fs p = .ok fs' := by
  unfold save at h
  cases hpath : env.settingsPath? with
  | none =>
    rw [hpath] at h
    cases h
  | some q =>
    rw [hpath] at h
    obtain ⟨saved, hsaved, h⟩ := exists_of_bind h
    cases h
    exact ⟨rfl, hsaved⟩

/-- Settings whose numbers fit in words are loaded from a file as they were saved to it.  And settings that were
loaded with an environment are loaded again after they were saved: with the environment as loading left it, where
the variables of the variable file have values, and also with the environment as it was before, unless the settings
were saved to a variable file. -/
theorem save_and_load :
    (∀ (s : Settings) (fs fs' : FileTree) (p : Path), s.Fits → s.saveTo fs p = .ok fs' → loadFrom fs' p = .ok s) ∧
    ∀ (s : Settings) (fs fs' : FileTree) (env : Environment) (p : Path), load fs env = .ok s →
      s.save fs (DotEnv.apply fs env) = .ok (fs', p) →
        load fs' (DotEnv.apply fs env) = .ok s ∧
        ((∀ dir, fs'.resolve p ≠ .ok (dir ++ [".env".toList])) → load fs' env = .ok s) := by
  refine ⟨fun s fs fs' p hs h => loadFrom_of_readText hs (readText_of_saveTo h), ?_⟩
  intro s fs fs' env p hload hsave
  obtain ⟨hs, happly⟩ := of_load hload
  obtain ⟨hpath, hsaved⟩ := exists_of_save hsave
  have hread := readText_of_saveTo hsaved
  refine ⟨?_, fun hnamed => ?_⟩
  · have hsame := apply_apply_of_saveTo hsaved env
    rw [load_of_readText hs (hsame.symm ▸ hpath) hread, hsame, happly]
  · have hsame := apply_of_saveTo hsaved hnamed env
    rw [load_of_readText hs (hsame.symm ▸ hpath) hread, hsame, happly]

theorem save_and_load_overridden :
    let s : Settings := { width := some 18446744073709551615, proseTypes := "\"\\\x01\t\u2014".toList }
    let kept : Settings := { ragged := true }
    let fs : FileTree := ⟨[([".env".toList], .file "COLWRAP_WIDTH=9".toList), (["f".toList], .file kept.print)], []⟩
    let env : Environment := [("COLWRAP_SETTINGS".toList, "f".toList)]
    let loaded : Settings := { width := some 9, ragged := true }
    (∃ fs', s.saveTo fs "d/f".toList = .ok fs' ∧ loadFrom fs' "d/f".toList = .ok s) ∧
    load fs env = .ok loaded ∧ ∃ fs', loaded.save fs (DotEnv.apply fs env) = .ok (fs', "f".toList) ∧
      load fs' (DotEnv.apply fs env) = .ok loaded ∧ load fs' env = .ok loaded := by
  intro s kept fs env loaded
  refine ⟨?_, ?_⟩
  · have hsave : s.saveTo fs "d/f".toList =
        .ok ((fs.put ["d".toList] .directory).put ["d".toList, "f".toList] (.file s.print)) := rfl
    exact ⟨_, hsave, save_and_load.1 s fs _ "d/f".toList ⟨by decide, by decide⟩ hsave⟩
  · have henv : DotEnv.apply fs env = ("COLWRAP_WIDTH".toList, "9".toList) :: env := by
      have hfind : DotEnv.find? fs (fs.here.length + 1) fs.here = some (.file "COLWRAP_WIDTH=9".toList) := rfl
      rw [DotEnv.apply_eq, hfind]
      decide
    have hpath : (DotEnv.apply fs env).settingsPath? = some "f".toList := by
      rw [henv]
      rfl
    have happly : kept.applyEnvironment (DotEnv.apply fs env) = loaded := by
      rw [henv]
      rfl
    have hload : load fs env = .ok loaded := by
      rw [load_of_readText (s := kept) ⟨nofun, by decide⟩ hpath rfl, happly]
    have hsave : loaded.save fs (DotEnv.apply fs env) =
        .ok (fs.put ["f".toList] (.file loaded.print), "f".toList) := by
      rw [henv]
      rfl
    obtain ⟨hagain, hfresh⟩ := save_and_load.2 loaded fs _ env "f".toList hload hsave
    refine ⟨hload, _, hsave, hagain, hfresh fun dir hdir => ?_⟩
    have hplace : ["f".toList] = dir ++ [".env".toList] := Except.ok.inj hdir
    have hname : ["f".toList].getLast? = some ".env".toList := by
      rw [hplace, List.getLast?_concat]
    cases hname

end Reflow.Settings
