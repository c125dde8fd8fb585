import RefSweep.Config
import RefSweep.Proofs.Home

/-!
# The environment and a home that is set

A configuration over an environment looks the default home up before the settings count. Where a
home is set, all that can come of that is a failure: two environments then give the same
configuration, or the same faults, exactly if looking up the home of either fails alike. Main
statement: `configOver_given`.
-/

namespace RefSweep.Settings

variable {s : Settings} {home : Setting}

theorem present_home (hhome : s.home = some home) (hgiven : home ≠ .null) :
    s.present.home = some home := by
  simp [present, hhome, hgiven]

/-- A default home is not looked at where a home is set. -/
theorem withHome_of_home (hhome : s.home = some home) (d d' : Path) :
    s.withHome d = s.withHome d' := by
  simp only [withHome, hhome, checked]

/-- The faults of a configuration are those of its fields. -/
theorem withHome_ne_homeFailed (s : Settings) (d : Path) (cause : Foreign) :
    s.withHome d ≠ .error (.homeFailed cause) := by
  unfold withHome
  dsimp only
  split
  · exact nofun
  · intro heq
    cases Except.error.inj heq

/-- A set home leaves nothing of the default home but the failure of looking it up, which comes
before all settings are checked. -/
theorem configOver_eq (hhome : s.home = some home) (hgiven : home ≠ .null) (env : Environment) :
    s.configOver env = match env.homeFault? with
      | some cause => .error (.homeFailed cause)
      | none => s.present.withHome ⟨.workingDirectory, []⟩ := by
  unfold configOver
  cases hdefault : env.defaultHome with
  | error cause => rw [Environment.defaultHome_eq_error_iff.1 hdefault]
  | ok path =>
    have hnone : env.homeFault? = none := by
      refine Option.eq_none_iff_forall_ne_some.2 fun cause hcause => ?_
      cases hdefault.symm.trans (Environment.defaultHome_eq_error_iff.2 hcause)
    rw [hnone]
    exact withHome_of_home (present_home hhome hgiven) _ _

/-- Where a home is set, two environments give the same exactly if looking up their own homes fails
alike or not at all. Without that failure the configuration is the one of the settings alone. -/
theorem configOver_given (hhome : s.home = some home) (hgiven : home ≠ .null)
    (env env' : Environment) :
    (s.configOver env = s.configOver env' ↔ env.homeFault? = env'.homeFault?) ∧
      (∀ cause, env.homeFault? = some cause → s.configOver env = .error (.homeFailed cause)) ∧
      (env.homeFault? = none → s.configOver env = s.present.config env') := by
  have hne := withHome_ne_homeFailed s.present ⟨.workingDirectory, []⟩
  refine ⟨?_, fun cause hcause => ?_, fun hnone => ?_⟩
  · rw [configOver_eq hhome hgiven, configOver_eq hhome hgiven]
    -- a failed lookup is told apart from another one by its cause, and from all faults of fields
    cases env.homeFault? with
    | none =>
      cases env'.homeFault? with
      | none => simp
      | some cause => simpa using hne cause
    | some cause =>
      cases env'.homeFault? with
      | none => simpa using (hne cause).symm
      | some cause' => simp
  · rw [configOver_eq hhome hgiven, hcause]
  · rw [configOver_eq hhome hgiven, hnone, config, present_home hhome hgiven]

/-- A home is set, and `RAD_HOME` names a user that nobody knows. -/
theorem configOver_given_unknown :
    let s : Settings := ⟨some (.text "h"), none, none, none, none⟩
    let unknown : Environment := ⟨some "~nobody/x", "/home/u", []⟩
    let unset : Environment := ⟨none, "/home/u", []⟩
    Setting.text "h" ≠ .null ∧
      s.configOver unknown = .error (.homeFailed Environment.unknownHome) ∧
      (∃ c, s.configOver unset = .ok c ∧ c.home = Path.parse "h") ∧
      s.configOver unknown ≠ s.configOver unset := by
  intro s unknown unset
  have hgiven : Setting.text "h" ≠ .null := nofun
  have hunknown : unknown.homeFault? = some Environment.unknownHome := by decide +kernel
  have hunset : unset.homeFault? = none := by decide +kernel
  -- with the home given, the two environments differ only in whether the default fails
  obtain ⟨hsame, hfails, -⟩ := configOver_given (s := s) rfl hgiven unknown unset
  obtain ⟨-, -, halone⟩ := configOver_given (s := s) rfl hgiven unset unset
  refine ⟨hgiven, hfails _ hunknown, ⟨_, halone hunset, rfl⟩, fun heq => ?_⟩
  rw [hsame, hunknown, hunset] at heq
  cases heq

end RefSweep.Settings
