import RefSweep.Proofs.Command.Course
import RefSweep.Proofs.Home

/-!
# The home of a command

A command makes its configuration of its options over the environment, as `Settings.configOver`
does, and `RAD_HOME` is the value of the home option where the words give none. So the variable is
read twice: as an option, which stands as it is written, and as the default home, whose tilde part
is replaced. Main statement: `home_of_environment`, the two agree exactly where there is nothing to
replace.
-/

namespace RefSweep

/-- Nothing is set. -/
def Settings.unset : Settings := ⟨none, none, none, none, none⟩

/-- What a request sets in a configuration. -/
def Request.settings (r : Request) : Settings where
  home := r.home.map .text
  backend := some (.text r.backend.name)
  lockRetries := some (.whole r.attempts)
  lockWaitMax := none
  dryRun := some (.flag r.dryRun)

namespace Command

variable {program : Text} {words : List Text} {env : Environment} {h : Host} {request : Request}
  {rid nid : Text} {home : Path} {cause : Foreign}

theorem configOver_unset (hhome : env.defaultHome = .ok home) :
    (Settings.unset.configOver env).map Config.home = .ok home := by
  rw [Settings.configOver, hhome]
  rfl

/-- A request runs with the configuration of its settings over the environment. So what is proved of
configurations made from settings holds of the command too. -/
theorem configOver_settings (request : Request) (hhome : env.defaultHome = .ok home) :
    request.settings.configOver env = .ok (config request home) := by
  -- each setting that the request gives passes its check with the value it was given
  have hhomes : Settings.checked Setting.path home request.settings.present.home =
      .ok (config request home).home := by
    unfold Request.settings Settings.present config
    cases request.home <;> rfl
  have hbackend : Settings.checked Setting.backend .auto request.settings.present.backend =
      .ok request.backend := by
    show Setting.backend (.text request.backend.name) = _
    cases request.backend <;> rfl
  have hattempts : Settings.checked Setting.attempts ⟨1, Nat.one_pos⟩
      request.settings.present.lockRetries = .ok ⟨request.attempts, request.attempts_pos⟩ := by
    show Setting.attempts (.whole request.attempts) = _
    simp [Setting.attempts, Setting.integer, request.attempts_pos]
  have hdryRun : Settings.checked Setting.onOff false request.settings.present.dryRun =
      .ok request.dryRun := rfl
  rw [Settings.configOver, hhome]
  simp only [Settings.withHome, hhomes, hbackend, hattempts, hdryRun]
  rfl

theorem ofArguments_home {arguments : Arguments} {radHome : Option Text}
    {isFile : Text → Except Foreign Bool}
    (hrequest : Request.ofArguments arguments radHome isFile = .ok request) :
    request.home = (arguments.value? .home).or (radHome.filter (· ≠ [])) := by
  -- a home that is accepted is the one that was given
  have hhome : ∀ {value found : Option Text}, Request.home? isFile value = .ok found →
      found = value := by
    intro value found hfound
    unfold Request.home? at hfound
    split at hfound
    · exact (Except.ok.inj hfound).symm
    · split at hfound
      · cases hfound
      · cases hfound
      · exact (Except.ok.inj hfound).symm
  unfold Request.ofArguments at hrequest
  dsimp only at hrequest
  split at hrequest
  · cases hrequest
  · simp only [bind, Except.bind] at hrequest
    split at hrequest
    · cases hrequest
    next found hfound =>
      repeat' split at hrequest
      all_goals cases hrequest
      exact hhome hfound

/-- Where the words give no home, the command and the library have the same one exactly if
`RAD_HOME` has no tilde part to replace. -/
theorem config_home_eq_iff {arguments : Arguments} {isFile : Text → Except Foreign Bool}
    (hrequest : Request.ofArguments arguments env.radHome isFile = .ok request)
    (hnone : arguments.value? .home = none) (hhome : env.defaultHome = .ok home) :
    (config request home).home = home ↔
      ∀ part, (env.radHome.bind fun t => (Path.parse t).tilde?) = some part →
        env.tildeBase part = .ok ⟨.workingDirectory, [part]⟩ := by
  have hgiven : request.home = env.radHome.filter (· ≠ []) := by
    rw [ofArguments_home hrequest, hnone, Option.none_or]
  unfold Environment.defaultHome at hhome
  unfold config
  -- an unset variable and an empty one leave the default home to the command too
  match hset : env.radHome with
  | none => simp [hgiven, hset]
  | some [] =>
    have hplain : (Path.parse []).tilde? = none := rfl
    have hempty : request.home = none := by
      rw [hgiven, hset]
      rfl
    simp [hempty, hplain]
  | some (g :: t) =>
    rw [hset] at hhome
    have hwritten : Path.parse (g :: t) = home ↔
        env.expand (Path.parse (g :: t)) = .ok (Path.parse (g :: t)) := by
      have hexpand : env.expand (Path.parse (g :: t)) = .ok home := hhome
      rw [hexpand, Except.ok.injEq, eq_comm]
    rw [hgiven, hset]
    exact hwritten.trans Environment.expand_eq_self_iff

/-- A command without a home option runs with the configuration of its settings over the
environment, or fails to look up the default home as the library does. The home of that
configuration is the default home, which the library takes, exactly if `RAD_HOME` begins with no
tilde part, or with one that stands for the directory of this very name. -/
theorem home_of_environment (program : Text) {arguments : Arguments}
    (hread : Arguments.read words = .ok arguments) (hnone : arguments.value? .home = none)
    (hdemand : demand words env.radHome h.files.namesFile = .prune request rid nid) :
    (∀ cause, env.defaultHome = .error cause →
      Settings.unset.configOver env = .error (.homeFailed cause) ∧
      request.settings.configOver env = .error (.homeFailed cause) ∧
      (run program words env h).2 = h) ∧
    ∀ home, env.defaultHome = .ok home →
      (Settings.unset.configOver env).map Config.home = .ok home ∧
      ∃ c, request.settings.configOver env = .ok c ∧
        (run program words env h).2 = (Host.prune c rid nid (some observer) h).after ∧
        (c.home = home ↔
          ∀ part, (env.radHome.bind fun t => (Path.parse t).tilde?) = some part →
            env.tildeBase part = .ok ⟨.workingDirectory, [part]⟩) := by
  have hrun : (run program words env h).2 = (perform program request rid nid env h).2 := by
    rw [run_eq, hdemand]
  constructor
  · -- both the library and the command look the default home up, and fail alike
    intro cause hcause
    refine ⟨by rw [Settings.configOver, hcause], by rw [Settings.configOver, hcause], ?_⟩
    rw [hrun, perform, hcause]
  · intro home hhome
    -- the request was made of these very arguments
    obtain ⟨arguments', hread', hrequest, -, -⟩ := ofArguments_of_demand hdemand
    obtain rfl := Except.ok.inj (hread.symm.trans hread')
    refine ⟨configOver_unset hhome, config request home, configOver_settings request hhome, ?_,
      config_home_eq_iff hrequest hnone hhome⟩
    rw [hrun, perform, hhome]

/-- A variable with the tilde of the current user leads the command below a directory whose name is
a tilde, and the library to the user's home. -/
theorem home_of_environment_tilde :
    let words : List Text := ["rid", "p1"]
    let env : Environment := ⟨some "~/x", "/home/u", []⟩
    let h : Host := ⟨⟨[]⟩, .missing, []⟩
    ∃ arguments request, Arguments.read words = .ok arguments ∧ arguments.value? .home = none ∧
      demand words env.radHome h.files.namesFile = .prune request "rid" "p1" ∧
      env.defaultHome = .ok ⟨.slash, ["home", "u", "x"]⟩ ∧
      ∃ c, request.settings.configOver env = .ok c ∧
        (run "nsprune" words env h).2 = (Host.prune c "rid" "p1" (some observer) h).after ∧
        c.home ≠ ⟨.slash, ["home", "u", "x"]⟩ := by
  intro words env h
  have hread : Arguments.read words = .ok ⟨[], words⟩ := rfl
  have hdemand : demand words env.radHome h.files.namesFile =
      .prune ⟨some "rid", some "p1", [], some "~/x", .auto, 1, false, 0, Nat.one_pos⟩ "rid" "p1" :=
    rfl
  have hhome : env.defaultHome = .ok ⟨.slash, ["home", "u", "x"]⟩ := rfl
  obtain ⟨-, c, hc, hrun, hsame⟩ := (home_of_environment "nsprune" hread rfl hdemand).2 _ hhome
  refine ⟨_, _, hread, rfl, hdemand, hhome, c, hc, hrun, fun heq => ?_⟩
  -- equal homes would mean that the tilde stands for a directory of that name
  have hbase := hsame.1 heq "~" rfl
  cases hbase

end Command

end RefSweep
