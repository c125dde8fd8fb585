import RefSweep.Home

/-!
# Tildes in homes

A path is read as a user's home, and something below it, only if it starts from the working
directory and its first part begins with a tilde. Everything that the environment says about homes
matters for such a path only: it may be unknown (`expand_eq`), and if it is known it is another path
than the one written, unless the home is spelled with a tilde part itself (`expand_eq_self_iff`).
Main statement: `defaultHome_eq_error_iff`, there is no default home exactly if a home is looked up
and is unknown.
-/

namespace RefSweep

/-- The part at the start of a path that stands for a user's home. -/
def Path.tilde? (p : Path) : Option Text :=
  match p.root, p.parts with
  | .workingDirectory, part :: _ => if part.startsWith ['~'] then some part else none
  | _, _ => none

namespace Environment

variable {env : Environment} {p : Path} {cause : Foreign}

/-- The path that a tilde part stands for. -/
def tildeBase (env : Environment) (part : Text) : Except Foreign Path :=
  if part.contains '\x00' then .error .embeddedNull
  else
    match env.tildeHome? part with
    | none => .error unknownHome
    | some home => if home.startsWith ['~'] then .error unknownHome else .ok (Path.parse home)

/-- A path is expanded by putting the home that its tilde part stands for in the place of this part.
-/
theorem expand_eq (env : Environment) (p : Path) :
    env.expand p = match p.tilde? with
      | none => .ok p
      | some part =>
        (env.tildeBase part).map fun base => ⟨base.root, base.parts ++ p.parts.tail⟩ := by
  obtain ⟨root, parts⟩ := p
  unfold expand Path.tilde? tildeBase
  cases root with
  | slash | doubleSlash => rfl
  | workingDirectory =>
    cases parts with
    | nil => rfl
    | cons part rest =>
      dsimp only
      -- a first part with a tilde is the only one that is looked up
      by_cases htilde : part.startsWith ['~']
      · rw [if_pos htilde, if_pos htilde]
        dsimp only
        by_cases hzero : part.contains '\x00'
        · rw [if_pos hzero, if_pos hzero]
          rfl
        · rw [if_neg hzero, if_neg hzero]
          cases env.tildeHome? part with
          | none => rfl
          | some home =>
            dsimp only
            split <;> rfl
      · rw [if_neg htilde, if_neg htilde]

/-- A tilde part is the first part of a relative path. -/
theorem tilde?_eq_some {part : Text} (h : p.tilde? = some part) :
    p = ⟨.workingDirectory, part :: p.parts.tail⟩ := by
  obtain ⟨root, parts⟩ := p
  unfold Path.tilde? at h
  split at h
  next hroot hparts =>
    obtain rfl : root = .workingDirectory := hroot
    obtain rfl : parts = _ := hparts
    split at h
    · rw [Option.some.inj h]
      rfl
    · cases h
  · cases h

/-- A path stands as it is written if it has no tilde part, or if the home that this stands for is
the directory of this very name. -/
theorem expand_eq_self_iff :
    env.expand p = .ok p ↔
      ∀ part, p.tilde? = some part → env.tildeBase part = .ok ⟨.workingDirectory, [part]⟩ := by
  rw [expand_eq]
  cases htilde : p.tilde? with
  | none => simp
  | some part =>
    have hp := tilde?_eq_some htilde
    dsimp only
    cases hbase : env.tildeBase part with
    | error cause => simp [Except.map, hbase]
    | ok base =>
      obtain ⟨root, parts⟩ := base
      constructor
      · rintro hsame _ ⟨⟩
        have hpath := Except.ok.inj hsame
        rw [hp] at hpath
        obtain ⟨hroot, hparts⟩ := Path.mk.inj hpath
        -- the parts behind the first are the same on both sides, so the home is this one part
        have hone : parts = [part] := List.append_cancel_right (hparts : _ = [part] ++ p.parts.tail)
        have hroot' : root = .workingDirectory := hroot
        rw [hbase, hroot', hone]
      · intro hsame
        obtain ⟨rfl, rfl⟩ := Path.mk.inj (Except.ok.inj (hbase.symm.trans (hsame part rfl)))
        exact congrArg Except.ok hp.symm

/-! ## The default home -/

/-- The path that the default home begins with: the one in `RAD_HOME`, or the tilde of the current
user if the variable is unset or empty. -/
def homePath (env : Environment) : Path :=
  match env.radHome with
  | some (g :: t) => Path.parse (g :: t)
  | _ => ⟨.workingDirectory, [Text.of "~"]⟩

/-- Why the home is unknown that the default home begins with, if it begins with one. -/
def homeFault? (env : Environment) : Option Foreign :=
  env.homePath.tilde?.bind fun part =>
    match env.tildeBase part with
    | .error cause => some cause
    | .ok _ => none

/-- The default home cannot be told exactly if the environment has the fault that is looked for. -/
theorem defaultHome_eq_error_iff :
    env.defaultHome = .error cause ↔ env.homeFault? = some cause := by
  -- adding the directory below a home can neither fail nor hide a failure
  have hexpand : env.defaultHome = .error cause ↔ env.expand env.homePath = .error cause := by
    have hbelow : (env.expand ⟨.workingDirectory, [Text.of "~"]⟩).map (·.child ".radicle") =
        .error cause ↔ env.expand ⟨.workingDirectory, [Text.of "~"]⟩ = .error cause := by
      cases env.expand ⟨.workingDirectory, [Text.of "~"]⟩ <;> simp [Except.map]
    unfold defaultHome homePath
    match env.radHome with
    | none | some [] => exact hbelow
    | some (g :: t) => rfl
  rw [hexpand, expand_eq, homeFault?]
  cases env.homePath.tilde? with
  | none => simp
  | some part => cases hbase : env.tildeBase part <;> simp [Except.map, hbase]

end Environment

end RefSweep
