import RefSweep.Error
import RefSweep.Path

/-!
# The node's home

The home directory comes from `RAD_HOME`, where a first part that begins with a tilde stands for a
user's home, or is `.radicle` in the home of the current user.
-/

namespace RefSweep

/-- What the process environment says about homes: the value of `RAD_HOME`, the value of `HOME`, and
the home directories of the accounts. -/
structure Environment where
  radHome : Option Text
  userHome : Text
  accounts : List (Text × Text)

namespace Environment

/-- The failure of looking for a home that nothing is known of. -/
def unknownHome : Foreign := .runtime "Could not determine home directory."

/-- The home that a tilde part stands for. Without trailing slashes; the root if nothing is left. -/
def tildeHome? (env : Environment) (part : Text) : Option Text :=
  let home? := if part = Text.of "~" then some env.userHome else (env.accounts.lookup part.tail)
  home?.map fun home =>
    let trimmed := (home.reverse.dropWhile (· = Glyph.char '/')).reverse
    if trimmed = [] then Text.of "/" else trimmed

/-- The path with a leading tilde part replaced, if that user is known. A home that itself begins
with a tilde is no home, and no user's name has a zero character. -/
def expand (env : Environment) (p : Path) : Except Foreign Path :=
  match p.root, p.parts with
  | .workingDirectory, part :: rest =>
    if part.startsWith ['~'] then
      if part.contains '\x00' then .error .embeddedNull
      else
        match env.tildeHome? part with
        | none => .error unknownHome
        | some home =>
          -- a home is not looked up a second time
          if home.startsWith ['~'] then .error unknownHome
          else
            let base := Path.parse home
            .ok ⟨base.root, base.parts ++ rest⟩
    else .ok p
  | _, _ => .ok p

/-- The node's home, if it can be determined. An empty `RAD_HOME` counts as unset. -/
def defaultHome (env : Environment) : Except Foreign Path :=
  match env.radHome with
  | some (g :: t) => env.expand (Path.parse (g :: t))
  | _ => (env.expand ⟨.workingDirectory, [Text.of "~"]⟩).map (·.child ".radicle")

end Environment

end RefSweep
