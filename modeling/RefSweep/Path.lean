import RefSweep.Text.Basic

/-!
# Paths

A path is a root and the parts below it. Reading a path drops empty parts and single dots; two dots
stay, since what they mean depends on links. Exactly two slashes in front are a root of their own.
-/

namespace RefSweep

/-- What a path starts from. -/
inductive PathRoot where
  | workingDirectory
  | slash
  | doubleSlash
  deriving DecidableEq, Repr

/-- A path: where it starts, and the names on the way. -/
structure Path where
  root : PathRoot
  parts : List Text
  deriving DecidableEq, Repr

namespace Path

/-- The root that the slashes in front of a path stand for. -/
def rootOf : Text → PathRoot
  | .char '/' :: .char '/' :: .char '/' :: _ => .slash
  | .char '/' :: .char '/' :: _ => .doubleSlash
  | .char '/' :: _ => .slash
  | _ => .workingDirectory

def parse (t : Text) : Path := ⟨rootOf t, (t.parts '/').filter (· ≠ Text.of ".")⟩

/-- The path as text; the working directory itself is a dot. -/
def text (p : Path) : Text :=
  let tail := Text.joined ['/'] p.parts
  match p.root with
  | .workingDirectory => if tail = [] then Text.of "." else tail
  | .slash => .char '/' :: tail
  | .doubleSlash => .char '/' :: .char '/' :: tail

/-- The entry of this name in the directory. -/
def child (p : Path) (name : Text) : Path := ⟨p.root, p.parts ++ [name]⟩

end Path

end RefSweep
