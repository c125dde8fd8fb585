import RefSweep.Command.Run

/-!
# The program

The outer layer: it looks at the directories that the request may be about, runs the command, and
prints. Of files only the first bytes are read, so that a repository's layout is known; git is not
run from here, and stores in database files are not read.
-/

namespace RefSweep.Program

/-- The directory entry that a path names. -/
def named (p : Path) : IO.FS.DirEntry := ⟨".", p.text.toString⟩

def entryOf (e : IO.FS.DirEntry) : IO Entry := do
  if ← e.path.isDir then pure .directory
  else
    let handle ← IO.FS.Handle.mk e.path .read
    pure (.file (← handle.read 2).toList)

/-- The entries below a directory, down to a depth. A directory that cannot be read has none. -/
def below (directory : Path) : Nat → IO (List (Path × Entry))
  | 0 => pure []
  | depth + 1 => do
    let entries ← try (named directory).path.readDir catch _ => pure #[]
    let mut found := []
    for e in entries do
      let place := directory.child (Text.of e.fileName)
      match ← (entryOf e).toBaseIO with
      | .ok .directory => found := found ++ (place, .directory) :: (← below place depth)
      | .ok entry => found := found ++ [(place, entry)]
      | .error _ => pure ()
    pure found

/-- The directories on the way to a path. -/
def onTheWay (p : Path) : IO (List (Path × Entry)) := do
  let mut found := []
  for n in List.range p.parts.length do
    let place : Path := ⟨p.root, p.parts.take (n + 1)⟩
    match ← (entryOf (named place)).toBaseIO with
    | .ok entry => found := found ++ [(place, entry)]
    | .error _ => pure ()
  pure found

/-- The part of the file tree at a home: the way to it, its storage, and the repositories there. -/
def survey (homes : List Path) : IO FileTree := do
  let mut tree := FileTree.empty
  for home in homes do
    for (place, entry) in (← onTheWay home) ++ (← below home 3) do
      tree := tree.put place entry
  pure tree

def print (printed : List Printed) : IO Unit :=
  for p in printed do
    match p.channel with
    | .out => IO.print p.text.toString
    | .err => IO.eprint p.text.toString

end RefSweep.Program

open RefSweep in
/-- Runs the command with the process's arguments and environment. -/
def main (words : List String) : IO UInt32 := do
  let radHome := (← IO.getEnv "RAD_HOME").map Text.of
  let env : Environment := ⟨radHome, Text.of ((← IO.getEnv "HOME").getD ""), []⟩
  let words := words.map Text.of
  let asked := match Arguments.read words with
    | .ok arguments => (arguments.value? .home).toList.map Path.parse
    | .error _ => []
  let files ← Program.survey (asked ++ env.defaultHome.toOption.toList)
  let (finish, _) := Command.run "refsweep" words env ⟨files, Git.missing, []⟩
  Program.print finish.printed
  match finish.escaped.bind Foreign.message? with
  | some message => IO.eprintln message.toString
  | none => pure ()
  return finish.code.toUInt32
