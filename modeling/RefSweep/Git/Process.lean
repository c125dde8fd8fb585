import RefSweep.Path
import RefSweep.Error
import RefSweep.Text.Utf8
import RefSweep.Text.Space

/-!
# Running git

The tool is a script of answers: its next call gives the next answer, whatever the arguments are.
What it prints are bytes; they are read as UTF-8 with stray bytes, and every line ending counts as a
line feed. The commands that were issued are kept.
-/

namespace RefSweep

/-- What one call of the tool answers. -/
structure GitReply where
  code : Int
  out : Bytes
  err : Bytes

/-- A command that was issued: where, and with which arguments. -/
structure GitCommand where
  directory : Path
  arguments : List Text
  deriving DecidableEq, Repr

/-- The tool: whether it can be run at all, the answers to come, and the commands so far. -/
structure Git where
  available : Bool
  replies : List GitReply
  issued : List GitCommand

/-- What a finished command left: its exit status and its output as text. -/
structure Finished where
  code : Int
  out : Text
  err : Text

namespace Git

/-- The tool of a machine without it. -/
def missing : Git := ⟨false, [], []⟩

/-- The answer to every call after the last one of the script. -/
def exhausted : GitReply := ⟨99, [], Utf8.encode "script exhausted\n"⟩

/-- The output of a process as text. -/
def read (bytes : Bytes) : Text := (Utf8.decode bytes).withLineFeeds

/-- The error of a tool that cannot be found. -/
def notFound : Error := .gitUnavailable "git executable not found on PATH"

/-- Runs a command in a directory that exists. -/
def run (g : Git) (directory : Path) (arguments : List Text) : Except Failure Finished × Git :=
  if g.available then
    let reply := g.replies.headD exhausted
    (.ok ⟨reply.code, read reply.out, read reply.err⟩,
      { g with replies := g.replies.tail, issued := g.issued ++ [⟨directory, arguments⟩] })
  else (.error notFound, g)

end Git

end RefSweep
