import RefSweep.Text.Digits
import RefSweep.Outcome

/-!
# Object counts

Git reports what a repository holds as lines of a name, a colon and a number. Lines without a number
are left out; of several lines with one name the last counts.
-/

namespace RefSweep

/-- Named numbers, in the order in which the names first came. -/
abbrev Counts := List (Text × Int)

namespace Counts

def set (counts : Counts) (name : Text) (n : Int) : Counts :=
  if counts.any (·.1 = name) then
    List.map (fun (k, old) => if k = name then (k, n) else (k, old)) counts
  else counts ++ [(name, n)]

/-- The number of this name, or zero. -/
def get (counts : Counts) (name : Text) : Int := (counts.lookup name).getD 0

def parse (report : Text) : Counts :=
  report.lines.foldl (fun counts line =>
    let (name, value) := line.cut ':'
    match Text.int? value with
    | some n => counts.set name.strip n
    | none => counts) []

/-- How many objects there are: the loose ones and those in packs. -/
def objects (counts : Counts) : Int := counts.get "count" + counts.get "in-pack"

/-- How many bytes they take; the report counts in units of 1024. -/
def bytes (counts : Counts) : Int :=
  (counts.get "size" + counts.get "size-pack" + counts.get "size-garbage") * 1024

/-- What a collection between two reports reclaimed, if both were readable. -/
def reclaimed (before after : Counts) : CompactionStats :=
  if before.isEmpty || after.isEmpty then ⟨none, none⟩
  else
    ⟨some (max 0 (before.objects - after.objects)), some (max 0 (before.bytes - after.bytes))⟩

end Counts

end RefSweep
