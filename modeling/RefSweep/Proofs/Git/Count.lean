import Mathlib.Data.Finset.Card
import RefSweep.Proofs.Entries
import RefSweep.Proofs.Git.Listing
import RefSweep.Proofs.Git.Talk
import RefSweep.Proofs.Text.Digits

/-!
# What a collection of git storage counts

The tool reports how many objects are loose, how many are packed, and how many are both. Main
statement: `gitCompact_counts_copies`. The number of objects removed is a difference of copies: an
object that is loose and packed counts twice, so that it seems to be removed when only its loose
copy is.
-/

namespace RefSweep

namespace Counts

variable {counts : Counts} {name : Text} {n : Nat} {lines : List Text}

/-- Looking a count up after one was set finds the new number under the name it was set for and the
old one under any other. -/
theorem lookup_set (counts : Counts) (name q : Text) (n : Int) :
    (counts.set name n).lookup q = if q = name then some n else counts.lookup q := by
  unfold set
  exact Entries.lookup_set counts name q n

/-- The counts after one more line of a report. -/
def record (counts : Counts) (line : Text) : Counts :=
  match Text.int? (line.cut ':').2 with
  | some n => counts.set (line.cut ':').1.strip n
  | none => counts

/-- A report of counts is read line by line, each line recorded over what the lines before it said.
-/
theorem parse_eq (report : Text) : parse report = report.lines.foldl record [] := rfl

/-- A line whose part before the colon is another name leaves the count of this one alone. -/
theorem lookup_record_of_ne {line : Text} (h : (line.cut ':').1.strip ≠ name) :
    (counts.record line).lookup name = counts.lookup name := by
  unfold record
  split
  · rw [lookup_set, if_neg h.symm]
  · rfl

/-- Lines that give one number for a name leave this number, however many they are and whatever
other names stand between them. -/
theorem lookup_foldl_record
    (hnumber : ∀ line ∈ lines, (line.cut ':').1.strip = name →
      Text.int? (line.cut ':').2 = some (n : Int)) (counts : Counts)
    (hgiven : (∃ line ∈ lines, (line.cut ':').1.strip = name) ∨
      counts.lookup name = some (n : Int)) :
    (lines.foldl record counts).lookup name = some (n : Int) := by
  -- by induction on the lines: the name is given by a line to come, or has its number already
  induction lines generalizing counts with
  | nil => exact hgiven.resolve_left fun ⟨_, hmem, _⟩ => absurd hmem List.not_mem_nil
  | cons line rest ih =>
    refine ih (fun l hl => hnumber l (.tail _ hl)) (counts.record line) ?_
    by_cases hname : (line.cut ':').1.strip = name
    · right
      rw [record, hnumber line (.head _) hname]
      dsimp only
      rw [lookup_set, if_pos hname.symm]
    · obtain ⟨l, hl, heq⟩ | hbefore := hgiven
      · obtain rfl | hlater := List.mem_cons.1 hl
        · exact absurd heq hname
        · exact .inl ⟨l, hlater, heq⟩
      · exact .inr ((lookup_record_of_ne hname).trans hbefore)

end Counts

namespace Git

variable {α : Type} [DecidableEq α] {report name : Text} {n : Nat}

/-- The report gives this number under this name: some line does, and no line another one. The
number has no more digits than are read. -/
structure Gives (report name : Text) (n : Nat) : Prop where
  given : ∃ line ∈ report.lines, (line.cut ':').1.strip = name
  number : ∀ line ∈ report.lines, (line.cut ':').1.strip = name →
    (line.cut ':').2.strip = Text.ofNat n
  short : (Text.ofNat n).length ≤ Text.digitLimit

/-- In the counts that are read from the report, a name the report gives is found with the number
given. -/
theorem Gives.lookup (h : Gives report name n) :
    (Counts.parse report).lookup name = some (n : Int) := by
  rw [Counts.parse_eq]
  exact Counts.lookup_foldl_record
    (fun line hline hname => Text.int?_of_strip (h.number line hline hname) h.short) []
    (.inl h.given)

theorem Gives.get (h : Gives report name n) : (Counts.parse report).get name = n := by
  rw [Counts.get, h.lookup]
  rfl

/-- A report that gives some count is not read as an empty one. -/
theorem Gives.isEmpty (h : Gives report name n) : (Counts.parse report).isEmpty = false := by
  cases hparse : Counts.parse report with
  | nil =>
    have hlookup := h.lookup
    rw [hparse] at hlookup
    cases hlookup
  | cons => rfl

/-- The report counts these loose and these packed objects, and those that are both. -/
structure Counted (report : Text) (loose packed : Finset α) : Prop where
  count : Gives report "count" loose.card
  inPack : Gives report "in-pack" packed.card
  prunePackable : Gives report "prune-packable" (loose ∩ packed).card

/-- What is counted are copies: objects that are loose and packed count once more. -/
theorem Counted.objects {loose packed : Finset α} (h : Counted report loose packed) :
    (Counts.parse report).objects = (loose ∪ packed).card + (loose ∩ packed).card := by
  rw [Counts.objects, h.count.get, h.inPack.get]
  exact_mod_cast (Finset.card_union_add_card_inter loose packed).symm

/-- Between two such reports the number of removed objects is a difference of copies. -/
theorem Counted.reclaimed {report' : Text} {loose packed loose' packed' : Finset α}
    (h : Counted report loose packed) (h' : Counted report' loose' packed') :
    ∃ bytes, Counts.reclaimed (Counts.parse report) (Counts.parse report') =
      ⟨some (max 0 (((loose ∪ packed).card + (loose ∩ packed).card) -
        ((loose' ∪ packed').card + (loose' ∩ packed').card))), bytes⟩ := by
  rw [Counts.reclaimed, h.count.isEmpty, h'.count.isEmpty, h.objects, h'.objects]
  exact ⟨_, rfl⟩

end Git

namespace Host

variable {α : Type} [DecidableEq α] {h asked collected ended : Host} {handle : Handle} {path : Path}
  {expiry : Option Text} {before gc after finished : Finished}

/-- When the query ends with status zero, the counts are those that its output says. -/
theorem gitCounts_of_run (hrun : h.runGit path Git.countQuery = (.ok finished, asked))
    (hcode : finished.code = 0) : h.gitCounts path = (.ok (Counts.parse finished.out), asked) := by
  unfold gitCounts
  rw [hrun]
  dsimp only
  rw [if_pos hcode]

section Collected

variable (hasked : h.runGit handle.path Git.countQuery = (.ok before, asked))
  (hbefore : before.code = 0)
  (hcollected : asked.runGit handle.path (Git.collection expiry) = (.ok gc, collected))
  (hgc : gc.code = 0)
  (hended : collected.runGit handle.path Git.countQuery = (.ok after, ended))
  (hafter : after.code = 0)
include hasked hbefore hcollected hgc hended hafter

/-- When the count, the expiry, the collection and the second count all run, the number reported is
the difference of the two counts. -/
theorem gitCompact_of_runs : (gitCompact expiry handle h).result =
    .ok (Counts.reclaimed (Counts.parse before.out) (Counts.parse after.out)) := by
  unfold gitCompact
  rw [gitCounts_of_run hasked hbefore]
  dsimp only
  rw [hcollected]
  dsimp only
  rw [if_pos hgc, gitCounts_of_run hended hafter]

/-- Where the tool counts the objects before and after a collection, the number removed is the
difference of the copies, or zero. It is the difference of the objects exactly if as many objects
are loose and packed at the end as at the beginning, or if neither the objects nor their copies have
become fewer. If the objects are the same as before, each loose copy of a packed object that is gone
counts as an object removed. -/
theorem gitCompact_counts_copies {loose packed loose' packed' : Finset α}
    (hcounted : Git.Counted before.out loose packed)
    (hcounted' : Git.Counted after.out loose' packed') :
    let objects := ((loose ∪ packed).card : Int)
    let twice := ((loose ∩ packed).card : Int)
    let objects' := ((loose' ∪ packed').card : Int)
    let twice' := ((loose' ∩ packed').card : Int)
    ∃ removed bytes, (gitCompact expiry handle h).result = .ok ⟨some removed, bytes⟩ ∧
      removed = max 0 ((objects + twice) - (objects' + twice')) ∧
      (removed = max 0 (objects - objects') ↔
        twice = twice' ∨ objects ≤ objects' ∧ objects + twice ≤ objects' + twice') ∧
      (loose ∪ packed = loose' ∪ packed' → removed = max 0 (twice - twice')) := by
  intro objects twice objects' twice'
  -- a report counts a loose copy of a packed object twice, so it counts the union and the overlap
  obtain ⟨bytes, hreclaimed⟩ := hcounted.reclaimed hcounted'
  have hresult := gitCompact_of_runs hasked hbefore hcollected hgc hended hafter
  rw [hreclaimed] at hresult
  refine ⟨_, bytes, hresult, rfl, by omega, fun hsame => ?_⟩
  have hobjects : objects = objects' := by
    dsimp only [objects, objects']
    rw [hsame]
  omega

end Collected

end Host

namespace Git.Sample

/-- The lines of a report on one object in a pack, and on its loose copy if there is one. -/
def reported (copies : Nat) : List Text :=
  ["count: " ++ Text.ofNat copies, "in-pack: 1", "packs: 1",
    "prune-packable: " ++ Text.ofNat copies]

def report (copies : Nat) : Text := (reported copies).flatMap (· ++ [.char '\n'])

/-- A host whose tool drops the loose copy. -/
def collecting : Host :=
  { host [] with git := ⟨true,
      [⟨0, Utf8.encode (report 1), []⟩, ⟨0, [], []⟩, ⟨0, Utf8.encode (report 0), []⟩], []⟩ }

theorem lines_report : (report 1).lines = reported 1 ∧ (report 0).lines = reported 0 := by
  decide +kernel

/-- The first report is a true count of a repository where the object 1 lies loose and in a pack at
once. -/
theorem counted_overlapping : Git.Counted (report 1) ({1} : Finset Nat) {1} := by
  constructor
  all_goals
    constructor
    · rw [lines_report.1]
      decide +kernel
    · rw [lines_report.1]
      decide +kernel
    · decide +kernel

/-- The second report is a true count of the same repository once the loose copy has gone. -/
theorem counted_repacked : Git.Counted (report 0) (∅ : Finset Nat) {1} := by
  constructor
  all_goals
    constructor
    · rw [lines_report.2]
      decide +kernel
    · rw [lines_report.2]
      decide +kernel
    · decide +kernel

end Git.Sample

open Git.Sample in
/-- The object is there before and after, and yet one object counts as removed. -/
theorem Host.gitCompact_counts_copies_repacked :
    Git.Counted (report 1) ({1} : Finset Nat) {1} ∧
      Git.Counted (report 0) (∅ : Finset Nat) {1} ∧
      ∃ bytes, (gitCompact none repository collecting).result = .ok ⟨some 1, bytes⟩ := by
  let path := repository.path
  let asked := collecting.spoke ⟨path, Git.countQuery⟩
  let collected := asked.spoke ⟨path, Git.collection none⟩
  -- the three commands run one after the other, and the sets are those that their outputs report
  have hasked : collecting.runGit path Git.countQuery =
      (.ok collecting.nextReply.finished, asked) :=
    (collecting.runGit_cases path Git.countQuery).resolve_left fun ⟨f, hf⟩ => by
      have hok : (collecting.runGit path Git.countQuery).1.isOk := by decide +kernel
      rw [hf] at hok
      cases hok
  have hcollected : asked.runGit path (Git.collection none) =
      (.ok asked.nextReply.finished, collected) :=
    collecting.runGit_again path (congrArg Prod.fst hasked) (by decide +kernel)
  have hended : collected.runGit path Git.countQuery =
      (.ok collected.nextReply.finished, collected.spoke ⟨path, Git.countQuery⟩) :=
    asked.runGit_again path (congrArg Prod.fst hcollected) (by decide +kernel)
  have hbefore : collecting.nextReply.finished.out = report 1 := by decide +kernel
  have hafter : collected.nextReply.finished.out = report 0 := by decide +kernel
  obtain ⟨removed, bytes, hresult, hremoved, -, -⟩ :=
    Host.gitCompact_counts_copies hasked rfl hcollected rfl hended rfl
      (hbefore ▸ counted_overlapping) (hafter ▸ counted_repacked)
  refine ⟨counted_overlapping, counted_repacked, bytes, ?_⟩
  rw [hresult, hremoved]
  rfl

end RefSweep
