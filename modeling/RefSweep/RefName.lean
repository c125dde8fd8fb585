import RefSweep.Text.Basic

/-!
# Reference names and identifiers

A reference name is a sequence of path segments, written with slashes between them. `RefName.parse`
accepts the names that version control tools accept: no empty segment, none that begins with a dot
or ends in `.lock`, no `..`, no `@` before a brace, no control characters or wildcards, and no dot
at the very end. An identifier (of a repository or a peer) is a single such segment.

What is wrong with a text is a value; its wording is in `message`. Main statement: `text_parse`, a
name that was accepted is written as it was read.
-/

namespace RefSweep

/-- Why a single path segment is refused. -/
inductive SegmentFault where
  | empty
  | leadingDot
  | lockSuffix
  | doubleDot
  | atBrace
  | forbidden
  deriving DecidableEq, Repr

namespace SegmentFault

def message : SegmentFault → Text
  | empty => "empty path segment"
  | leadingDot => "segment cannot start with '.'"
  | lockSuffix => "segment cannot end with '.lock'"
  | doubleDot => "segment cannot contain '..'"
  | atBrace => "segment cannot contain '@\x7b'"
  | forbidden =>
    "segment contains forbidden characters (control, space, ~, ^, :, ?, *, [, \\)"

end SegmentFault

namespace Segment

/-- The characters no segment may hold: controls, the space, delete and `~ ^ : ? * [ \`. -/
def isForbidden (g : Glyph) : Bool :=
  g.within [(0x00, 0x20), (0x7F, 0x7F)] || g.isOneOf ['~', '^', ':', '?', '*', '[', '\x5c']

/-- The first fault of a segment, in the order in which they are reported. -/
def fault? (s : Text) : Option SegmentFault :=
  if s = [] then some .empty
  else if s.startsWith ['.'] then some .leadingDot
  else if s.endsWith (Text.of ".lock") then some .lockSuffix
  else if Text.includes (Text.of "..") s then some .doubleDot
  else if Text.includes (Text.of "@\x7b") s then some .atBrace
  else if s.any isForbidden then some .forbidden
  else none

end Segment

/-- Why a reference name is refused. -/
inductive NameFault where
  | empty
  | slashes
  | trailingDot
  | segment (fault : SegmentFault)
  deriving DecidableEq, Repr

namespace NameFault

def message : NameFault → Text
  | empty => "reference name cannot be empty"
  | slashes => "reference name has invalid slash usage"
  | trailingDot => "reference name cannot end with '.'"
  | segment fault => fault.message

end NameFault

/-- A reference name as its path segments. -/
structure RefName where
  segments : List Text
  deriving DecidableEq, Repr

namespace RefName

/-- The name with slashes between its segments. -/
def text (n : RefName) : Text := Text.joined ['/'] n.segments

def size (n : RefName) : Nat := n.segments.length

/-- The first segments are exactly these. -/
def startsWith (n : RefName) (lead : List Text) : Bool := lead.isPrefixOf n.segments

/-- The first fault of a name, in the order in which they are reported. -/
def fault? (t : Text) : Option NameFault :=
  if t = [] then some .empty
  else if t.startsWith ['/'] || t.endsWith ['/'] || Text.includes (Text.of "//") t then
    some .slashes
  else if t.endsWith ['.'] then some .trailingDot
  else ((t.split '/').findSome? Segment.fault?).map .segment

/-- Reads a name, or says why it is none. -/
def parse (t : Text) : Except NameFault RefName :=
  match fault? t with
  | some fault => .error fault
  | none => .ok ⟨t.split '/'⟩

theorem parse_eq_ok_iff {t : Text} {n : RefName} :
    parse t = .ok n ↔ fault? t = none ∧ n = ⟨t.split '/'⟩ := by
  unfold parse
  cases fault? t <;> simp [eq_comm]

theorem text_parse {t : Text} {n : RefName} (h : parse t = .ok n) : n.text = t := by
  obtain ⟨-, rfl⟩ := parse_eq_ok_iff.1 h
  exact Text.joined_split _ t

/-- Names that can be read are told apart by their texts. -/
theorem eq_of_text_eq {a b : RefName} (ha : parse a.text = .ok a) (hb : parse b.text = .ok b)
    (htext : a.text = b.text) : a = b := by
  rw [htext, hb] at ha
  exact (Except.ok.inj ha).symm

end RefName

/-- Why an identifier is refused. -/
inductive IdentifierFault where
  | empty
  | slash
  | segment (fault : SegmentFault)
  deriving DecidableEq, Repr

namespace IdentifierFault

def message : IdentifierFault → Text
  | empty => "identifier cannot be empty"
  | slash => "identifier cannot contain '/'"
  | segment fault => fault.message

end IdentifierFault

namespace Identifier

/-- The first fault of an identifier, in the order in which they are reported. -/
def fault? (t : Text) : Option IdentifierFault :=
  if t = [] then some .empty
  else if t.contains '/' then some .slash
  else (Segment.fault? t).map .segment

end Identifier

/-- A text that can name a directory and stand as one segment of a reference name. -/
structure Identifier where
  text : Text
  accepted : Identifier.fault? text = none

namespace Identifier

/-- Reads an identifier, or says why it is none. -/
def parse (t : Text) : Except IdentifierFault Identifier :=
  match h : fault? t with
  | some fault => .error fault
  | none => .ok ⟨t, h⟩

end Identifier

/-- A named pointer to an object. -/
structure Reference where
  name : RefName
  target : Text
  deriving DecidableEq, Repr

end RefSweep
