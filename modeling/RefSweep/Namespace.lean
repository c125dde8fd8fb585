import RefSweep.Error

/-!
# Namespaces

A peer owns the references under `namespaces/<peer>/` and under `refs/namespaces/<peer>/`. Segments
are compared whole, and something has to follow the peer.
-/

namespace RefSweep

/-- A peer, whose identifier is accepted. -/
structure Peer where
  id : Identifier

namespace Peer

def parse (t : Text) : Except Error Peer :=
  match Identifier.parse t with
  | .ok id => .ok ⟨id⟩
  | .error fault => .error (Error.ofIdentifier "peer" t fault)

/-- The two ways in which the names of the peer's references begin. -/
def leads (p : Peer) : List (List Text) :=
  [["namespaces", p.id.text], ["refs", "namespaces", p.id.text]]

/-- The peer owns the reference of this name. -/
def owns (p : Peer) (name : RefName) : Bool :=
  p.leads.any fun lead => lead.length < name.size && name.startsWith lead

/-- The owned references, in their order. -/
def owned (p : Peer) (refs : List Reference) : List Reference := refs.filter (p.owns ·.name)

/-- How a message names the owned references. -/
def pattern (p : Peer) : Text := "namespaces/" ++ p.id.text ++ "/*"

end Peer

/-- Reads the identifier of a repository. -/
def parseRepository (t : Text) : Except Error Identifier :=
  match Identifier.parse t with
  | .ok id => .ok id
  | .error fault => .error (Error.ofIdentifier "repository" t fault)

end RefSweep
