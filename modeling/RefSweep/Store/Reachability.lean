import RefSweep.Store.Basic

/-!
# Reachability

An object is reachable if a reference points at it or a reachable object links to it. `marked`
collects the reachable keys from a work list; every link is followed at most once, so cycles and
shared parts end the search as any other graph does.
-/

namespace RefSweep.Store

/-- The targets of the links that go out from an object. -/
def targetsOf (key : Text) (links : List LinkRow) : List Text :=
  (links.filter (·.source == key)).map (·.target)

/-- The links that go out from other objects. -/
def otherLinks (key : Text) (links : List LinkRow) : List LinkRow := links.filter (·.source != key)

theorem length_targetsOf_add_length_otherLinks (key : Text) (links : List LinkRow) :
    (targetsOf key links).length + (otherLinks key links).length = links.length := by
  simp only [targetsOf, otherLinks, List.length_map]
  induction links with
  | nil => rfl
  | cons l links ih =>
    by_cases h : l.source = key
    · simp only [List.filter_cons, h, beq_self_eq_true, bne_self_eq_false, if_true,
        List.length_cons, Bool.false_eq_true, if_false]
      omega
    · simp only [List.filter_cons, beq_false_of_ne h, bne, Bool.not_false, if_true,
        List.length_cons, Bool.false_eq_true, if_false] at ih ⊢
      omega

/-- The keys reached from the `pending` ones, added to those already `seen`. The links are those
that have not been followed. -/
def marked (links : List LinkRow) (seen : List Text) : List Text → List Text
  | [] => seen
  | key :: pending =>
    if key ∈ seen then marked links seen pending
    else marked (otherLinks key links) (key :: seen) (targetsOf key links ++ pending)
termination_by pending => pending.length + links.length
decreasing_by
  · simp
  · have := length_targetsOf_add_length_otherLinks key links
    simp only [List.length_append, List.length_cons]
    omega

/-- The keys that the references reach through links, whether or not they are stored. -/
def reachable (s : Store) : List Text := marked s.linkRows [] (s.refRows.map (·.target))

/-- The keys of the stored objects that no reference reaches, in order. -/
def unreachable (s : Store) : List Text :=
  let reachable := s.reachable
  (s.keys.filter fun key => !reachable.contains key).mergeSort Text.le

end RefSweep.Store
