import Mathlib.Data.List.FinRange
import RefSweep.Namespace
import RefSweep.Proofs.RefName

/-!
# The namespaces of peers

Ownership compares segments. On the texts of names it is a matter of how they begin
(`Peer.owns_iff_isPrefix`), also for a peer whose identifier another one extends or whose name is
`refs` or `namespaces`: identifiers hold no slash, so a name can be cut after the peer in one way
only. Main statement: `owned_exclusive`, a peer owns exactly the names that begin with one of its
two namespaces, every name can be put there, and no two peers own the same.
-/

namespace RefSweep

/-! ## Identifiers -/

/-- A text that is accepted as an identifier is kept letter for letter, so writing the identifier
down again gives the text it was read from. -/
theorem Identifier.text_parse {t : Text} {id : Identifier} (h : Identifier.parse t = .ok id) :
    id.text = t := by
  unfold Identifier.parse at h
  split at h
  · cases h
  · rw [← Except.ok.inj h]

/-- The same for a repository's identifier, which is checked the way any identifier is and differs
in the words of its refusal only. -/
theorem text_parseRepository {t : Text} {id : Identifier} (h : parseRepository t = .ok id) :
    id.text = t := by
  unfold parseRepository at h
  split at h
  next heq =>
    rw [← Except.ok.inj h]
    exact Identifier.text_parse heq
  · cases h

/-- The same for a peer: what the reader typed is what the prefixes of the peer's references are
built from. -/
theorem text_parsePeer {t : Text} {owner : Peer} (h : Peer.parse t = .ok owner) :
    owner.id.text = t := by
  unfold Peer.parse at h
  split at h
  next heq =>
    rw [← Except.ok.inj h]
    exact Identifier.text_parse heq
  · cases h

/-- An identifier is a segment. -/
theorem Identifier.isSegment (id : Identifier) :
    .char '/' ∉ id.text ∧ Segment.fault? id.text = none := by
  have haccepted := id.accepted
  unfold Identifier.fault? at haccepted
  split at haccepted
  · cases haccepted
  · split at haccepted
    · cases haccepted
    next hslash =>
      refine ⟨fun hmem => hslash (List.contains_iff_mem.2 hmem), ?_⟩
      exact Option.map_eq_none_iff.1 haccepted

/-! ## Names that begin with given segments -/

namespace RefName

/-- A name that is longer than the given first segments and begins with them has as its text these
segments, joined by slashes, then a slash and whatever follows. -/
theorem isPrefix_text {name : RefName} {lead : List Text}
    (hsize : lead.length < name.size) (hstarts : name.startsWith lead) (hlead : lead ≠ []) :
    Text.joined ['/'] lead ++ Text.of "/" <+: name.text := by
  obtain ⟨rest, hrest⟩ := List.isPrefixOf_iff_prefix.1 hstarts
  have hne : rest ≠ [] := by
    rintro rfl
    rw [RefName.size, ← hrest, List.append_nil] at hsize
    exact absurd hsize (Nat.lt_irrefl _)
  rw [RefName.text, ← hrest, Text.joined_append _ hlead hne]
  exact List.prefix_append ..

/-- The segments of a name that was read are the lead and at least one more if its text begins with
the lead and a slash: the slash after the lead is where the text is cut. -/
theorem startsWith_of_isPrefix {s : Text} {name : RefName} {lead : List Text}
    (hparse : parse s = .ok name) (hlead : lead ≠ []) (hseparate : ∀ t ∈ lead, .char '/' ∉ t)
    (h : Text.joined ['/'] lead ++ Text.of "/" <+: s) :
    lead.length < name.size ∧ name.startsWith lead := by
  obtain ⟨rest, rfl⟩ := h
  obtain ⟨-, rfl⟩ := parse_eq_ok_iff.1 hparse
  -- no segment of the lead holds a slash, so cutting the text gives the lead back
  have hcut : Text.split '/' (Text.joined ['/'] lead ++ Text.of "/" ++ rest) =
      lead ++ Text.split '/' rest := by
    have hassoc : Text.joined ['/'] lead ++ Text.of "/" ++ rest =
        Text.joined ['/'] lead ++ Glyph.char '/' :: rest := List.append_assoc ..
    rw [hassoc, Text.split_append, Text.split_joined hlead hseparate]
  have hmore := List.length_pos_iff.2 (Text.split_ne_nil '/' rest)
  simp only [size, startsWith, hcut, List.isPrefixOf_iff_prefix, List.length_append]
  exact ⟨by omega, List.prefix_append ..⟩

/-- Segments put before a name make a name, if each of them is one that names may have. -/
theorem parse_below {t : Text} {name : RefName} {lead : List Text} (hparse : parse t = .ok name)
    (hlead : lead ≠ []) (hsegments : ∀ s ∈ lead, .char '/' ∉ s ∧ Segment.fault? s = none) :
    parse (Text.joined ['/'] lead ++ Text.of "/" ++ t) = .ok ⟨lead ++ name.segments⟩ := by
  obtain rfl := text_parse hparse
  obtain ⟨hne, hseparate, haccepted, hdot⟩ := parse_text_iff.1 hparse
  have htext : Text.joined ['/'] lead ++ Text.of "/" ++ name.text =
      (⟨lead ++ name.segments⟩ : RefName).text := (Text.joined_append _ hlead hne).symm
  rw [htext]
  refine parse_text_iff.2 ⟨by simp [hne], fun s hs => ?_, fun s hs => ?_, ?_⟩
  · exact (List.mem_append.1 hs).elim (fun h => (hsegments s h).1) (hseparate s)
  · exact (List.mem_append.1 hs).elim (fun h => (hsegments s h).2) (haccepted s)
  · -- what stands at the end is what stood there before
    rwa [List.getLast?_append_of_ne_nil _ hne]

end RefName

/-! ## Owned names -/

namespace Peer

variable (owner other : Peer) {name : RefName}

/-- The two ways in which the texts of the peer's names begin. -/
def prefixes : List Text :=
  ["namespaces/" ++ owner.id.text ++ "/", "refs/namespaces/" ++ owner.id.text ++ "/"]

/-- The prefixes a peer owns are its lists of leading segments, each joined and closed by a slash.
-/
theorem prefixes_eq : owner.prefixes = owner.leads.map (Text.joined ['/'] · ++ Text.of "/") := rfl

/-- Neither of the two places where a peer keeps its references is the root: each has at least one
leading segment. -/
theorem leads_ne_nil {lead : List Text} (h : lead ∈ owner.leads) : lead ≠ [] := by
  rintro rfl
  simp [leads] at h

/-- What leads to the peer's names consists of segments. -/
theorem leads_segments {lead : List Text} (h : lead ∈ owner.leads) :
    ∀ s ∈ lead, .char '/' ∉ s ∧ Segment.fault? s = none := by
  have hnamespaces : .char '/' ∉ Text.of "namespaces" ∧
      Segment.fault? (Text.of "namespaces") = none := by decide
  have hrefs : .char '/' ∉ Text.of "refs" ∧ Segment.fault? (Text.of "refs") = none := by decide
  have hid := owner.id.isSegment
  simp only [leads, List.mem_cons, List.not_mem_nil, or_false] at h
  rcases h with rfl | rfl <;> simp [hnamespaces, hrefs, hid]

/-- A peer owns a name just when the name lies strictly below one of the peer's two places; a name
that is itself such a place is not owned. -/
theorem owns_iff :
    owner.owns name ↔ ∃ lead ∈ owner.leads, lead.length < name.size ∧ name.startsWith lead := by
  simp [owns]

/-- An owned name is written with the peer's namespace in front. -/
theorem isPrefix_text_of_owns {owner : Peer} (h : owner.owns name) :
    Text.of "namespaces/" ++ owner.id.text ++ Text.of "/" <+: name.text ∨
      Text.of "refs/namespaces/" ++ owner.id.text ++ Text.of "/" <+: name.text := by
  obtain ⟨lead, hlead, hsize, hstarts⟩ := owner.owns_iff.1 h
  rcases List.mem_cons.1 hlead with rfl | hlead
  · exact .inl (RefName.isPrefix_text hsize hstarts nofun)
  · obtain rfl := List.mem_singleton.1 hlead
    exact .inr (RefName.isPrefix_text hsize hstarts nofun)

/-- On the texts: a peer owns a parsed name just when one of its two prefixes, slash included,
begins the text the name was parsed from. -/
theorem owns_iff_isPrefix {s : Text} (hparse : RefName.parse s = .ok name) :
    owner.owns name ↔ ∃ lead ∈ owner.prefixes, lead <+: s := by
  rw [owns_iff, prefixes_eq]
  simp only [List.mem_map]
  constructor
  · rintro ⟨lead, hlead, hsize, hstarts⟩
    refine ⟨_, ⟨lead, hlead, rfl⟩, ?_⟩
    rw [← RefName.text_parse hparse]
    exact RefName.isPrefix_text hsize hstarts (owner.leads_ne_nil hlead)
  · rintro ⟨_, ⟨lead, hlead, rfl⟩, h⟩
    exact ⟨lead, hlead, RefName.startsWith_of_isPrefix hparse (owner.leads_ne_nil hlead)
      (fun t ht => (owner.leads_segments hlead t ht).1) h⟩

/-- Every name can be put into each namespace of the peer. -/
theorem owns_below {t lead : Text} (hparse : RefName.parse t = .ok name)
    (hlead : lead ∈ owner.prefixes) :
    ∃ below, RefName.parse (lead ++ t) = .ok below ∧ owner.owns below := by
  obtain ⟨segments, hsegments, rfl⟩ := List.mem_map.1 (owner.prefixes_eq ▸ hlead)
  have hbelow := RefName.parse_below hparse (owner.leads_ne_nil hsegments)
    (owner.leads_segments hsegments)
  exact ⟨_, hbelow, (owner.owns_iff_isPrefix hbelow).2 ⟨_, hlead, List.prefix_append ..⟩⟩

variable {owner other}

/-- The peer stands at its place in the names it owns, so two peers that own one name are the same.
-/
theorem eq_of_owns (howner : owner.owns name) (hother : other.owns name) :
    owner.id.text = other.id.text := by
  obtain ⟨lead, hlead, -, hstarts⟩ := owner.owns_iff.1 howner
  obtain ⟨lead', hlead', -, hstarts'⟩ := other.owns_iff.1 hother
  obtain ⟨rest, hrest⟩ := List.isPrefixOf_iff_prefix.1 hstarts
  obtain ⟨rest', hrest'⟩ := List.isPrefixOf_iff_prefix.1 hstarts'
  have hsame := hrest.trans hrest'.symm
  have hwords : Text.of "namespaces" ≠ Text.of "refs" := by decide
  simp only [leads, List.mem_cons, List.not_mem_nil, or_false] at hlead hlead'
  -- the first segment tells which of the two ways it is
  rcases hlead with rfl | rfl <;> rcases hlead' with rfl | rfl <;>
    simp only [List.cons_append, List.nil_append, List.cons.injEq] at hsame
  · exact hsame.2.1
  · exact absurd hsame.1 hwords
  · exact absurd hsame.1.symm hwords
  · exact hsame.2.2.1

/-! ## The places of owned references in a list -/

/-- The places in the list at which the peer's references stand. -/
def places (owner : Peer) (refs : List Reference) : List (Fin refs.length) :=
  (List.finRange refs.length).filter fun i => owner.owns refs[i].name

/-- A position is among the places of a peer just when the reference found there is one the peer
owns. -/
theorem mem_places {refs : List Reference} {i : Fin refs.length} :
    i ∈ owner.places refs ↔ owner.owns refs[i].name := by
  simp [places]

/-- The places of a peer are listed from the front of the list to its end, each one once. -/
theorem places_pairwise (owner : Peer) (refs : List Reference) :
    (owner.places refs).Pairwise (· < ·) :=
  (List.pairwise_lt_finRange refs.length).sublist List.filter_sublist

/-- The references a peer owns are those found at its places, in the order of the places: a part of
the list, kept in order. -/
theorem owned_eq_map_places (owner : Peer) (refs : List Reference) :
    owner.owned refs = (owner.places refs).map refs.get := by
  have hall : (List.finRange refs.length).map refs.get = refs := List.map_get_finRange refs
  calc owner.owned refs
      = owner.owned ((List.finRange refs.length).map refs.get) := by rw [hall]
    _ = (owner.places refs).map refs.get := List.filter_map ..

end Peer

/-- For peers that are accepted: a peer owns a name exactly if its text begins with one of the
peer's two namespaces; there is a name in each of them for every name; and different peers have no
name in common, so that selecting from a list gives them references at different places, each in the
order of the list. -/
theorem owned_exclusive {p q : Text} {owner other : Peer} (hp : Peer.parse p = .ok owner)
    (hq : Peer.parse q = .ok other) :
    (∀ s name, RefName.parse s = .ok name →
      (owner.owns name ↔ Text.of "namespaces/" ++ p ++ Text.of "/" <+: s ∨
        Text.of "refs/namespaces/" ++ p ++ Text.of "/" <+: s)) ∧
    (∀ t name, RefName.parse t = .ok name →
      ∀ lead ∈ [Text.of "namespaces/" ++ p ++ Text.of "/",
        Text.of "refs/namespaces/" ++ p ++ Text.of "/"],
      ∃ below, RefName.parse (lead ++ t) = .ok below ∧ owner.owns below) ∧
    (p ≠ q → ∀ name, ¬ (owner.owns name ∧ other.owns name)) ∧
    (∀ refs, owner.owned refs = (owner.places refs).map refs.get ∧
      (owner.places refs).Pairwise (· < ·) ∧
      (p ≠ q → (owner.places refs).Disjoint (other.places refs))) := by
  obtain rfl := text_parsePeer hp
  obtain rfl := text_parsePeer hq
  -- two peers that own one name have the same segment in it, and so the same text
  have hexclusive : owner.id.text ≠ other.id.text →
      ∀ name, ¬ (owner.owns name ∧ other.owns name) :=
    fun hne name ⟨howner, hother⟩ => hne (Peer.eq_of_owns howner hother)
  refine ⟨fun s name hparse => ?_, fun t name hparse lead hlead => owner.owns_below hparse hlead,
    hexclusive, fun refs => ⟨owner.owned_eq_map_places refs, owner.places_pairwise refs,
      fun hne => ?_⟩⟩
  · rw [owner.owns_iff_isPrefix hparse]
    simp only [Peer.prefixes, List.mem_cons, List.not_mem_nil, or_false, exists_eq_or_imp,
      exists_eq_left]
  · intro i howner hother
    exact hexclusive hne _ ⟨Peer.mem_places.1 howner, Peer.mem_places.1 hother⟩

/-- One peer is called `namespaces`, and the other one extends its name. -/
theorem owned_exclusive_extended :
    let refs : List Reference := [⟨⟨["namespaces", "namespaces", "x"]⟩, "a"⟩,
      ⟨⟨["refs", "namespaces", "namespaces-2", "x"]⟩, "b"⟩,
      ⟨⟨["refs", "namespaces", "namespaces"]⟩, "c"⟩]
    let owner : Peer := ⟨⟨"namespaces", by decide⟩⟩
    let other : Peer := ⟨⟨"namespaces-2", by decide⟩⟩
    (owner.places refs).Disjoint (other.places refs) ∧
      owner.places refs = [0] ∧ other.places refs = [1] := by
  intro refs owner other
  have howner : Peer.parse "namespaces" = .ok owner := rfl
  have hother : Peer.parse "namespaces-2" = .ok other := rfl
  obtain ⟨-, -, -, hplaces⟩ := owned_exclusive howner hother
  -- the texts of the two peers are different although one begins the other
  obtain ⟨-, -, hdisjoint⟩ := hplaces refs
  exact ⟨hdisjoint (by decide), by decide, by decide⟩

end RefSweep
