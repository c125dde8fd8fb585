import RefSweep.Proofs.Account
import RefSweep.Scripted

/-!
# Scripted storages keep a list of references

A scripted storage whose plans hold nothing but errors of the library does what `Keeps` asks for.
-/

namespace RefSweep

/-- All planned failures are errors of the library. -/
structure Schedule.OfLibrary (s : Schedule) : Prop where
  queued : ∀ f ∈ s.queue, ∃ e, f = .error e
  always : ∀ f, s.always = some f → ∃ e, f = .error e

/-- A schedule of library errors gives such an error next, or none, and goes on as such a schedule.
-/
theorem Schedule.OfLibrary.next {s : Schedule} (h : s.OfLibrary) :
    (∀ f, s.next.1 = some f → ∃ e, f = .error e) ∧ s.next.2.OfLibrary := by
  obtain ⟨queue, always⟩ := s
  cases queue with
  | nil => exact ⟨h.always, h⟩
  | cons first rest =>
    refine ⟨fun f hf => h.queued f ?_, fun f hf => h.queued f (.tail _ hf), h.always⟩
    rw [← Option.some.inj hf]
    exact .head _

namespace Scripted

/-- So do the schedules of many names, of which the one asked for moves on. -/
theorem useSchedule_ofLibrary (name : Text) {plans : List (Text × Schedule)}
    (h : ∀ plan ∈ plans, plan.2.OfLibrary) :
    (∀ f, (useSchedule name plans).1 = some f → ∃ e, f = .error e) ∧
      ∀ plan ∈ (useSchedule name plans).2, plan.2.OfLibrary := by
  induction plans with
  | nil => exact ⟨fun f hf => absurd hf nofun, h⟩
  | cons plan rest ih =>
    obtain ⟨n, s⟩ := plan
    have hfirst := (h _ (.head _)).next
    have hrest := ih fun plan hplan => h plan (.tail _ hplan)
    rw [useSchedule]
    -- the plan of this name moves on by one entry, and the others stay
    by_cases hn : n = name
    · rw [if_pos hn]
      refine ⟨hfirst.1, fun plan hplan => ?_⟩
      rcases List.mem_cons.1 hplan with rfl | hplan
      · exact hfirst.2
      · exact h plan (.tail _ hplan)
    · rw [if_neg hn]
      refine ⟨hrest.1, fun plan hplan => ?_⟩
      rcases List.mem_cons.1 hplan with rfl | hplan
      · exact h _ (.head _)
      · exact hrest.2 plan hplan

/-- The storage holds these references, whose names can be read, and plans nothing but errors of the
library. -/
structure Holds (s : Scripted) (refs : List Reference) : Prop where
  references : s.references = refs
  names : ∀ r ∈ refs, RefName.parse r.name.text = .ok r.name
  deletions : ∀ plan ∈ s.deletions, plan.2.OfLibrary
  compactions : s.compactions.OfLibrary

/-- In a list of parsed names the entry that is dropped by its text is the first of this name. -/
theorem withoutFirst?_eq {name : RefName} {refs : List Reference}
    (hnames : ∀ r ∈ refs, RefName.parse r.name.text = .ok r.name)
    (hname : name ∈ refs.map (·.name)) :
    withoutFirst? name refs = some (withoutFirst name refs) := by
  obtain ⟨held, hheld, rfl⟩ := List.mem_map.1 hname
  -- names that were parsed are equal exactly if their texts are
  have hsame : ∀ r ∈ refs, decide (r.name.text = held.name.text) = (r.name == held.name) := by
    intro r hr
    rw [Bool.eq_iff_iff, decide_eq_true_iff, beq_iff_eq]
    exact ⟨RefName.eq_of_text_eq (hnames r hr) (hnames held hheld), congrArg _⟩
  have herase : refs.eraseP (fun r => r.name.text = held.name.text) =
      withoutFirst held.name refs := by
    clear hname hheld hnames
    induction refs with
    | nil => rfl
    | cons r rest ih =>
      rw [withoutFirst, List.eraseP_cons, List.eraseP_cons, hsame r (.head _),
        ih fun r hr => hsame r (.tail _ hr)]
      rfl
  unfold withoutFirst?
  rw [if_pos (List.any_eq_true.2 ⟨held, hheld, by simp⟩)]
  exact congrArg some herase

/-- Scripted storage keeps its list, whatever errors of the library are planned: a planned error
leaves the list alone, and a deletion that is let through drops the first entry. -/
theorem storage_keeps : Keeps storage () Holds where
  lists := by
    intro s refs h hnone
    have hwhole : s.listing.references = s.references := by
      change s.listing.failure = none at hnone
      unfold listing at hnone ⊢
      split
      · rfl
      next heq => rw [heq] at hnone; cases hnone
    exact ⟨hwhole.trans h.references, h⟩
  -- whether the script plans an error or not, an error of the library leaves the list as it was
  deletes := by
    intro s refs name h hname
    obtain ⟨hplanned, hplans⟩ := useSchedule_ofLibrary name.text h.deletions
    show Attempted (Holds (s.delete name).state _) (Holds (s.delete name).state _)
      (endingOf (s.delete name).result)
    unfold delete
    dsimp only
    split
    next f heq => exact ⟨⟨h.references, h.names, hplans, h.compactions⟩, hplanned f heq⟩
    · rw [h.references, withoutFirst?_eq h.names hname]
      exact ⟨rfl, fun r hr => h.names r (List.mem_of_mem_eraseP hr), hplans, h.compactions⟩
  compacts := by
    intro s refs h
    obtain ⟨hplanned, hplan⟩ := h.compactions.next
    show Attempted (Holds s.compact.state _) (Holds s.compact.state _) (endingOf s.compact.result)
    unfold compact
    dsimp only
    split
    next f heq => exact ⟨⟨h.references, h.names, h.deletions, hplan⟩, hplanned f heq⟩
    · exact ⟨h.references, h.names, h.deletions, hplan⟩
  closes h := ⟨rfl, h⟩

end Scripted

end RefSweep
