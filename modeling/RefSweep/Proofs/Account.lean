import RefSweep.Proofs.Protocol

/-!
# The account of a run

A storage that keeps a list of references (`Keeps`) and fails only with errors of the library is
left with a list that the outcomes account for: what was reported as deleted is gone, entry by
entry, and nothing else is. Main statement: `Keeps.pruneNamespace`. The invariant of the deletions
is that the names still to come are a sublist of the names still held, so that every attempt finds
its reference.
-/

namespace RefSweep

variable {σ η : Type}

/-! ## Lists of references -/

/-- The references without the first one of this name. -/
def withoutFirst (name : RefName) (refs : List Reference) : List Reference :=
  refs.eraseP (·.name == name)

/-- The references without the first remaining one for each of these names in turn. -/
def withoutEach (names : List RefName) (refs : List Reference) : List Reference :=
  names.foldl (fun refs name => withoutFirst name refs) refs

@[simp] theorem withoutEach_nil (refs : List Reference) : withoutEach [] refs = refs := rfl

@[simp] theorem withoutEach_cons (name : RefName) (names : List RefName) (refs : List Reference) :
    withoutEach (name :: names) refs = withoutEach names (withoutFirst name refs) := rfl

/-- Dropping the first entry of a name erases that name once from the list of names. -/
theorem map_name_withoutFirst (name : RefName) (refs : List Reference) :
    (withoutFirst name refs).map (·.name) = (refs.map (·.name)).erase name := by
  rw [List.erase_eq_eraseP', List.eraseP_map]
  rfl

/-- Dropping names takes each of them from the list as often as it is dropped, as far as it is
there. -/
theorem count_withoutEach (names : List RefName) (refs : List Reference) (name : RefName) :
    ((withoutEach names refs).map (·.name)).count name =
      (refs.map (·.name)).count name - names.count name := by
  induction names generalizing refs with
  | nil => rfl
  | cons first rest ih =>
    rw [withoutEach_cons, ih, map_name_withoutFirst, List.count_erase, List.count_cons]
    omega

/-- The names of the owned references are the owned names, in the same order. -/
theorem map_name_owned (owner : Peer) (refs : List Reference) :
    (owner.owned refs).map (·.name) = (refs.map (·.name)).filter owner.owns := by
  rw [List.filter_map]
  rfl

/-- Taking away a reference for each owned one leaves no owned one, however often a name occurs. -/
theorem not_owns_withoutEach_owned (owner : Peer) (refs : List Reference) :
    ∀ r ∈ withoutEach ((owner.owned refs).map (·.name)) refs, owner.owns r.name = false := by
  intro r hr
  cases howns : owner.owns r.name with
  | false => rfl
  | true =>
    have hcount := count_withoutEach ((owner.owned refs).map (·.name)) refs r.name
    have hpos := List.count_pos_iff.2 (List.mem_map_of_mem (f := (·.name)) hr)
    rw [map_name_owned] at hcount hpos
    -- an owned name is taken away as often as it occurs
    rw [List.count_filter howns] at hcount
    omega

/-! ## Storages that keep a list -/

/-- What an attempt leads to that ended so: it is done, or failed with an error of the library. -/
def Attempted (done failed : Prop) : Option Failure → Prop
  | none => done
  | some f => failed ∧ ∃ e, f = .error e

/-- Under an open repository the storage keeps a list of references: `holds s refs` says that it
does in state `s`. Deleting takes away the first reference of a name, and what fails changes nothing
and fails with an error of the library. -/
structure Keeps (storage : Storage σ η) (handle : η) (holds : σ → List Reference → Prop) :
    Prop where
  lists : ∀ {s refs}, holds s refs → (storage.references handle s).1.failure = none →
    (storage.references handle s).1.references = refs ∧ holds (storage.references handle s).2 refs
  deletes : ∀ {s refs name}, holds s refs → name ∈ refs.map (·.name) →
    Attempted (holds (storage.deleteReference handle name s).state (withoutFirst name refs))
      (holds (storage.deleteReference handle name s).state refs)
      (endingOf (storage.deleteReference handle name s).result)
  compacts : ∀ {s refs}, holds s refs →
    Attempted (holds (storage.compact handle s).state refs)
      (holds (storage.compact handle s).state refs) (endingOf (storage.compact handle s).result)
  closes : ∀ {s refs}, holds s refs →
    (storage.close handle s).result = .ok () ∧ holds (storage.close handle s).state refs

/-- What every attempt leads to, the round leads to: `P` goes on as long as attempts fail, and `Q`
follows once one does not. -/
theorem Exchanged.round_attempted {storage : Storage σ η} {handle : η} {P Q : σ → Prop} {c : Call}
    (hattempt : ∀ {s t ending}, P s → Answers storage handle s ⟨c, ending⟩ t →
      Attempted (Q t) (P t) ending)
    {limit : Nat} {endings : List (Option Failure)} {last : Option Failure} {s t : σ}
    (hpers : Persistent limit endings) (hlast : endings.getLast? = some last)
    (hex : Exchanged storage handle s (round c endings) t) (hs : P s) :
    Attempted (Q t) (P t) last := by
  have hlocks : ∀ i, (h : i + 1 < endings.length) → metLock endings[i] = true :=
    fun i h => hpers.metLock_of_lt h
  clear hpers
  induction endings generalizing s with
  | nil => cases hlast
  | cons ending rest ih =>
    cases hex with
    | cons first others =>
      have hfirst := hattempt hs first
      cases rest with
      | nil =>
        obtain rfl : ending = last := Option.some.inj hlast
        cases others
        exact hfirst
      | cons next rest =>
        -- there is a next attempt, so this one met a lock and has changed nothing
        have hlock : metLock ending = true := hlocks 0 (by simp)
        cases ending with
        | none => cases hlock
        | some f =>
          refine ih ?_ others hfirst.1 fun i hi => ?_
          · rw [← hlast, List.getLast?_cons_cons]
          · exact hlocks (i + 1) (by simpa using hi)

/-- The names of the outcomes that report a deletion. -/
def deletedNames (outcomes : List DeletionOutcome) : List RefName :=
  (outcomes.filter (·.deleted)).map (·.name)

namespace Keeps

variable {storage : Storage σ η} {handle : η} {holds : σ → List Reference → Prop}
  {observer : Option Observer} {limit : Nat} {s t : σ} {refs : List Reference}

/-- After a persistent round of deletions the list lacks the first entry of the name if the last one
succeeded, and is the old one if it was turned down. -/
theorem round_deleted (h : Keeps storage handle holds) {name : RefName}
    {endings : List (Option Failure)} {last : Option Failure} (hpers : Persistent limit endings)
    (hlast : endings.getLast? = some last)
    (hex : Exchanged storage handle s (round (.deleted name) endings) t) (hs : holds s refs)
    (hname : name ∈ refs.map (·.name)) :
    Attempted (holds t (withoutFirst name refs)) (holds t refs) last := by
  refine Exchanged.round_attempted (P := (holds · refs)) (Q := (holds · (withoutFirst name refs)))
    (fun hs hanswer => ?_) hpers hlast hex hs
  cases hanswer
  exact h.deletes hs hname

/-- After a persistent round of compactions the list is the old one, whatever the last one ended in.
-/
theorem round_compacted (h : Keeps storage handle holds) {endings : List (Option Failure)}
    {last : Option Failure} (hpers : Persistent limit endings)
    (hlast : endings.getLast? = some last)
    (hex : Exchanged storage handle s (round .compacted endings) t) (hs : holds s refs) :
    Attempted (holds t refs) (holds t refs) last := by
  refine Exchanged.round_attempted (P := (holds · refs)) (Q := (holds · refs))
    (fun hs hanswer => ?_) hpers hlast hex hs
  cases hanswer
  exact h.compacts hs

/-- Deletions that keep to the grammar end with an outcome for each reference, and the list is left
without one entry for each outcome that reports a deletion. -/
theorem deletions (h : Keeps storage handle holds)
    (hquiet : ∀ seen, complaint? observer seen = none) {seen : List DeletionOutcome}
    {pending : List Reference} {exchanges : List Exchange}
    {result : Except Failure (List DeletionOutcome)}
    (hdel : Deletions limit observer seen pending exchanges result)
    (hex : Exchanged storage handle s exchanges t) (hs : holds s refs)
    (hpending : (pending.map (·.name)).Sublist (refs.map (·.name))) :
    ∃ outcomes, result = .ok (seen ++ outcomes) ∧
      outcomes.map (·.name) = pending.map (·.name) ∧
      holds t (withoutEach (deletedNames outcomes) refs) := by
  induction hdel generalizing s refs with
  | finished seen =>
    cases hex
    exact ⟨[], by simp, rfl, hs⟩
  | refused _ _ _ hcomplained => rw [hquiet] at hcomplained; cases hcomplained
  | @escaped seen reference rest endings last f hpers hlast hunrecorded =>
    have hname : reference.name ∈ refs.map (·.name) := hpending.subset (by simp)
    have hlast := h.round_deleted hpers hlast hex hs hname
    cases last with
    | none => cases hunrecorded
    | some f =>
      -- errors of the library are recorded
      obtain ⟨-, e, rfl⟩ := hlast
      cases hunrecorded
  | @next seen reference rest endings last outcome exchanges result hpers hlast hrecorded _ _ ih =>
    have hname : reference.name ∈ refs.map (·.name) := hpending.subset (by simp)
    obtain ⟨u, hround, hothers⟩ := hex.split
    have hlast := h.round_deleted hpers hlast hround hs hname
    cases last with
    | none =>
      -- the first entry of this name is gone, and the names to come are still among the others
      obtain rfl := Except.ok.inj hrecorded
      have hrest := hpending.erase reference.name
      rw [List.map_cons, List.erase_cons_head, ← map_name_withoutFirst] at hrest
      obtain ⟨outcomes, hresult, hnames, hleft⟩ := ih hothers hlast hrest
      exact ⟨.success reference.name :: outcomes, by simp [hresult],
        by simp [hnames, DeletionOutcome.success], hleft⟩
    | some f =>
      -- nothing has changed, and the entry stays behind
      obtain ⟨hkept, e, rfl⟩ := hlast
      obtain rfl := Except.ok.inj hrecorded
      obtain ⟨outcomes, hresult, hnames, hleft⟩ :=
        ih hothers hkept ((List.sublist_cons_self _ _).trans hpending)
      exact ⟨.failure reference.name e :: outcomes, by simp [hresult],
        by simp [hnames, DeletionOutcome.failure], hleft⟩

end Keeps

/-! ## The account -/

/-- What a result says about the list of references before and after the run. -/
structure Account (owner : Peer) (before after : List Reference) (result : PruneResult) : Prop where
  /-- The owned references got an outcome each, in store order. -/
  outcomes : result.outcomes.map (·.name) = (owner.owned before).map (·.name)
  /-- Each outcome that reports a deletion stands for one entry that is gone. -/
  left : after = withoutEach result.deleted before
  /-- If all went well, no owned reference is left. -/
  cleared : result.ok = true → ∀ r ∈ after, owner.owns r.name = false

/-- A result without a failure reports only deletions. -/
theorem PruneResult.deleted_of_ok {result : PruneResult} (hok : result.ok = true) :
    result.deleted = result.outcomes.map (·.name) := by
  have hfailed : result.outcomes.filter (!·.deleted) = [] := by
    have hempty := (Bool.and_eq_true_iff.1 hok).1
    exact List.isEmpty_iff.1 hempty
  rw [PruneResult.deleted]
  refine congrArg _ (List.filter_eq_self.2 fun o ho => ?_)
  simpa using List.filter_eq_nil_iff.1 hfailed o ho

/-- A result whose outcomes are those of the owned references, in order, accounts for the list it
leaves. -/
theorem account_of_outcomes {owner : Peer} {before : List Reference} {result : PruneResult}
    (houtcomes : result.outcomes.map (·.name) = (owner.owned before).map (·.name)) :
    Account owner before (withoutEach result.deleted before) result where
  outcomes := houtcomes
  left := rfl
  cleared := by
    intro hok
    rw [PruneResult.deleted_of_ok hok, houtcomes]
    exact not_owns_withoutEach_owned owner before

namespace Keeps

variable {storage : Storage σ η} {handle : η} {holds : σ → List Reference → Prop}
  {observer : Option Observer} {s t : σ} {refs : List Reference}

/-- A run on an open repository that lists everything and is not dry gives a result, and the list is
left as the result says. -/
theorem conversation (h : Keeps storage handle holds) {config : Config} {id : Identifier}
    {owner : Peer} (hwet : config.dryRun = false) (hquiet : ∀ seen, complaint? observer seen = none)
    (hs : holds s refs) (hlisted : (storage.references handle s).1.failure = none)
    {exchanges : List Exchange} {result : Except Failure PruneResult}
    (hconv : Conversation config id owner observer (storage.references handle s).1 exchanges result)
    (hex : Exchanged storage handle s exchanges t) :
    ∃ r, result = .ok r ∧ holds t (withoutEach r.deleted refs) ∧
      r.outcomes.map (·.name) = (owner.owned refs).map (·.name) := by
  obtain ⟨hrefs, hafter⟩ := h.lists hs hlisted
  have howned : ((owner.owned refs).map (·.name)).Sublist (refs.map (·.name)) :=
    List.filter_sublist.map _
  cases hconv with
  | unlisted hfailed => rw [hlisted] at hfailed; cases hfailed
  | dry _ hdry => rw [hwet] at hdry; cases hdry
  -- a run that lists everything is not stopped where only errors of the library occur
  | stopped _ _ hdeleting =>
    obtain ⟨v, first, others⟩ := hex.of_cons
    obtain ⟨-, rfl⟩ := first.of_listed
    rw [hrefs] at hdeleting
    obtain ⟨outcomes, hresult, -⟩ := h.deletions hquiet hdeleting others hafter howned
    cases hresult
  -- the deletions drop what they have deleted, and the compaction keeps the rest
  | compacted _ _ hdeleting hpers hlast hrecorded =>
    obtain ⟨v, first, others⟩ := hex.of_cons
    obtain ⟨-, rfl⟩ := first.of_listed
    rw [hrefs] at hdeleting
    obtain ⟨u, hdeleted, hcompacted⟩ := others.split
    obtain ⟨outcomes, hresult, hnames, hleft⟩ :=
      h.deletions hquiet hdeleting hdeleted hafter howned
    obtain rfl := Except.ok.inj hresult
    have hlast := h.round_compacted hpers hlast hcompacted hleft
    cases hrecorded with
    | success stats => exact ⟨_, rfl, hlast, hnames⟩
    | failure e => exact ⟨_, rfl, hlast.1, hnames⟩
    | escaped cause =>
      obtain ⟨-, e, he⟩ := hlast
      cases he

/-- A run on a storage that keeps a list of references gives a result that accounts for the list it
leaves, whatever errors of the library the deletions and compactions meet. -/
theorem pruneNamespace (h : Keeps storage handle holds)
    {pick : Identifier → σ → Answer σ (Storage σ η)} {config : Config} {rid peer : Text}
    {id : Identifier} {owner : Peer} (hrid : parseRepository rid = .ok id)
    (hpeer : Peer.parse peer = .ok owner) (hwet : config.dryRun = false)
    (hquiet : ∀ seen, complaint? observer seen = none) (hpick : (pick id s).result = .ok storage)
    (hopen : (storage.openRepository config.storageRoot id (pick id s).state).result = .ok handle)
    (hs : holds (storage.openRepository config.storageRoot id (pick id s).state).state refs)
    (hlisted : (storage.references handle
      (storage.openRepository config.storageRoot id (pick id s).state).state).1.failure = none) :
    let run := RefSweep.pruneNamespace pick config rid peer observer s
    ∃ result after, run.outcome = .ok result ∧ holds run.after after ∧
      Account owner refs after result := by
  intro run
  obtain ⟨exchanges, closing, result, -, hex, hconv, hout⟩ :=
    pruneNamespace_opened hrid hpeer hpick hopen
  obtain ⟨u, hbody, hlast⟩ := hex.split
  obtain ⟨r, rfl, hleft, houtcomes⟩ := h.conversation hwet hquiet hs hlisted hconv hbody
  obtain ⟨hclosed, hheld⟩ := h.closes hleft
  -- closing comes last, succeeds, and keeps the list
  obtain ⟨rfl, hafter⟩ := hlast.of_single.of_closed
  rw [hclosed] at hout
  rw [← hafter] at hheld
  exact ⟨r, _, hout, hheld, account_of_outcomes houtcomes⟩

end Keeps

end RefSweep
