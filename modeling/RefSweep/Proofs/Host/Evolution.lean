import RefSweep.Proofs.Git.Talk
import RefSweep.Proofs.Host.Database
import RefSweep.Proofs.Protocol
import RefSweep.Proofs.Store.Orderly

/-!
# How the store in a file evolves

Whatever happens on a host, through handles of one store or of others, the store at a place only
goes on from one sound state to a later one. Main statement: `Evolved.prune`, no run undoes this,
whatever it is asked for and however it ends.
-/

namespace RefSweep.Host

variable {α : Type} {h h' t : Host} {handle : Handle} {place : Path} {d : Database}

/-- The handle is one of the store in the file at this place. -/
structure Uses (handle : Handle) (h : Host) (place : Path) : Prop where
  kind : handle.kind = .sqlite
  leads : ∃ address, Address.read (storePath handle.path).text = .ok address ∧
    h.files.LeadsTo place address

/-- An operation on the store at this place sees its database and leaves there what it gives back.
An operation on another one leaves this database alone. -/
theorem onStore_tracked (hstored : h.files.entry? place = some (.database d)) (handle : Handle)
    (session : Session) (operation : Refusals → Session → Database → Step α) :
    let step := operation h.nextRefusals.1 session d
    let done := h.onStore handle session operation
    h.files.Extends done.2.2.files ∧
      (Uses handle h place ∧ done.1 = step.result ∧ done.2.1 = step.session ∧
          FileTree.entry? done.2.2.files place = some (.database step.database) ∨
        ¬ Uses handle h place ∧ FileTree.entry? done.2.2.files place = some (.database d)) := by
  unfold Host.onStore
  -- the handle may be one of git, its address unreadable or elsewhere: the database is not used
  -- then
  cases hkind : handle.kind with
  | git =>
    have hother : ¬ Uses handle h place := fun huses => by cases hkind.symm.trans huses.kind
    exact ⟨.refl _, .inr ⟨hother, hstored⟩⟩
  | sqlite =>
    unfold onFile
    cases hread : Address.read (storePath handle.path).text with
    | error fault =>
      have hother : ¬ Uses handle h place := fun ⟨_, address, haddress, _⟩ => by
        cases hread.symm.trans haddress
      exact ⟨.refl _, .inr ⟨hother, hstored⟩⟩
    | ok address =>
      by_cases hleads : h.files.LeadsTo place address
      · have hheld : h.files.Holds d address := hleads.holds hstored
        have hconnect : h.nextRefusals.2.files.connect address = (.ok d, h.files) := hheld.connect
        have hfile : h.files.hasDirectory place = false := by
          rw [FileTree.hasDirectory, hstored]
        dsimp only
        rw [hconnect]
        refine ⟨hleads.extends_save hfile _, .inl ⟨⟨hkind, address, hread, hleads⟩, rfl, rfl, ?_⟩⟩
        dsimp only
        rw [hleads.saved hfile, if_pos rfl]
      · -- the address leads elsewhere: what is made or saved there leaves this place alone
        have hother : ¬ Uses handle h place := fun ⟨_, address', haddress, hleads'⟩ => by
          obtain rfl := Except.ok.inj (hread.symm.trans haddress)
          exact hleads hleads'
        obtain ⟨hgrown, hkept⟩ := h.files.connect_grows address
        dsimp only
        have hfiles : h.nextRefusals.2.files = h.files := rfl
        rw [hfiles]
        split
        next e files hconnect =>
          rw [hconnect] at hgrown hkept
          exact ⟨hgrown, .inr ⟨hother, hkept place _ hstored⟩⟩
        next d' files hconnect =>
          have hok : (h.files.connect address).1 = .ok d' := by rw [hconnect]
          have hsaved := FileTree.extends_connect_save hok
            (operation h.nextRefusals.1 session d').database
          have hleft := FileTree.save_elsewhere hleads hok
            (operation h.nextRefusals.1 session d').database
          rw [hconnect] at hsaved hleft
          exact ⟨hsaved, .inr ⟨hother, hleft.trans hstored⟩⟩

/-- Initialising a store file leaves the database that was there initialised; where none was, a
blank one. -/
theorem initFile_ok {file : Path} {address : Address}
    (hrun : h.initFile file = (.ok (), h')) (hread : Address.read file.text = .ok address)
    (hleads : h'.files.LeadsTo place address) :
    ∃ d, (h.files.entry? place = some (.database d) ∨ d = .blank) ∧
      h'.files.entry? place = some (.database (d.update d.store.initialised)) := by
  obtain ⟨hgrown, hkept⟩ := h.files.connect_grows address
  have hmade := fun d => FileTree.connect_ok (t := h.files) (a := address) (d := d)
  unfold initFile at hrun
  rw [hread] at hrun
  dsimp only at hrun
  rcases hconnect : h.files.connect address with ⟨result, files⟩
  rw [hconnect] at hrun hgrown hkept hmade
  cases result with
  | error e => cases hrun
  | ok d =>
    obtain rfl | ⟨other, hleads', hfile, hfound⟩ := hmade d rfl
    · cases hleads
    · have hthere := hgrown.leadsTo_iff.2 hleads'
      by_cases hsame : d.update d.store.initialised = d
      · simp only [if_pos hsame, Prod.mk.injEq, true_and] at hrun
        subst hrun
        obtain rfl := hleads.unique hthere
        refine ⟨d, hfound, ?_⟩
        rw [hsame]
        -- a blank database would not be initialised yet
        refine hfound.elim (hkept place _) fun hblank => ?_
        rw [hblank] at hsame
        exact absurd hsame (by decide)
      · simp only [if_neg hsame] at hrun
        cases hlock : d.store.lock? with
        | some e => rw [hlock] at hrun; cases hrun
        | none =>
          rw [hlock] at hrun
          obtain ⟨-, rfl⟩ := Prod.mk.inj hrun
          have hsaved := hthere.extends_save hfile (d.update d.store.initialised)
          obtain rfl := (hsaved.leadsTo_iff.1 hleads).unique hthere
          refine ⟨d, hfound, ?_⟩
          rw [hthere.saved hfile, if_pos rfl]

/-- A store is created by making the directory and then initialising the file in it. -/
theorem initStore_ok {repository file : Path} (hinit : h.initStore repository = (.ok file, h')) :
    file = storePath repository ∧ ∃ files, h.files.makeDirectory repository = (.ok (), files) ∧
      ({ h with files } : Host).initFile (storePath repository) = (.ok (), h') := by
  unfold initStore at hinit
  rcases hmade : h.files.makeDirectory repository with ⟨made, files⟩
  rw [hmade] at hinit
  cases made with
  | error e => cases hinit
  | ok _ =>
    dsimp only at hinit
    rcases hrun : ({ h with files } : Host).initFile (storePath repository) with ⟨result, after⟩
    rw [hrun] at hinit
    cases result with
    | error e => cases hinit
    | ok _ =>
      -- both steps went through, so the answer is the path of the file
      obtain ⟨hpath, rfl⟩ := Prod.mk.inj hinit
      exact ⟨(Except.ok.inj hpath).symm, files, rfl, hrun⟩

/-- Answers of git change no file of the host, so a store in one is safe from runs that use the
other kind of storage. -/
theorem files_of_gitAnswers {expiry : Option Text} {e : Exchange}
    (hanswer : Answers (gitStorage expiry) handle h e t) : t.files = h.files := by
  cases hanswer with
  | listed =>
    obtain ⟨htalk, -⟩ | ⟨_, htalk, _⟩ := h.gitReferences_talk handle
    · exact htalk.files
    · exact htalk.files
  | deleted name =>
    obtain ⟨_, htalk, _⟩ := h.gitDelete_talk handle name
    exact htalk.files
  | compacted =>
    obtain ⟨_, htalk, _⟩ := h.gitCompact_talk expiry handle
    exact htalk.files
  | closed => rfl

/-- Since `h`, where the database `d` stood at this place, the store there has only gone on from one
sound state to a later one. -/
structure Evolved (place : Path) (h : Host) (d : Database) (h' : Host) : Prop where
  files : h.files.Extends h'.files
  store : ∃ d', h'.files.entry? place = some (.database d') ∧ d'.store.Sound ∧ d.Precedes d'

namespace Evolved

theorem of_files {h'' : Host} (he : Evolved place h d h') (hfiles : h''.files = h'.files) :
    Evolved place h d h'' := ⟨hfiles ▸ he.files, hfiles ▸ he.store⟩

theorem refl (hstored : h.files.entry? place = some (.database d)) (hsound : d.store.Sound) :
    Evolved place h d h := ⟨.refl _, d, hstored, hsound, .refl d⟩

/-- Connecting to any address, a new file included, is an evolution: no file that was there is
changed by it. -/
theorem connect {h'' : Host} (he : Evolved place h d h') {address : Address}
    (hfiles : h''.files = (h'.files.connect address).2) : Evolved place h d h'' := by
  obtain ⟨hgrown, hkept⟩ := h'.files.connect_grows address
  obtain ⟨d', hstored, hd'⟩ := he.store
  refine ⟨?_, d', ?_, hd'⟩
  · rw [hfiles]
    exact he.files.trans hgrown
  · rw [hfiles]
    exact hkept place _ hstored

/-- An operation that begins with a fresh session, on whichever store. -/
theorem onStore (he : Evolved place h d h') (handle : Handle)
    (operation : Refusals → Session → Database → Step α)
    (hproper : ∀ refusals d', Session.fresh.Orderly d' →
      (operation refusals .fresh d').Proper .fresh d') :
    Evolved place h d (h'.onStore handle .fresh operation).2.2 := by
  obtain ⟨d', hstored, hsound, hprecedes⟩ := he.store
  obtain ⟨hgrown, ⟨-, -, -, hleft⟩ | ⟨-, hleft⟩⟩ :=
    onStore_tracked hstored handle .fresh operation
  · have hstep := hproper h'.nextRefusals.1 d' (Session.orderly_of_idle hsound rfl)
    exact ⟨he.files.trans hgrown, _, hleft, hstep.orderly.store, hprecedes.trans hstep.precedes⟩
  · exact ⟨he.files.trans hgrown, d', hleft, hsound, hprecedes⟩

/-! ## Storages -/

/-- Opening any store is an evolution as well: it checks at most, and checking can only make a blank
database where nothing was. -/
theorem openStore (he : Evolved place h d h') (root : Path) (id : Identifier) :
    Evolved place h d (Host.openStore root id h').state := by
  unfold Host.openStore checkStore
  split
  · exact he
  · dsimp only
    split
    · exact he
    · exact he
    · cases Address.read (storePath _).text with
      | error fault => exact he
      | ok address =>
        dsimp only
        rcases hconnect : h'.files.connect address with ⟨result, files⟩
        have hfiles : Evolved place h d { h' with files } :=
          he.connect (congrArg Prod.snd hconnect).symm
        cases result with
        | error e => exact hfiles
        | ok found =>
          dsimp only
          -- whatever the check says, it has only read
          cases found.store.checkSchema <;> exact hfiles

/-- And so is listing the references through any handle. -/
theorem storedReferences (he : Evolved place h d h') (handle : Handle) :
    Evolved place h d (h'.storedReferences handle .fresh).2.2 := by
  have hdone := he.onStore handle (fun refusals session d =>
    .ok (session.listing refusals d).2 d (session.listing refusals d).1)
    fun refusals d' hd' => Session.proper_listing hd' refusals
  unfold Host.storedReferences
  dsimp only
  split <;> exact hdone

/-- Whatever the storage on the database answers, the host has evolved. -/
theorem sqliteAnswers {e : Exchange} (hanswer : Answers sqliteStorage handle h' e t)
    (he : Evolved place h d h') : Evolved place h d t := by
  cases hanswer with
  | listed => exact he.storedReferences handle
  | deleted name =>
    exact he.onStore handle _ fun refusals d' hd' => Session.proper_deleteReference hd' refusals _
  | compacted => exact he.onStore handle _ fun refusals d' hd' => Session.proper_compact hd' refusals
  | closed =>
    dsimp only [sqliteStorage]
    cases handle.kind <;> exact he

theorem gitAnswers {e : Exchange} {expiry : Option Text}
    (hanswer : Answers (gitStorage expiry) handle h' e t) (he : Evolved place h d h') :
    Evolved place h d t := he.of_files (files_of_gitAnswers hanswer)

/-- A run is an evolution, whatever it is asked for and whatever kind of storage it finds: it opens
a storage and hears its answers. -/
theorem prune (he : Evolved place h d h') (config : Config) (rid peer : Text)
    (observer : Option Observer) :
    Evolved place h d (Host.prune config rid peer observer h').after := by
  have hpicked := fun id => pick_storageOf config id h'
  -- a run chooses a storage, opens it and hears its answers, each of which is an evolution
  refine pruneNamespace_preserves (I := Evolved place h d) (fun id hs => ?_)
    (fun id storage t hok ht => ?_) (fun {id storage handle t u e} hok hanswer ht => ?_) he
  · rw [(hpicked id).1]
    exact hs
  · obtain ⟨kind, rfl⟩ := (hpicked id).2 storage hok
    cases kind with
    | sqlite => exact ht.openStore config.storageRoot id
    | git =>
      obtain ⟨⟨_, htalk, _⟩, -⟩ := t.openGit_talk config.storageRoot id
      exact ht.of_files htalk.files
  · obtain ⟨kind, rfl⟩ := (hpicked id).2 storage hok
    cases kind with
    | sqlite => exact sqliteAnswers hanswer ht
    | git => exact gitAnswers hanswer ht

end Evolved

end RefSweep.Host
