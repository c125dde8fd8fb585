import RefSweep.Host.Opened
import RefSweep.Proofs.Host.Account
import RefSweep.Proofs.Host.Evolution

/-!
# Histories of a store

Any number of callers keep repositories of a host open and send their requests in any order; runs
take place in between, and other processes take and release locks. A history is a list of such acts.
Main statement: `store_sound_throughout`, from its creation on a store is sound, and a caller to
whom nothing has failed can look up exactly what it can list.
-/

namespace RefSweep.History

/-- What a caller asks of a repository that it has opened. -/
inductive Request where
  | list
  | lookup (name : Text)
  | write (kind : Text) (payload : Bytes) (links : List Text)
  | update (name target : Text)
  | delete (name : RefName)
  | compact
  | close

/-- A caller with the relational store of a repository open. -/
structure Caller where
  opened : Opened
  /-- One of the requests so far has failed. -/
  failed : Bool

/-- A host and those who use stores on it. -/
structure Site where
  host : Host
  callers : List Caller

inductive Act where
  | opens (root : Path) (rid : Identifier)
  /-- The request of one of the callers, counted from 0. -/
  | asks (caller : Nat) (request : Request)
  | prunes (config : Config) (rid peer : Text) (observer : Option Observer)
  /-- Another process takes or releases the lock of the database in a file. -/
  | locks (file : Path) (locked : Bool)

namespace Caller

variable {α : Type}

/-- The caller after an answer, and the host. -/
def answered (c : Caller) (answer : Except Failure α × Opened × Host) : Caller × Host :=
  (⟨answer.2.1, c.failed || !answer.1.isOk⟩, answer.2.2)

def ask (c : Caller) (h : Host) : Request → Caller × Host
  | .list =>
    let (listing, opened, h) := c.opened.list h
    c.answered (listing.all, opened, h)
  | .lookup name => c.answered (c.opened.lookup h name)
  | .write kind payload links => c.answered (c.opened.write h kind payload links)
  | .update name target => c.answered (c.opened.update h name target)
  | .delete name => c.answered (c.opened.delete h name)
  | .compact => c.answered (c.opened.compact h)
  | .close => c.answered (c.opened.close.1, c.opened.close.2, h)

end Caller

namespace Site

/-- The host after another process has taken or released the lock of the database in a file. -/
def relock (h : Host) (file : Path) (locked : Bool) : Host :=
  match h.files.entry? file with
  | some (.database d) => { h with files := h.files.put file (.database (d.setLocked locked)) }
  | _ => h

def step (s : Site) : Act → Site
  | .opens root rid =>
    let answer := Opened.openAs .sqlite none root rid s.host
    match answer.result with
    | .ok opened => ⟨answer.state, s.callers ++ [⟨opened, false⟩]⟩
    | .error _ => ⟨answer.state, s.callers⟩
  | .asks i request =>
    match s.callers[i]? with
    | none => s
    | some c =>
      let (c, h) := c.ask s.host request
      ⟨h, s.callers.set i c⟩
  | .prunes config rid peer observer =>
    { s with host := (Host.prune config rid peer observer s.host).after }
  | .locks file locked => { s with host := relock s.host file locked }

/-- The site after a history. -/
def run (s : Site) (acts : List Act) : Site := acts.foldl step s

end Site

open Host

variable {h h' : Host} {place : Path} {d d' : Database}

/-! ## A store that has just been created -/

/-- The host is one on which the store of this repository has just been created, in a file at this
place that held no database, or an empty one. -/
structure Created (repository place : Path) (h : Host) : Prop where
  leads : ∃ address, Address.read (storePath repository).text = .ok address ∧
    h.files.LeadsTo place address
  made : ∃ (before : Host) (file : Path), before.initStore repository = (.ok file, h) ∧
    ∀ d, before.files.entry? place = some (.database d) → d = .blank

/-- A store that has just been created is the blank one initialised, after one commit. -/
theorem Created.stored {repository : Path} (hcreated : Created repository place h) :
    h.files.entry? place = some (.database ⟨Store.blank.initialised, 1⟩) := by
  obtain ⟨⟨address, hread, hleads⟩, before, file, hinit, hnothing⟩ := hcreated
  obtain ⟨-, files, hmade, hrun⟩ := initStore_ok hinit
  obtain ⟨d, hfound, hleft⟩ := initFile_ok hrun hread hleads
  have hblank : d = .blank := by
    refine hfound.elim (fun hstored => hnothing d ?_) id
    refine FileTree.makeDirectory_database (p := repository) ?_
    rw [hmade]
    exact hstored
  rw [hleft, hblank]
  rfl

/-! ## What a step keeps -/

/-- The caller uses relational storage. If the store is the one at this place, the session is
orderly, and at rest as long as nothing has failed. -/
structure Caller.InOrder (c : Caller) (place : Path) (h : Host) (d : Database) : Prop where
  relational : c.opened.storage = .sqlite
  session : Uses c.opened.handle h place →
    c.opened.session.Orderly d ∧ (c.failed = false → c.opened.session.AtRest)

/-- The database `d` stands at this place, it is sound, and all callers are in order. -/
structure Site.InOrder (s : Site) (place : Path) (d : Database) : Prop where
  stored : s.host.files.entry? place = some (.database d)
  sound : d.store.Sound
  callers : ∀ c ∈ s.callers, c.InOrder place s.host d

/-- What the database does meanwhile leaves a caller in order. -/
theorem Caller.InOrder.later {c : Caller} (hc : c.InOrder place h d)
    (hgrown : h.files.Extends h'.files) (hprecedes : d.Precedes d') (hsound : d'.store.Sound) :
    c.InOrder place h' d' := by
  refine ⟨hc.relational, fun huses => ?_⟩
  obtain ⟨address, hread, hleads⟩ := huses.leads
  obtain ⟨horderly, hrests⟩ :=
    hc.session ⟨huses.kind, address, hread, hgrown.leadsTo_iff.1 hleads⟩
  exact ⟨horderly.later hprecedes hsound, hrests⟩

/-- Whatever a host evolves into, the callers at the site are as much in order as they were before.
-/
theorem Site.InOrder.evolved {s : Site} (hs : s.InOrder place d)
    (he : Evolved place s.host d h') :
    ∃ d', (Site.mk h' s.callers).InOrder place d' := by
  obtain ⟨d', hstored, hsound, hprecedes⟩ := he.store
  exact ⟨d', hstored, hsound, fun c hc => (hs.callers c hc).later he.files hprecedes hsound⟩

/-- The answer to a request leaves the caller in order, and the store at the place has evolved. -/
theorem Caller.InOrder.answered {α : Type} {c : Caller} (hc : c.InOrder place h d)
    (hstored : h.files.entry? place = some (.database d)) (hsound : d.store.Sound)
    (operation : Refusals → Session → Database → Step α)
    (hproper : ∀ refusals (x : Session) (d : Database), x.Orderly d →
      (operation refusals x d).Proper x d) :
    let answer := c.opened.onStore h operation
    ∃ d', (h.files.Extends answer.2.2.files ∧
        FileTree.entry? answer.2.2.files place = some (.database d') ∧ d'.store.Sound ∧ d.Precedes d') ∧
      (c.answered answer).1.InOrder place answer.2.2 d' := by
  intro answer
  obtain ⟨hgrown, ⟨huses, hresult, hsession, hleft⟩ | ⟨hother, hleft⟩⟩ :=
    onStore_tracked hstored c.opened.handle c.opened.session operation
  · obtain ⟨horderly, hrests⟩ := hc.session huses
    have hstep := hproper h.nextRefusals.1 c.opened.session d horderly
    refine ⟨_, ⟨hgrown, hleft, hstep.orderly.store, hstep.precedes⟩, hc.relational, fun _ => ?_⟩
    have hafter : answer.2.1.session = _ := hsession
    refine ⟨?_, fun hfailed => ?_⟩
    · show answer.2.1.session.Orderly _
      rw [hafter]
      exact hstep.orderly
    · -- neither an earlier request has failed nor this one
      obtain ⟨hbefore, hnow⟩ := Bool.or_eq_false_iff.1 hfailed
      have hok : ∃ a, answer.1 = .ok a := by
        cases hout : answer.1 with
        | ok a => exact ⟨a, rfl⟩
        | error f => rw [hout] at hnow; cases hnow
      obtain ⟨a, ha⟩ := hok
      show answer.2.1.session.AtRest
      rw [hafter]
      exact hstep.rests (hrests hbefore) a (hresult.symm.trans ha)
  · refine ⟨d, ⟨hgrown, hleft, hsound, .refl d⟩, hc.relational, fun huses => ?_⟩
    -- the handle is the same, and its path leads where it led
    obtain ⟨address, hread, hleads⟩ := huses.leads
    exact absurd ⟨huses.kind, address, hread, hgrown.leadsTo_iff.1 hleads⟩ hother

/-- A request of a caller in order leaves a sound database no earlier than the one before, and the
caller in order with it. -/
theorem Caller.InOrder.ask {c : Caller} (hc : c.InOrder place h d)
    (hstored : h.files.entry? place = some (.database d)) (hsound : d.store.Sound)
    (request : Request) :
    ∃ d', (h.files.Extends (c.ask h request).2.files ∧
        FileTree.entry? (c.ask h request).2.files place = some (.database d') ∧ d'.store.Sound ∧
        d.Precedes d') ∧
      (c.ask h request).1.InOrder place (c.ask h request).2 d' := by
  obtain ⟨⟨storage, expiry, handle, session⟩, failed⟩ := c
  obtain rfl : storage = .sqlite := hc.relational
  cases request with
  | list =>
    obtain ⟨d', hleft, hc'⟩ := hc.answered hstored hsound
      (fun refusals x d => .ok (x.listing refusals d).2 d (x.listing refusals d).1)
      fun refusals x d hx => Session.proper_listing hx refusals
    revert hleft hc'
    simp only [Caller.ask, Opened.list, storedReferences, Opened.onStore]
    generalize h.onStore handle session _ = answer
    obtain ⟨result, session', after⟩ := answer
    intro hleft hc'
    refine ⟨d', ?_, ?_⟩
    · cases result <;> exact hleft
    · cases result with
      | error f => exact hc'
      | ok listing =>
        refine ⟨rfl, fun huses => ⟨(hc'.session huses).1, fun hfailed => ?_⟩⟩
        -- a listing that fails counts as a failure too
        refine (hc'.session huses).2 ?_
        obtain ⟨hbefore, -⟩ := Bool.or_eq_false_iff.1 hfailed
        exact Bool.or_eq_false_iff.2 ⟨hbefore, rfl⟩
  | lookup name =>
    exact hc.answered hstored hsound _ fun refusals x d hx => Session.proper_lookup hx refusals name
  | write kind payload links =>
    exact hc.answered hstored hsound _ fun refusals x d hx =>
      Session.proper_writeObject hx refusals kind payload links
  | update name target =>
    exact hc.answered hstored hsound _ fun refusals x d hx =>
      Session.proper_updateReference hx refusals name target
  | delete name =>
    exact hc.answered hstored hsound _ fun refusals x d hx =>
      Session.proper_deleteReference hx refusals name.text
  | compact =>
    exact hc.answered hstored hsound _ fun refusals x d hx => Session.proper_compact hx refusals
  | close =>
    refine ⟨d, ⟨.refl _, hstored, hsound, .refl d⟩, ?_⟩
    obtain ⟨kind, rid, path⟩ := handle
    cases kind with
    | git => exact ⟨rfl, fun huses => by cases huses.kind⟩
    | sqlite =>
      exact ⟨rfl, fun _ => ⟨Session.orderly_of_idle hsound rfl, fun _ => ⟨rfl, rfl⟩⟩⟩

/-- When another program takes or releases the lock of a file, no row of the database changes. -/
theorem evolved_relock (hstored : h.files.entry? place = some (.database d))
    (hsound : d.store.Sound) (file : Path) (locked : Bool) :
    Evolved place h d (Site.relock h file locked) := by
  unfold Site.relock
  split
  next other hother =>
    have hfile : h.files.hasDirectory file = false := by rw [FileTree.hasDirectory, hother]
    refine ⟨.put hfile (fun heq => by cases heq), ?_⟩
    dsimp only
    rw [FileTree.entry?_put (FileTree.parts_ne_nil hfile)]
    split
    -- the database of the site itself: its rows stay, and so does its soundness
    next hsame =>
      subst hsame
      obtain rfl := Entry.database.inj (Option.some.inj (hother.symm.trans hstored))
      exact ⟨_, rfl, hsound.setLocked locked, .setLocked other locked⟩
    · exact ⟨d, hstored, hsound, .refl d⟩
  · exact .refl hstored hsound

/-- Whatever happens next at a site in order, it is in order afterwards: a request of a caller, a
caller that comes, a run of pruning or a lock. -/
theorem Site.InOrder.step {s : Site} (hs : s.InOrder place d) (act : Act) :
    ∃ d', (s.step act).InOrder place d' := by
  cases act with
  | opens root rid =>
    have hopened : Evolved place s.host d (Host.openStore root rid s.host).state :=
      (Evolved.refl hs.stored hs.sound).openStore root rid
    unfold Site.step Opened.openAs
    dsimp only
    obtain ⟨d', hs'⟩ := hs.evolved hopened
    cases (Host.openStore root rid s.host).result with
    | error f => exact ⟨d', hs'⟩
    | ok handle =>
      refine ⟨d', hs'.stored, hs'.sound, fun c hc => ?_⟩
      rcases List.mem_append.1 hc with hc | hc
      · exact hs'.callers c hc
      · rw [List.mem_singleton.1 hc]
        exact ⟨rfl, fun _ => ⟨Session.orderly_of_idle hs'.sound rfl, fun _ => ⟨rfl, rfl⟩⟩⟩
  | asks i request =>
    unfold Site.step
    dsimp only
    cases hi : s.callers[i]? with
    | none => exact ⟨d, hs⟩
    | some c =>
      have hc := hs.callers c (List.mem_of_getElem? hi)
      obtain ⟨d', ⟨hgrown, hstored, hsound, hprecedes⟩, hc'⟩ :=
        hc.ask hs.stored hs.sound request
      refine ⟨d', hstored, hsound, fun other hother => ?_⟩
      -- the caller that asked is another one now, the others are as they were
      rcases List.mem_or_eq_of_mem_set hother with hother | rfl
      · exact (hs.callers other hother).later hgrown hprecedes hsound
      · exact hc'
  | prunes config rid peer observer =>
    exact hs.evolved ((Evolved.refl hs.stored hs.sound).prune config rid peer observer)
  | locks file locked => exact hs.evolved (evolved_relock hs.stored hs.sound file locked)

/-- So a site in order stays in order along every list of acts; by induction on the list, with the
step above. -/
theorem Site.InOrder.run {s : Site} (hs : s.InOrder place d) (acts : List Act) :
    ∃ d', (s.run acts).InOrder place d' := by
  induction acts generalizing s d with
  | nil => exact ⟨d, hs⟩
  | cons act rest ih =>
    obtain ⟨d', hs'⟩ := hs.step act
    exact ih hs'

/-! ## What callers are told -/

/-- What a caller of the store at this place lists and looks up. -/
theorem Caller.InOrder.list {c : Caller} (hc : c.InOrder place h d)
    (hstored : h.files.entry? place = some (.database d)) (huses : Uses c.opened.handle h place) :
    (c.opened.list h).1 = (c.opened.session.listing h.nextRefusals.1 d).1 := by
  obtain ⟨-, ⟨-, hresult, -⟩ | ⟨hother, -⟩⟩ :=
    onStore_tracked hstored c.opened.handle c.opened.session fun refusals x d =>
      Step.ok (x.listing refusals d).2 d (x.listing refusals d).1
  · simp only [Opened.list, hc.relational, storedReferences]
    rw [hresult]
    rfl
  · exact absurd huses hother

/-- Looking a reference up through a caller answers what the caller's session reads in the database
of the site. -/
theorem Caller.lookup {c : Caller} (hstored : h.files.entry? place = some (.database d))
    (huses : Uses c.opened.handle h place) (name : Text) :
    (c.opened.lookup h name).1 = (c.opened.session.lookup h.nextRefusals.1 d name).result := by
  obtain ⟨-, ⟨-, hresult, -⟩ | ⟨hother, -⟩⟩ :=
    onStore_tracked hstored c.opened.handle c.opened.session fun refusals x d =>
      x.lookup refusals d name
  · exact hresult
  · exact absurd huses hother

/-- From its creation on a store is sound, whatever callers ask, runs do and the database refuses.
No listing finds a corrupt name. A caller to whom nothing has failed is told the same by listing and
by looking up, and is told it where the database refuses nothing. -/
theorem store_sound_throughout {repository : Path} (hcreated : Created repository place h)
    (acts : List Act) :
    let s := (Site.mk h []).run acts
    ∃ d, s.host.files.entry? place = some (.database d) ∧ d.store.Sound ∧
      ∀ c ∈ s.callers, Uses c.opened.handle s.host place →
        let listing := (c.opened.list s.host).1
        (∀ name fault, listing.failure ≠ some (Error.unreadable (.corruptName name fault))) ∧
        (c.failed = false → ∀ name,
          let lookup := (c.opened.lookup s.host name).1
          (listing.failure = none → ∀ found, lookup = .ok found → ∀ target,
            found = some target ↔
              ∃ r ∈ listing.references, r.name.text = name ∧ r.target = target) ∧
          (s.host.nextRefusals.1 = .none → listing.failure = none ∧
            (name.strayRun? = none → ∃ found, lookup = .ok found))) := by
  intro s
  have hstart : (Site.mk h []).InOrder place ⟨Store.blank.initialised, 1⟩ :=
    ⟨hcreated.stored, Store.Sound.initialised_blank, fun c hc => absurd hc List.not_mem_nil⟩
  obtain ⟨d, hs⟩ := hstart.run acts
  refine ⟨d, hs.stored, hs.sound, fun c hc huses => ?_⟩
  -- what a caller's session sees is known from the order that every act keeps
  have hin := hs.callers c hc
  obtain ⟨horderly, hrests⟩ := hin.session huses
  have hlisted := hin.list hs.stored huses
  intro listing
  refine ⟨fun name fault => ?_, fun hfailed name => ?_⟩
  · show (c.opened.list s.host).1.failure ≠ _
    rw [hlisted]
    exact Session.listing_not_corrupt horderly _ name fault
  · have hrest := hrests hfailed
    have hlooked := Caller.lookup hs.stored huses name
    intro lookup
    refine ⟨fun hnone found hok target => ?_, fun hquiet => ⟨?_, fun hname => ?_⟩⟩
    · have hrows : listing = Store.parseRows d.store.refRows := by
        refine hlisted.trans (Session.listing_of_failure_none hrest.current ?_)
        rw [← hlisted]
        exact hnone
      rw [hrows, hs.sound.mem_parseRows, ← hs.sound.lookup_eq_some_iff]
      have hfound : found = _ := Session.lookup_of_ok hrest.current (hlooked.symm.trans hok)
      rw [hfound]
    · show (c.opened.list s.host).1.failure = none
      rw [hlisted, hquiet, Session.listing_none hrest.awake hrest.current hs.sound.tables]
      exact hs.sound.parseRows_failure
    · show ∃ found, (c.opened.lookup s.host name).1 = .ok found
      rw [hlooked, hquiet]
      exact Session.lookup_none hrest hs.sound.tables hname

end RefSweep.History

namespace RefSweep.Sample

open History

/-- A host with a directory for repositories, and none in it. -/
def emptyHost : Host where
  files := ⟨[(config.storageRoot, .directory)]⟩
  git := .missing
  refusals := []

/-- The host after the store of the repository was created. -/
def newHost : Host := (emptyHost.initStore directory).2

def key : Text := Digest.key "commit" []

/-- One caller stores an object and points two references at it, another one is refused a name, and
one of the references is pruned. -/
def acts : List Act :=
  [.opens config.storageRoot repository, .asks 0 (.write "commit" [] []),
    .asks 0 (.update "refs/heads/main" key), .asks 0 (.update "namespaces/alice/x" key),
    .opens config.storageRoot repository, .asks 1 (.update "refs//main" key),
    .prunes config "repo" "alice" none]

/-- The store of the example host has just been created. -/
theorem created_newHost : Created directory (storePath directory) newHost := by
  have hplace : newHost.files.place (storePath directory) = .ok (storePath directory) := by
    decide +kernel
  have hmade : (emptyHost.initStore directory).1 = .ok (storePath directory) := by decide +kernel
  have hnothing : emptyHost.files.entry? (storePath directory) = none := by decide +kernel
  refine ⟨⟨_, read_storePath, .file (by decide +kernel) (by decide +kernel) hplace⟩, emptyHost,
    storePath directory, Prod.ext hmade rfl, fun d hd => ?_⟩
  cases hnothing.symm.trans hd

end RefSweep.Sample

namespace RefSweep.History

open Sample Host in
/-- The reference that was not pruned can be listed and looked up by the caller to whom nothing has
failed. -/
theorem store_sound_throughout_acts :
    Created directory (storePath directory) newHost ∧
      ∃ d, FileTree.entry? ((Site.mk newHost []).run acts).host.files (storePath directory) =
          some (.database d) ∧ d.store.Sound ∧
        ∃ c ∈ ((Site.mk newHost []).run acts).callers, c.failed = false ∧
          let host := ((Site.mk newHost []).run acts).host
          (c.opened.lookup host "refs/heads/main").1 = .ok (some key) ∧
            ∃ r ∈ (c.opened.list host).1.references,
              r.name.text = "refs/heads/main" ∧ r.target = key := by
  obtain ⟨d, hstored, hsound, hcallers⟩ := store_sound_throughout created_newHost acts
  -- the site after the history, as far as the general statement has to know it
  obtain ⟨hcaller, hanswer, hplace, hrefusals⟩ :
      (((Site.mk newHost []).run acts).callers[0]?.map fun c =>
        (c.failed, c.opened.handle.kind, c.opened.handle.path)) =
          some (false, .sqlite, directory) ∧
      (((Site.mk newHost []).run acts).callers[0]?.map fun c =>
        (c.opened.lookup ((Site.mk newHost []).run acts).host "refs/heads/main").1) =
          some (.ok (some key)) ∧
      ((Site.mk newHost []).run acts).host.files.place (storePath directory) =
        .ok (storePath directory) ∧
      ((Site.mk newHost []).run acts).host.refusals.isEmpty := by
    decide +kernel
  obtain ⟨c, hc, hknown⟩ := Option.map_eq_some_iff.1 hcaller
  simp only [Prod.mk.injEq] at hknown
  obtain ⟨hfailed, hkind, hpath⟩ := hknown
  rw [hc] at hanswer
  have hlooked := Option.some.inj hanswer
  have hmem := List.mem_of_getElem? hc
  have huses : Uses c.opened.handle ((Site.mk newHost []).run acts).host (storePath directory) := by
    refine ⟨hkind, _, ?_, .file (by decide +kernel) (by decide +kernel) hplace⟩
    rw [hpath]
    exact read_storePath
  have hquiet : ((Site.mk newHost []).run acts).host.nextRefusals.1 = .none := by
    rw [nextRefusals, List.isEmpty_iff.1 hrefusals]
    rfl
  obtain ⟨-, htold⟩ := hcallers c hmem huses
  obtain ⟨hsame, hanswered⟩ := htold hfailed "refs/heads/main"
  refine ⟨created_newHost, d, hstored, hsound, c, hmem, hfailed, hlooked, ?_⟩
  exact (hsame (hanswered hquiet).1 _ hlooked key).1 rfl

end RefSweep.History
