import RefSweep.Proofs.Git.Safety
import RefSweep.Proofs.Host.Opening
import RefSweep.Proofs.Prediction

/-!
# Dry runs on a host

A dry run leaves all files of the host as they are, those of stores included, and asks git nothing
that changes a repository (`prune_dry_untouched`).
-/

namespace RefSweep

namespace FileTree

/-- Saving the database that is there already leaves everything as it is. -/
theorem Holds.entry?_save {t : FileTree} {d : Database} {a : Address} (h : t.Holds d a) (q : Path) :
    FileTree.entry? (t.save d a) q = t.entry? q := by
  cases h with
  | @file path place plain short found stored =>
    have hleads : t.LeadsTo place (.file path) := .file plain short found
    have hfile : t.hasDirectory place = false := by rw [hasDirectory, stored]
    rw [hleads.saved hfile]
    split
    next hsame => rw [hsame, stored]
    · rfl

end FileTree

namespace Host

variable {h h' h'' : Host} {handle : Handle} {d : Database} {config : Config} {rid peer : Text}
  {observer : Option Observer}

/-- Everything that was on the host `h` is as it was: its files, with all that stores in them hold,
and its git repositories, since no command changes one. -/
structure Untouched (h h' : Host) : Prop where
  files : ∀ q e, h.files.entry? q = some e → h'.files.entry? q = some e
  asked : ∃ commands, h'.git.issued = h.git.issued ++ commands ∧
    ∀ c ∈ commands, ¬ c.Deletes ∧ ¬ c.Collects

namespace Untouched

/-- A host on which files were at most added and every git repository is as it was is untouched. -/
theorem of_git (hfiles : ∀ q e, h.files.entry? q = some e → h'.files.entry? q = some e)
    (hgit : h'.git = h.git) : Untouched h h' :=
  ⟨hfiles, [], by rw [hgit, List.append_nil], fun _ hc => absurd hc List.not_mem_nil⟩

theorem refl (h : Host) : Untouched h h := .of_git (fun _ _ hq => hq) rfl

/-- Two stretches that each leave the host untouched leave it untouched together. -/
theorem trans (hu : Untouched h h') (hu' : Untouched h' h'') : Untouched h h'' where
  files q e hq := hu'.files q e (hu.files q e hq)
  asked := by
    obtain ⟨commands, hissued, hharmless⟩ := hu.asked
    obtain ⟨commands', hissued', hharmless'⟩ := hu'.asked
    refine ⟨commands ++ commands', by rw [hissued', hissued, List.append_assoc], fun c hc => ?_⟩
    exact (List.mem_append.1 hc).elim (hharmless c) (hharmless' c)

/-- A talk with git in which no command deletes a reference or collects objects leaves the host
untouched, whatever git answers. -/
theorem of_talk {talk : List Spoken} (htalk : Talked h talk h')
    (hharmless : ∀ e ∈ talk, ¬ e.command.Deletes ∧ ¬ e.command.Collects) : Untouched h h' where
  files q e hq := by rwa [htalk.files]
  asked := by
    refine ⟨talk.map (·.command), htalk.issued, fun c hc => ?_⟩
    obtain ⟨e, he, rfl⟩ := List.mem_map.1 hc
    exact hharmless e he

end Untouched

/-- Connecting makes at most a new file, and the check itself only reads, whatever it decides. -/
theorem untouched_checkStore (h : Host) (file : Path) : Untouched h (h.checkStore file none).2 := by
  unfold checkStore
  cases Address.read file.text with
  | error fault => exact .refl h
  | ok address =>
    obtain ⟨-, hkept⟩ := h.files.connect_grows address
    dsimp only
    rcases hconnect : h.files.connect address with ⟨result, files⟩
    rw [hconnect] at hkept
    -- what connecting makes is the only thing that can be new
    have huntouched : Untouched h { h with files } := .of_git hkept rfl
    cases result with
    | error e => exact huntouched
    | ok d =>
      dsimp only
      cases d.store.checkSchema <;> exact huntouched

/-- Opening a store may create the directories and the database, and leaves everything that was
there before. -/
theorem untouched_openStore (root : Path) (id : Identifier) (h : Host) :
    Untouched h (openStore root id h).state := by
  unfold openStore
  split
  · exact .refl h
  next path _ =>
    -- of all steps the check alone goes beyond looking
    have hchecked := untouched_checkStore h (storePath path)
    dsimp only
    split
    · exact .refl h
    · exact .refl h
    · split
      next heq => rwa [heq] at hchecked
      next heq => rwa [heq] at hchecked

/-- Opening a git repository asks git for its directory and changes nothing. -/
theorem untouched_openGit (root : Path) (id : Identifier) (h : Host) :
    Untouched h (openGit root id h).state := by
  obtain ⟨⟨talk, htalk, hsaid⟩, -⟩ := h.openGit_talk root id
  refine .of_talk htalk fun e he => ?_
  have hharmless := Git.harmless_openingQuery (root.child id.text)
  rw [hsaid e he]
  exact ⟨hharmless.deletes, hharmless.collects⟩

/-- Reading the references of an open store leaves the host as it is, whether the reading succeeds
or is refused. -/
theorem untouched_storedReferences (hd : Stores handle h d) :
    Untouched h (h.storedReferences handle .fresh).2.2 := by
  obtain ⟨hkind, address, hread, hheld⟩ := hd
  have hconnect : h.nextRefusals.2.files.connect address = (.ok d, h.files) := hheld.connect
  unfold storedReferences onStore onFile
  simp only [hkind, hread, hconnect]
  exact .of_git (fun q e hq => (hheld.entry?_save q).trans hq) rfl

/-- Listing the references of a git repository runs one query, and a query changes no reference and
no object. -/
theorem untouched_gitReferences (handle : Handle) (h : Host) :
    Untouched h (h.gitReferences handle).2 := by
  obtain ⟨htalk, -⟩ | ⟨reply, htalk, -⟩ := h.gitReferences_talk handle
  · exact .of_talk htalk fun e he => absurd he List.not_mem_nil
  · refine .of_talk htalk fun e he => ?_
    rw [List.mem_singleton.1 he]
    exact ⟨fun h => absurd (Option.some.inj h) (by decide),
      fun h => absurd (Option.some.inj h) (by decide)⟩

/-- Everything that goes before the first deletion leaves the host untouched, whichever storage the
configuration picks. -/
theorem untouched_openNamespace (config : Config) (root : Path) (rid peer : Text) (h : Host) :
    Untouched h (openNamespace (pick config) root rid peer h).after := by
  have hpicked := fun id => pick_storageOf config id h
  refine openNamespace_preserves (fun id => ?_) (fun id storage hok => ?_) (.refl h)
  · rw [(hpicked id).1]
    exact .refl h
  · obtain ⟨kind, rfl⟩ := (hpicked id).2 storage hok
    rw [(hpicked id).1]
    cases kind with
    | sqlite => exact untouched_openStore root id h
    | git => exact untouched_openGit root id h

/-- A dry run leaves everything as it is, also if it fails: it opens, lists and closes, and neither
deletes nor collects. -/
theorem prune_dry_untouched (hdry : config.dryRun = true) (rid peer : Text)
    (observer : Option Observer) (h : Host) :
    Untouched h (prune config rid peer observer h).after := by
  have hopening := untouched_openNamespace config config.storageRoot rid peer h
  unfold prune
  cases hopen : (openNamespace (pick config) config.storageRoot rid peer h).outcome with
  | error f =>
    rw [(pruneNamespace_of_error _ hopen).2.1]
    exact hopening
  | ok o =>
    obtain ⟨-, hafter, -⟩ := pruneNamespace_dry hdry hopen
    rw [hafter, close_opened hopen]
    -- after the opening only the listing is left, as closing does nothing
    obtain ⟨hstorage, hsame, d, hd⟩ | ⟨hstorage, -⟩ := opened_cases hopen
    · rw [hstorage, hsame]
      exact untouched_storedReferences hd
    · rw [hstorage]
      exact hopening.trans (untouched_gitReferences o.handle _)

/-! ## What is predicted -/

/-- A dry run on the host reports, name for name, the deletions that were predicted from the host,
or ends in the very failure that was predicted. -/
theorem prune_dry_predicted (config : Config) (rid peer : Text) (observer : Option Observer)
    (h : Host) (hdry : config.dryRun = true) :
    (prune config rid peer observer h).outcome.map (·.matched) =
      predicted (pick config) config.storageRoot rid peer h :=
  pruneNamespace_dry_predicted config observer hdry fun _ => closes_opened

/-- A run that deletes has an outcome for each predicted name and no other, provided that nothing
but the listing ends in a foreign failure and the observer takes every name. -/
theorem prune_wet_predicted (config : Config) {exchanges : List Exchange}
    (hwet : config.dryRun = false)
    (hheard : Heard (pick config) config.storageRoot rid peer h (prune config rid peer observer h)
      exchanges)
    (hrecovered : Recovered exchanges)
    (htakes : ∀ names, predicted (pick config) config.storageRoot rid peer h = .ok names →
      Takes observer names) :
    (prune config rid peer observer h).outcome.map (·.outcomes.map (·.name)) =
      predicted (pick config) config.storageRoot rid peer h :=
  (pruneNamespace_outcomes config observer hwet (fun _ => closes_opened) hheard hrecovered htakes).2

/-- Dry runs on a host predict, as closing does not fail there. -/
theorem predicts (config : Config) (rid peer : Text) (h : Host) :
    Predicts (pick config) config rid peer h :=
  predicts_of_closes fun _ => closes_opened

/-- The predicted names can be read. -/
theorem parse_of_mem_predicted {names : List RefName}
    (hnames : predicted (pick config) config.storageRoot rid peer h = .ok names) :
    ∀ name ∈ names, RefName.parse name.text = .ok name := by
  intro name hname
  obtain ⟨o, hopen, -, rfl⟩ := predicted_eq_ok hnames
  obtain ⟨r, hr, rfl⟩ := List.mem_map.1 hname
  exact parse_of_mem_opened hopen (List.mem_filter.1 hr).1

end Host

end RefSweep
