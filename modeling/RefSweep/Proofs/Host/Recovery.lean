import RefSweep.Proofs.Host.Evolution
import RefSweep.Proofs.Host.Opening
import RefSweep.Proofs.Prediction
import RefSweep.Proofs.RefName

/-!
# What runs on a host recover from

Once a repository is open, the database and git fail only in ways that the library has an error for.
What would escape has been met before: a directory that is none, or a name or path that cannot be
handed on. Main statement: `prune_recovered`.
-/

namespace RefSweep

variable {σ η : Type}

/-- If no answer but a listing fails from outside the library, as long as `I` holds, then nothing
does. -/
theorem Exchanged.recovered {storage : Storage σ η} {handle : η} {I : σ → Prop} {s t : σ}
    {es : List Exchange} (h : Exchanged storage handle s es t)
    (hstep : ∀ {s t e}, e ∈ es → Answers storage handle s e t → I s →
      I t ∧ (e.call = .listed ∨ ∀ cause, e.ending ≠ some (.foreign cause))) (hs : I s) :
    Recovered es := by
  -- by induction on the exchanges, along which `I` is carried
  induction h with
  | nil => exact fun e he => absurd he List.not_mem_nil
  | cons first _ ih =>
    obtain ⟨hnext, hends⟩ := hstep (.head _) first hs
    have hrest := ih (fun he => hstep (.tail _ he)) hnext
    intro e he cause hforeign
    rcases List.mem_cons.1 he with rfl | he
    · exact hends.resolve_right fun hnever => hnever cause hforeign
    · exact hrest e he cause hforeign

/-- Where every failure is one of the library's own errors, no request ends in a foreign one. -/
theorem endingOf_ne_foreign {α : Type} {r : Except Failure α}
    (h : ∀ f, r = .error f → ∃ e : Error, f = .error e) (cause : Foreign) :
    endingOf r ≠ some (.foreign cause) := fun hforeign => by
  obtain ⟨e, he⟩ := h _ (endingOf_eq_some hforeign)
  cases he

namespace Host

variable {h t : Host} {handle : Handle} {d : Database} {e : Exchange} {path : Path}

/-! ## The database -/

/-- An answer of the store in a file, asked for names without stray bytes: it leaves the handle with
a store, and fails with errors of the library only, unless it is a listing. -/
theorem sqliteAnswers_recovered (hanswer : Answers sqliteStorage handle h e t)
    (hnames : ∀ name, e.call = .deleted name → name.text.strayRun? = none)
    (hd : ∃ d, Stores handle h d) :
    (∃ d, Stores handle t d) ∧ (e.call = .listed ∨ ∀ cause, e.ending ≠ some (.foreign cause)) := by
  obtain ⟨d, hd⟩ := hd
  -- the handle leads to some database after any answer
  have hstays : ∃ d', Stores handle t d' := by
    obtain ⟨⟨d', hd', -⟩, -⟩ := sqliteStorage_preserves (I := fun _ => True) hanswer
      (fun _ _ => trivial) (fun _ => trivial) ⟨d, hd, trivial⟩
    exact ⟨d', hd'⟩
  refine ⟨hstays, ?_⟩
  cases hanswer with
  | listed => exact .inl rfl
  | deleted name =>
    refine .inr (endingOf_ne_foreign fun f hf => ?_)
    obtain ⟨hresult, -⟩ := answerOnStore_stores hd fun refusals session d =>
      session.deleteReference refusals d name.text
    have hfailed := hresult.symm.trans hf
    obtain ⟨⟨e, he⟩, -⟩ | ⟨hok, -⟩ := Session.deleteReference_cases (x := .fresh) (d := d)
      h.nextRefusals.1 rfl (hnames name rfl)
    · exact ⟨e, Except.error.inj (hfailed.symm.trans he)⟩
    · cases hfailed.symm.trans hok
  | compacted =>
    refine .inr (endingOf_ne_foreign fun f hf => ?_)
    obtain ⟨hresult, -⟩ := answerOnStore_stores hd fun refusals session d =>
      session.compact refusals d
    have hfailed := hresult.symm.trans hf
    obtain ⟨-, ⟨e, he, -⟩ | ⟨⟨bytes, hok⟩, -⟩⟩ := Session.compact_cases (x := .fresh)
      h.nextRefusals.1 rfl (Session.current_of_idle (d := d) rfl)
    · exact ⟨_, Except.error.inj (hfailed.symm.trans he)⟩
    · cases hfailed.symm.trans hok
  | closed =>
    refine .inr (endingOf_ne_foreign fun f hf => ?_)
    dsimp only [sqliteStorage] at hf
    rw [hd.kind] at hf
    cases hf

/-! ## Git -/

/-- Commands can be run in this directory. -/
structure Runs (path : Path) (h : Host) : Prop where
  directory : h.files.find path = .ok .directory
  plain : Glyph.char '\x00' ∉ path.text

theorem Runs.of_files {h' : Host} (hruns : Runs path h) (hfiles : h'.files = h.files) :
    Runs path h' := ⟨hfiles ▸ hruns.directory, hruns.plain⟩

/-- If git ran in a directory once, then it can be run there again: the directory is still there. -/
theorem runs_of_runGit {arguments : List Text} {finished : Finished} {h' : Host}
    (hrun : h.runGit path arguments = (.ok finished, h')) : Runs path h := by
  unfold runGit at hrun
  split at hrun
  · cases hrun
  next hplain =>
    split at hrun
    next hdirectory => exact ⟨hdirectory, by simpa using fun hmem => hplain (by simp [hmem])⟩
    all_goals cases hrun

/-- Running git leaves the files of the host as they were: what git keeps is modelled apart. -/
theorem files_of_runGit {arguments : List Text} {result : Except Failure Finished} {h' : Host}
    (hrun : h.runGit path arguments = (result, h')) : h'.files = h.files := by
  obtain ⟨f, hcase⟩ | hcase := h.runGit_cases path arguments
  · rw [← (Prod.mk.inj (hcase.symm.trans hrun)).2]
  · rw [← (Prod.mk.inj (hcase.symm.trans hrun)).2]
    rfl

/-- So does asking for the counts. -/
theorem files_of_gitCounts {result : Except Failure Counts} {h' : Host}
    (hcounts : h.gitCounts path = (result, h')) : h'.files = h.files := by
  obtain ⟨talk, htalk, -⟩ := h.gitCounts_talk path
  rw [hcounts] at htalk
  exact htalk.files

/-- Where commands can be run, they can only fail to be found. -/
theorem Runs.runGit_error (hruns : Runs path h) {arguments : List Text}
    (hplain : ∀ argument ∈ arguments, Glyph.char '\x00' ∉ argument) {f : Failure} {h' : Host}
    (hrun : h.runGit path arguments = (.error f, h')) : f = .error Git.notFound := by
  have hnone : ¬ (path.text :: arguments).any (·.contains '\x00') = true := by
    simpa using ⟨hruns.plain, hplain⟩
  unfold runGit Git.run at hrun
  rw [if_neg hnone, hruns.directory] at hrun
  dsimp only at hrun
  split at hrun
  · cases hrun
  · exact (Except.error.inj (Prod.mk.inj hrun).1).symm

/-- A git repository that was opened is one where git runs, as git itself was asked there whether it
is one. -/
theorem runs_of_openGit {root : Path} {id : Identifier}
    (hopen : (openGit root id h).result = .ok handle) :
    Runs handle.path (openGit root id h).state := by
  obtain ⟨⟨talk, htalk, -⟩, -⟩ := h.openGit_talk root id
  refine Runs.of_files ?_ htalk.files
  unfold openGit at hopen
  split at hopen
  · cases hopen
  · split at hopen
    · cases hopen
    · cases hopen
    · split at hopen
      · cases hopen
      next hrun =>
        split at hopen
        · rw [← Except.ok.inj hopen]
          exact runs_of_runGit hrun
        · cases hopen

/-- Where git runs, the counts can fail in one way only, with the error that the repository is not
there. -/
theorem Runs.gitCounts_error (hruns : Runs path h) {f : Failure} {h' : Host}
    (hcounts : h.gitCounts path = (.error f, h')) : f = .error Git.notFound := by
  unfold gitCounts at hcounts
  split at hcounts
  next hrun =>
    have hfailed := hruns.runGit_error (by decide) hrun
    rw [← hfailed]
    exact (Except.error.inj (Prod.mk.inj hcounts).1).symm
  · cases hcounts

/-- A deletion where commands can be run, of a name that can be read, fails with errors of the
library only: no zero character comes into its arguments. -/
theorem Runs.gitDelete_error (hruns : Runs handle.path h) {name : RefName}
    (hname : RefName.parse name.text = .ok name) {f : Failure}
    (hfailed : (gitDelete handle name h).result = .error f) : ∃ e : Error, f = .error e := by
  -- a null character is all that could keep an argument from a command
  have hplain : Glyph.char '\x00' ∉ name.text := fun hmem =>
    absurd (RefName.not_forbidden hname hmem) (by decide)
  have hquery : ∀ argument ∈ Git.existenceQuery name.text, Glyph.char '\x00' ∉ argument := by
    simp only [Git.existenceQuery, List.forall_mem_cons]
    exact ⟨by decide, by decide, hplain, fun _ h => absurd h List.not_mem_nil⟩
  have hdeletion : ∀ argument ∈ Git.deletion name.text, Glyph.char '\x00' ∉ argument := by
    simp only [Git.deletion, List.forall_mem_cons]
    exact ⟨by decide, by decide, by decide, hplain, fun _ h => absurd h List.not_mem_nil⟩
  unfold gitDelete at hfailed
  dsimp only at hfailed
  split at hfailed
  next hrun =>
    rw [← Except.error.inj hfailed]
    exact ⟨_, hruns.runGit_error hquery hrun⟩
  next h₁ hrun =>
    have hruns₁ : Runs handle.path h₁ := hruns.of_files (files_of_runGit hrun)
    split at hfailed
    · split at hfailed
      next hrun₁ =>
        rw [← Except.error.inj hfailed]
        exact ⟨_, hruns₁.runGit_error hdeletion hrun₁⟩
      · split at hfailed
        · cases hfailed
        · exact ⟨_, (Except.error.inj hfailed).symm⟩
    · exact ⟨_, (Except.error.inj hfailed).symm⟩

/-- And so every failure of a compaction is one of the library's own errors. -/
theorem Runs.gitCompact_error (hruns : Runs handle.path h) {f : Failure}
    (hfailed : (gitCompact none handle h).result = .error f) : ∃ e : Error, f = .error e := by
  unfold gitCompact at hfailed
  split at hfailed
  next hcounts =>
    rw [← Except.error.inj hfailed]
    exact ⟨_, hruns.gitCounts_error hcounts⟩
  next h₁ hcounts =>
    have hruns₁ : Runs handle.path h₁ := hruns.of_files (files_of_gitCounts hcounts)
    split at hfailed
    next hrun =>
      rw [← Except.error.inj hfailed]
      exact ⟨_, hruns₁.runGit_error (by decide) hrun⟩
    next h₂ hrun =>
      have hruns₂ : Runs handle.path h₂ := hruns₁.of_files (files_of_runGit hrun)
      split at hfailed
      · dsimp only at hfailed
        split at hfailed
        next hcounts₂ =>
          rw [← Except.error.inj hfailed]
          exact ⟨_, hruns₂.gitCounts_error hcounts₂⟩
        · cases hfailed
      · exact ⟨_, (Except.error.inj hfailed).symm⟩

/-- An answer of git where commands can be run, asked for names that can be read, fails in no
foreign way, and commands can still be run after it. -/
theorem gitAnswers_recovered (hanswer : Answers (gitStorage none) handle h e t)
    (hnames : ∀ name, e.call = .deleted name → RefName.parse name.text = .ok name)
    (hruns : Runs handle.path h) :
    Runs handle.path t ∧ (e.call = .listed ∨ ∀ cause, e.ending ≠ some (.foreign cause)) := by
  refine ⟨hruns.of_files (files_of_gitAnswers hanswer), ?_⟩
  cases hanswer with
  | listed => exact .inl rfl
  | deleted name =>
    exact .inr (endingOf_ne_foreign fun _ hf => hruns.gitDelete_error (hnames name rfl) hf)
  | compacted => exact .inr (endingOf_ne_foreign fun _ hf => hruns.gitCompact_error hf)
  | closed => exact .inr fun _ hforeign => by cases hforeign

/-! ## Runs -/

/-- Whatever the database refuses and git answers, nothing fails from outside the library once the
repository is open, except for the listing. The stored names hold no stray bytes, as a database
makes sure. -/
theorem prune_recovered (config : Config) {rid peer : Text} {observer : Option Observer}
    {exchanges : List Exchange}
    (hheard : Heard (pick config) config.storageRoot rid peer h (prune config rid peer observer h)
      exchanges)
    (hstored : ∀ handle d, Stores handle h d → ∀ row ∈ d.store.refRows, row.name.strayRun? = none) :
    Recovered exchanges := by
  have hdeleted := fun {e : Exchange} {name : RefName} (he : e ∈ exchanges)
    (hcall : e.call = .deleted name) => hheard.deleted he hcall
  cases hheard with
  | nothing => exact fun e he => absurd he List.not_mem_nil
  | @talked o _ hopen _ hanswered =>
    have hnames : ∀ e ∈ exchanges, ∀ name, e.call = .deleted name →
        ∃ r ∈ (o.storage.references o.handle
          (openNamespace (pick config) config.storageRoot rid peer h).after).1.references,
          r.name = name := by
      intro e he name hcall
      obtain ⟨o', hopen', r, hr, hname⟩ := hdeleted he hcall
      obtain rfl := Except.ok.inj (hopen'.symm.trans hopen)
      exact ⟨r, (List.mem_filter.1 hr).1, hname⟩
    obtain ⟨hstorage, hsame, d, hd⟩ | ⟨hstorage, hafter, hgit⟩ := opened_cases hopen
    · -- each name comes from a row of the store that was opened
      rw [hstorage, hsame] at hanswered hnames
      refine hanswered.recovered (I := fun t => ∃ d, Stores o.handle t d)
        (fun he hanswer hs => ?_) ⟨d, hd⟩
      refine sqliteAnswers_recovered hanswer (fun name hcall => ?_) hs
      obtain ⟨r, hr, rfl⟩ := hnames _ he name hcall
      exact hstored o.handle d hd r.row (row_of_mem_references hd hr)
    · rw [hstorage, hafter] at hanswered
      refine hanswered.recovered (I := Runs o.handle.path) (fun he hanswer hs => ?_)
        (runs_of_openGit hgit)
      refine gitAnswers_recovered hanswer (fun name hcall => ?_) hs
      obtain ⟨r, hr, rfl⟩ := hnames _ he name hcall
      exact parse_of_mem_opened hopen hr

end Host

end RefSweep
