import RefSweep.Proofs.Git.Refusal
import RefSweep.Proofs.Git.Safety
import RefSweep.Proofs.Visits

/-!
# Lock files that cannot be created

The tool takes a lock by creating a file. When it cannot, it names the file and the reason of the
system, and the reason alone tells whether another process is in the way: then it is `File exists`.
The reason is not looked at. Every message about a reference holds the phrase `cannot lock ref`
(`isLockMessage_cannotLockRef`), and for a collection the name of the file is enough
(`isLockMessage_cannotCollect_iff`). Main statement: `Host.uncreated_counts_as_lock`, for whatever
reason a lock file cannot be created, a run tries again as long as it may, and records a lock.
-/

namespace RefSweep

namespace Git

variable {file reason : Text}

/-! ## What the tool says -/

/-- What is said of a lock file that cannot be created, and why. -/
def cannotCreate (file reason : Text) : Text := "Unable to create '" ++ file ++ "': " ++ reason

/-- What is said when a reference is not deleted for that. -/
def cannotLockRef (name file reason : Text) : Text :=
  "error: cannot lock ref '" ++ name ++ "': " ++ cannotCreate file reason

/-- What is said when garbage is not collected for that. -/
def cannotCollect (file reason : Text) : Text := "fatal: " ++ cannotCreate file reason

/-- The path names a lock file on its first line, or a phrase about locks stands in the path or
behind it. -/
def NamesLock (file reason : Text) : Prop :=
  Text.of ".lock" <:+: (file.takeWhile (· ≠ .char '\n')).map Glyph.caseless ∨
    ∃ phrase, LockPhrase phrase ∧ phrase <:+: (file ++ "': " ++ reason).map Glyph.caseless

/-- Whatever the file and the reason, a message that a reference cannot be locked is about a
lock. -/
theorem isLockMessage_cannotLockRef (name file reason : Text) :
    isLockMessage (cannotLockRef name file reason) := by
  refine isLockMessage_iff.2 ⟨_, .reference, ?_⟩
  rw [cannotLockRef, List.map_append, List.map_append, List.map_append, List.append_assoc,
    List.append_assoc]
  exact List.IsInfix.trans ⟨Text.of "error: ", Text.of " '", rfl⟩ (List.prefix_append _ _).isInfix

/-- In a message that begins so, one phrase may begin with it. The others are found in the rest. -/
theorem isLockMessage_append (t : Text) :
    isLockMessage (Text.of "fatal: Unable to create '" ++ t) =
      (Text.includes (Text.of ".lock") ((t.map Glyph.caseless).takeWhile (· ≠ .char '\n')) ||
        isLockMessage t) := by
  have hmap : (Text.of "fatal: Unable to create '" ++ t).map Glyph.caseless =
      Text.of "fatal: unable to create '" ++ t.map Glyph.caseless := rfl
  unfold isLockMessage
  dsimp only
  rw [hmap]
  -- each phrase is compared with the fixed beginning by evaluation, with the rest left open
  generalize t.map Glyph.caseless = u
  have hreference : Text.includes (Text.of "cannot lock ref")
      (Text.of "fatal: unable to create '" ++ u) = Text.includes (Text.of "cannot lock ref") u := rfl
  have htaken : Text.includes (Text.of ".lock: file exists")
      (Text.of "fatal: unable to create '" ++ u) =
        Text.includes (Text.of ".lock: file exists") u := rfl
  have hquoted : Text.includes (Text.of ".lock': file exists")
      (Text.of "fatal: unable to create '" ++ u) =
        Text.includes (Text.of ".lock': file exists") u := rfl
  have hcreate : namesLockAfterCreate (Text.of "fatal: unable to create '" ++ u) =
      (Text.includes (Text.of ".lock") (u.takeWhile (· ≠ .char '\n')) ||
        namesLockAfterCreate u) := rfl
  have hcollecting : Text.includes (Text.of "gc is already running")
      (Text.of "fatal: unable to create '" ++ u) =
        Text.includes (Text.of "gc is already running") u := rfl
  rw [hreference, htaken, hquoted, hcreate, hcollecting]
  ac_rfl

/-- A part that is spelled without capitals and occurs in a text is found in it when letter case is
ignored. -/
theorem caseless_isInfix {part t : Text} (hpart : part.map Glyph.caseless = part)
    (h : part <:+: t) : part <:+: t.map Glyph.caseless := by
  rw [← hpart]
  exact h.map _

/-- The first line, in a search that ignores letter case. -/
theorem firstLine_caseless (t : Text) : (t.map Glyph.caseless).takeWhile (· ≠ .char '\n') =
    (t.takeWhile (· ≠ .char '\n')).map Glyph.caseless := by
  rw [List.takeWhile_map]
  congr 2
  funext g
  exact decide_eq_decide.2 (not_congr Glyph.caseless_eq_feed_iff)

/-- A message that garbage is not collected is about a lock if it is so without its beginning, or if
the path of the lock file names one on its first line. -/
theorem isLockMessage_cannotCollect_iff (hfile : Text.of ".lock" <:+ file) :
    isLockMessage (cannotCollect file reason) ↔ NamesLock file reason := by
  have hbegins : cannotCollect file reason =
      Text.of "fatal: Unable to create '" ++ (file ++ "': " ++ reason) := rfl
  rw [hbegins, isLockMessage_append, Bool.or_eq_true, isLockMessage_iff, NamesLock,
    firstLine_caseless, Text.includes_iff]
  refine or_congr_left ?_
  rw [List.append_assoc, List.takeWhile_append]
  split
  next hline =>
    -- the whole path stands on the first line, with the end that makes it a lock file's
    have hwhole : file.takeWhile (· ≠ .char '\n') = file :=
      (List.takeWhile_prefix _).eq_of_length hline
    rw [hwhole]
    have hlock : Text.of ".lock" <:+: file.map Glyph.caseless := caseless_isInfix rfl hfile.isInfix
    refine iff_of_true ?_ hlock
    rw [List.map_append]
    exact hlock.trans (List.prefix_append _ _).isInfix
  next => rfl

/-- A path on one line names its lock file. -/
theorem namesLock_of_line (hfile : Text.of ".lock" <:+ file) (hline : Glyph.char '\n' ∉ file) :
    NamesLock file reason := by
  have hwhole : file.takeWhile (· ≠ .char '\n') = file :=
    List.takeWhile_eq_self_iff.2 fun g hg => decide_eq_true (ne_of_mem_of_not_mem hg hline)
  refine .inl ?_
  rw [hwhole]
  exact caseless_isInfix rfl hfile.isInfix

/-- A lock file that exists already is spoken of as such. -/
theorem namesLock_of_exists (hfile : Text.of ".lock" <:+ file)
    (hreason : Text.of "File exists" <+: reason) : NamesLock file reason := by
  obtain ⟨front, rfl⟩ := hfile
  obtain ⟨more, rfl⟩ := hreason
  refine .inr ⟨_, .quotedTaken, front.map Glyph.caseless, more.map Glyph.caseless, ?_⟩
  simp only [List.map_append, List.append_assoc]
  rfl

end Git

namespace Host

/-! ## One attempt -/

section Attempt

variable {h : Host} {expiry : Option Text} {handle : Handle} {n : RefName} {file reason : Text}

/-- What the tool answers when it is told to delete, after it was asked for the name. -/
def deletionAnswer (h : Host) (handle : Handle) (n : RefName) : Finished :=
  (h.spoke ⟨handle.path, Git.existenceQuery n.text⟩).nextReply.finished

/-- What the tool answers when it is told to collect garbage, after it has counted. -/
def collectionAnswer (h : Host) (handle : Handle) : Finished :=
  (h.spoke ⟨handle.path, Git.countQuery⟩).nextReply.finished

/-- The tool has this reference and does not delete it, because it cannot create the lock file. -/
structure RefusesDeletion (h : Host) (handle : Handle) (n : RefName) (file reason : Text) :
    Prop where
  reached : (h.runGit handle.path (Git.existenceQuery n.text)).1.isOk
  listed : Git.Lists n.text h.nextReply.finished
  failed : (h.deletionAnswer handle n).code ≠ 0
  said : (h.deletionAnswer handle n).err = Git.cannotLockRef n.text file reason

/-- The tool does not collect garbage, because it cannot create the lock file. -/
structure RefusesCollection (h : Host) (expiry : Option Text) (handle : Handle)
    (file reason : Text) : Prop where
  reached : (h.runGit handle.path (Git.collection expiry)).1.isOk
  lockFile : Text.of ".lock" <:+ file
  failed : (h.collectionAnswer handle).code ≠ 0
  said : (h.collectionAnswer handle).err = Git.cannotCollect file reason

/-- A deletion that is refused because the lock file cannot be created ends as a locked one,
whatever the reason is. -/
theorem RefusesDeletion.result (href : h.RefusesDeletion handle n file reason) :
    (gitDelete handle n h).result =
      .error (Error.locked "delete" (Git.cannotLockRef n.text file reason).strip) := by
  refine (gitDelete_ends href.reached).locked_iff.2
    ⟨href.listed, href.failed, ?_, rfl, congrArg Text.strip href.said.symm⟩
  change Git.isLockMessage (h.deletionAnswer handle n).err = true
  rw [href.said]
  exact Git.isLockMessage_cannotLockRef ..

/-- A collection that reaches the tool is preceded by a count, and the count's own status does not
matter. -/
theorem gitCompact_of_refusal (hreached : (h.runGit handle.path (Git.collection expiry)).1.isOk)
    (hfailed : (h.collectionAnswer handle).code ≠ 0) :
    (gitCompact expiry handle h).result =
      .error (Git.collectionError (h.collectionAnswer handle)) := by
  obtain ⟨hzero, hplace⟩ := (h.runGit_isOk_iff _ _).1 hreached
  rw [List.any_cons, Bool.or_eq_false_iff] at hzero
  -- the count runs where the collection does, since only the words differ
  have hcount : h.runGit handle.path Git.countQuery =
      (.ok h.nextReply.finished, h.spoke ⟨handle.path, Git.countQuery⟩) := by
    refine h.runGit_of_isOk _ ((h.runGit_isOk_iff _ _).2 ⟨?_, hplace⟩)
    rw [List.any_cons, hzero.1]
    rfl
  have hcollect : (h.spoke ⟨handle.path, Git.countQuery⟩).runGit handle.path
      (Git.collection expiry) = (.ok (h.collectionAnswer handle),
        (h.spoke ⟨handle.path, Git.countQuery⟩).spoke ⟨handle.path, Git.collection expiry⟩) :=
    h.runGit_again handle.path (congrArg Prod.fst hcount) fun a ha =>
      Bool.eq_false_iff.2 (List.any_eq_false.1 hzero.2 a ha)
  unfold gitCompact gitCounts
  rw [hcount]
  dsimp only
  rw [hcollect]
  dsimp only
  rw [if_neg hfailed]

/-- A collection that is refused for the same reason ends as a locked one exactly if the message
names a lock, and otherwise with what the tool said and its status. -/
theorem RefusesCollection.result (href : h.RefusesCollection expiry handle file reason) :
    let said := (Git.cannotCollect file reason).strip
    let result := (gitCompact expiry handle h).result
    (Git.NamesLock file reason → result = .error (Error.locked "compact" said)) ∧
    (¬ Git.NamesLock file reason → result =
      .error (Error.uncompacted (.collectionFailed said (h.collectionAnswer handle).code))) := by
  intro said result
  -- stripping the message does not change whether a phrase about locks occurs in it
  have hlock : Git.isLockMessage said ↔ Git.NamesLock file reason := by
    rw [Git.isLockMessage_strip]
    exact Git.isLockMessage_cannotCollect_iff href.lockFile
  have hresult : result = _ := gitCompact_of_refusal href.reached href.failed
  rw [hresult, Git.collectionError, href.said]
  exact ⟨fun hnames => by rw [if_pos (hlock.2 hnames)],
    fun hnot => by rw [if_neg (mt hlock.1 hnot)]⟩

end Attempt

/-! ## The attempts of a run -/

section Attempts

variable (p : RetryPolicy) (expiry : Option Text) (handle : Handle) (s : Host)

/-- What `m + 1` attempts at a reference make of lock files that cannot be created. -/
structure DeletionAttempts (reference : Reference) (m : Nat) (run : Run Host DeletionOutcome) :
    Prop where
  repeated : Repeated p (.deleted reference.name) (gitDelete handle reference.name) s m run
  /-- Such an attempt is followed by another one as long as one is left. -/
  again : ∀ i ≤ m, ∀ file reason,
    (attemptState (gitDelete handle reference.name) s i).RefusesDeletion handle reference.name file
      reason → (i < m ↔ i < p.further)
  /-- If it is the last one, the reference is recorded as locked. -/
  recorded : ∀ file reason,
    (attemptState (gitDelete handle reference.name) s m).RefusesDeletion handle reference.name file
      reason → run.outcome = .ok ⟨reference.name, false, some (Error.locked "delete"
        (Git.cannotLockRef reference.name.text file reason).strip).message, true⟩

/-- What `m + 1` attempts at a collection make of lock files that cannot be created. -/
structure CollectionAttempts (m : Nat) (run : Run Host CompactionResult) : Prop where
  repeated : Repeated p .compacted (gitCompact expiry handle) s m run
  again : ∀ i ≤ m, ∀ file reason,
    (attemptState (gitCompact expiry handle) s i).RefusesCollection expiry handle file reason →
      (i < m ↔ Git.NamesLock file reason ∧ i < p.further)
  recorded : ∀ file reason,
    let last := attemptState (gitCompact expiry handle) s m
    let said := (Git.cannotCollect file reason).strip
    last.RefusesCollection expiry handle file reason →
      (Git.NamesLock file reason →
        run.outcome = .ok ⟨false, none, some (Error.locked "compact" said).message, true⟩) ∧
      (¬ Git.NamesLock file reason → run.outcome = .ok ⟨false, none, some (Error.uncompacted
        (.collectionFailed said (last.collectionAnswer handle).code)).message, false⟩)

/-- The attempts at one deletion under a policy follow this rule: each that meets such a refusal is
followed by a pause and another one, as long as one is left. -/
theorem deletionAttempts (reference : Reference) : ∃ m,
    DeletionAttempts p handle s reference m
      (attemptDeletion (gitStorage expiry) handle (some p) reference s) := by
  obtain ⟨m, hrepeated, hout⟩ := attemptDeletion_repeated (gitStorage expiry) handle p reference s
  refine ⟨m, hrepeated, fun i hi file reason href => hrepeated.of_lock hi href.result,
    fun file reason href => ?_⟩
  have hending : attemptEnding (gitDelete handle reference.name) s m = _ :=
    congrArg endingOf href.result
  rw [hout]
  exact congrArg (DeletionOutcome.ofEnding reference.name) hending

/-- So do the attempts at a collection, where the message decides which refusals count. -/
theorem collectionAttempts : ∃ m, CollectionAttempts p expiry handle s m
    (compactRepository (gitStorage expiry) handle (some p) s) := by
  obtain ⟨m, hrepeated, hout⟩ := compactRepository_repeated (gitStorage expiry) handle p s
  refine ⟨m, hrepeated, fun i hi file reason href => ?_, ?_⟩
  · by_cases hnames : Git.NamesLock file reason
    · exact (hrepeated.of_lock hi (href.result.1 hnames)).trans (and_iff_right hnames).symm
    · have hother : metLock (attemptEnding (gitCompact expiry handle) s i) = false :=
        congrArg (fun result => metLock (endingOf result)) (href.result.2 hnames)
      exact iff_of_false (hrepeated.of_other hi hother) fun hboth => hnames hboth.1
  · intro file reason last said href
    -- the ending of the last attempt is what the result records
    have hrecorded : ∀ e : Error, (gitCompact expiry handle last).result = .error e →
        (compactRepository (gitStorage expiry) handle (some p) s).outcome = .ok (.failure e) := by
      intro e hresult
      have hending : attemptEnding (gitCompact expiry handle) s m = some (.error e) :=
        congrArg endingOf hresult
      change CompactionRecorded (attemptEnding (gitCompact expiry handle) s m) _ at hout
      rw [hending] at hout
      generalize (compactRepository (gitStorage expiry) handle (some p) s).outcome = out at hout
      cases hout
      rfl
    exact ⟨fun hnames => hrecorded _ (href.result.1 hnames),
      fun hnot => hrecorded _ (href.result.2 hnot)⟩

end Attempts

/-- Whatever the reason for which a lock file cannot be created, a reference that is not deleted for
it counts as locked by another process. So does a collection, exactly if the path of the lock file
names one on its first line or another phrase about locks follows; a path without a line feed does,
and so does any path whose lock file exists. Every run that is not dry either ends before its
listing is complete, without a pause, or visits its references and then compacts. It pauses after
each such attempt as long as one is left, and records what it gives up as worth another try. -/
theorem uncreated_counts_as_lock (expiry : Option Text) :
    (∀ (h : Host) (handle : Handle) (n : RefName) (file reason : Text),
      h.RefusesDeletion handle n file reason → (gitDelete handle n h).result =
        .error (Error.locked "delete" (Git.cannotLockRef n.text file reason).strip)) ∧
    (∀ (h : Host) (handle : Handle) (file reason : Text),
      h.RefusesCollection expiry handle file reason →
        let said := (Git.cannotCollect file reason).strip
        let result := (gitCompact expiry handle h).result
        (Git.NamesLock file reason → result = .error (Error.locked "compact" said)) ∧
        (¬ Git.NamesLock file reason → result =
          .error (Error.uncompacted (.collectionFailed said (h.collectionAnswer handle).code)))) ∧
    (∀ file reason : Text, Text.of ".lock" <:+ file →
      Glyph.char '\n' ∉ file ∨ Text.of "File exists" <+: reason → Git.NamesLock file reason) ∧
    ∀ (pick : Identifier → Host → Answer Host (Storage Host Handle)) (config : Config)
      (rid peer : Text) (observer : Option Observer) (h : Host),
      (∀ id storage, (pick id h).result = .ok storage → storage = gitStorage expiry) →
      config.dryRun = false →
      let run := pruneNamespace pick config rid peer observer h
      let opening := openNamespace pick config.storageRoot rid peer h
      (run.pauses = [] ∧ ∃ f, run.outcome = .error f) ∨
        ∃ o, opening.outcome = .ok o ∧ o.storage = gitStorage expiry ∧
          let listed := opening.after.gitReferences o.handle
          listed.1.failure = none ∧ ∃ visits compacted,
            Carried (gitStorage expiry) o.handle config (o.owner.owned listed.1.references)
              listed.2 visits compacted run ∧
            (∀ visit ∈ visits, ∃ m, DeletionAttempts config.policy o.handle visit.start
              visit.reference m (visit.run (gitStorage expiry) o.handle config.policy)) ∧
            ∀ t ∈ compacted, ∃ m, CollectionAttempts config.policy expiry o.handle t m
              (compactRepository (gitStorage expiry) o.handle (some config.policy) t) := by
  refine ⟨fun h handle n file reason href => href.result,
    fun h handle file reason href => href.result, fun file reason hfile => ?_,
    fun pick config rid peer observer h hpick hwet => ?_⟩
  · -- a path on one line ends in the name of the lock file, and one that exists is said to
    rintro (hline | hexists)
    · exact Git.namesLock_of_line hfile hline
    · exact Git.namesLock_of_exists hfile hexists
  · intro run opening
    refine (pruneNamespace_carried pick rid peer observer h hwet).imp_right ?_
    -- the storage of the run is the one on git, as every storage that is picked
    rintro ⟨o, hopen, hcarried⟩
    have hgit : o.storage = gitStorage expiry := hpick o.id _ (openNamespace_ok hopen).2.2.1
    rw [hgit] at hcarried
    obtain ⟨hlisted, visits, compacted, hcarried⟩ := hcarried
    exact ⟨o, hopen, hgit, hlisted, visits, compacted, hcarried,
      fun visit _ => deletionAttempts config.policy expiry o.handle visit.start visit.reference,
      fun t _ => collectionAttempts config.policy expiry o.handle t⟩

end Host

namespace Git.Sample

def lockFile : Text := "/r/packed-refs.lock"

/-- A path that parts with a line feed before it names its lock file. -/
def parted : Text := "/r\n/gc.pid.lock"

def denied : Text := "Permission denied\n"

def owned : RefName := ⟨["namespaces", "alice", "a"]⟩

/-- What the tool answers to an attempt at the reference. -/
def undeleted : List GitReply :=
  [⟨0, Utf8.encode (owned.text ++ "\n"), []⟩,
    ⟨128, [], Utf8.encode (cannotLockRef owned.text lockFile denied)⟩]

/-- What it answers to an attempt at a collection. -/
def uncollected (file : Text) : List GitReply :=
  [⟨0, [], []⟩, ⟨128, [], Utf8.encode (cannotCollect file denied)⟩]

def answering (replies : List GitReply) : Host := { host [] with git := ⟨true, replies, []⟩ }

/-- Runs that attempt everything three times. -/
def thrice : Config := { RefSweep.Sample.gitConfig with attempts := 3, attempts_pos := by decide }

/-- A host whose tool lists the reference and refuses every attempt. -/
def refuser : Host :=
  { RefSweep.Sample.gitHost with git := ⟨true,
      [⟨0, [], []⟩, ⟨0, Utf8.encode ("1 " ++ owned.text ++ "\n"), []⟩] ++
        (List.replicate 3 undeleted).flatten ++
          (List.replicate 3 (uncollected lockFile)).flatten, []⟩ }

def refused : Run Host PruneResult := Host.prune thrice "repo" "alice" none refuser

end Git.Sample

open Git.Sample in
/-- Nobody holds the lock. A run pauses two times for the reference and two times for the collection,
and records that another process has both locked. Only a line feed in the path makes a difference,
and only to a collection. -/
theorem Host.uncreated_counts_as_lock_denied :
    let undeleting := Error.locked "delete" (Git.cannotLockRef owned.text lockFile denied).strip
    let uncollecting := Error.locked "compact" (Git.cannotCollect lockFile denied).strip
    ¬ Text.of "File exists" <:+: denied ∧
    (answering undeleted).RefusesDeletion repository owned lockFile denied ∧
    (gitDelete repository owned (answering undeleted)).result = .error undeleting ∧
    (answering (uncollected lockFile)).RefusesCollection none repository lockFile denied ∧
    (gitCompact none repository (answering (uncollected lockFile))).result =
      .error uncollecting ∧
    (answering (uncollected parted)).RefusesCollection none repository parted denied ∧
    (gitCompact none repository (answering (uncollected parted))).result = .error
      (Error.uncompacted (.collectionFailed (Git.cannotCollect parted denied).strip 128)) ∧
    refused.outcome = .ok ⟨"repo", "alice", [owned],
      [⟨owned, false, some undeleting.message, true⟩],
      some ⟨false, none, some uncollecting.message, true⟩⟩ ∧
    refused.pauses.length = 4 ∧
    ∃ handle references s visits t,
      Carried (gitStorage none) handle thrice references s visits (some t) refused ∧
        visits.length = 1 := by
  intro undeleting uncollecting
  obtain ⟨hdeletion, hcollection, hnames, hruns⟩ := Host.uncreated_counts_as_lock none
  have hdelete : (answering undeleted).RefusesDeletion repository owned lockFile denied :=
    ⟨by decide +kernel, ⟨by decide, by decide +kernel⟩, by decide, by decide +kernel⟩
  have hcollect :
      (answering (uncollected lockFile)).RefusesCollection none repository lockFile denied :=
    ⟨by decide +kernel, by decide, by decide, by decide +kernel⟩
  have hlock : Git.NamesLock lockFile denied :=
    hnames lockFile denied hcollect.lockFile (.inl (by decide))
  have hparted :
      (answering (uncollected parted)).RefusesCollection none repository parted denied :=
    ⟨by decide +kernel, by decide, by decide, by decide +kernel⟩
  have hother : ¬ Git.NamesLock parted denied :=
    (Git.isLockMessage_cannotCollect_iff hparted.lockFile).not.1 (by decide +kernel)
  -- one evaluation of the run gives the result and the pauses
  obtain ⟨hresult, hpaused⟩ : refused.outcome = .ok ⟨"repo", "alice", [owned],
      [⟨owned, false, some undeleting.message, true⟩],
      some ⟨false, none, some uncollecting.message, true⟩⟩ ∧ refused.pauses.length = 4 := by
    decide +kernel
  refine ⟨by decide +kernel, hdelete, hdeletion _ _ _ _ _ hdelete, hcollect,
    (hcollection _ _ _ _ hcollect).1 hlock, hparted, (hcollection _ _ _ _ hparted).2 hother,
    hresult, hpaused, ?_⟩
  obtain ⟨-, f, hfailed⟩ | ⟨o, -, -, -, visits, compacted, hcarried, -, -⟩ :=
    hruns (Host.pick thrice) thrice "repo" "alice" none refuser
      (fun id => (Host.pick_git refuser rfl id).2) rfl
  · cases hresult.symm.trans hfailed
  · obtain ⟨-, houtcomes, t, -, rfl, -⟩ := hcarried.result _ hresult
    refine ⟨o.handle, _, _, visits, t, hcarried, ?_⟩
    have hlength := congrArg List.length houtcomes
    rw [List.length_map, List.length_map] at hlength
    exact hlength.symm

end RefSweep
