import RefSweep.Proofs.Git.Deletion
import RefSweep.Proofs.Git.Lock

/-!
# What a deletion makes of the tool's answers

Deleting a reference takes two answers of the tool: one to the query for the name, one to the
deletion. What the second one says decides between a lock and another refusal. Main statement:
`Host.gitDelete_classifies`, every answer to the deletion is classified so, but what a failed query
says is never looked at.
-/

namespace RefSweep

namespace Git

variable {name : Text} {found finished : Finished}

/-- What a command that failed says: its message, or its status if it has none. -/
def complaint (finished : Finished) : Text :=
  if finished.err.strip = [] then "exit status " ++ Text.ofInt finished.code
  else finished.err.strip

/-- The query for a name has found it. -/
def Lists (name : Text) (found : Finished) : Prop := found.code = 0 ∧ name ∈ found.out.lines

/-- The result of a deletion if each command that fails is classified by what it says. -/
def classified (name : Text) (found finished : Finished) : Except Failure Unit :=
  if found.code ≠ 0 then .error (deletionError name found)
  else if name ∉ found.out.lines then .error (Error.undeletable name .absent)
  else if finished.code ≠ 0 then .error (deletionError name finished)
  else .ok ()

/-- A refusal is a lock's or not, and then it says what the tool said. It is never taken for a
missing reference. -/
theorem deletionError_cases (name : Text) (finished : Finished) :
    isLockMessage finished.err = true ∧
        deletionError name finished = .locked "delete" finished.err.strip ∨
      isLockMessage finished.err = false ∧ ∃ fault, fault ≠ .absent ∧
        fault.message = complaint finished ∧
        deletionError name finished = .undeletable name fault := by
  unfold deletionError complaint
  dsimp only
  rw [isLockMessage_strip]
  cases isLockMessage finished.err with
  | true => exact .inl ⟨rfl, rfl⟩
  | false =>
    refine .inr ⟨rfl, ?_⟩
    -- a silent tool has said nothing, and its status takes the place of the text
    by_cases hsilent : finished.err.strip = []
    · exact ⟨.exitStatus finished.code, nofun, by rw [if_pos hsilent]; rfl, by simp [hsilent]⟩
    · exact ⟨.said finished.err.strip, nofun, by rw [if_neg hsilent]; rfl, by simp [hsilent]⟩

/-- No refusal counts as an absent reference. -/
theorem deletionError_ne_absent (name : Text) (finished : Finished) :
    deletionError name finished ≠ .undeletable name .absent := by
  obtain ⟨-, heq⟩ | ⟨-, fault, hfault, -, heq⟩ := deletionError_cases name finished
  · rw [heq]
    nofun
  · rw [heq]
    rintro ⟨⟩
    exact hfault rfl

/-- How a deletion may end, after these answers to the query and to the deletion itself. -/
inductive Ends (name : Text) (found finished : Finished) : Except Failure Unit → Prop where
  | deleted (listed : Lists name found) (done : finished.code = 0) :
      Ends name found finished (.ok ())
  | refused (listed : Lists name found) (failed : finished.code ≠ 0) :
      Ends name found finished (.error (deletionError name finished))
  | absent (unlisted : ¬ Lists name found) :
      Ends name found finished (.error (Error.undeletable name .absent))

namespace Ends

variable {result : Except Failure Unit}

/-- A deletion succeeds exactly if the query lists the name and the tool deletes it. -/
theorem ok_iff (h : Ends name found finished result) :
    result = .ok () ↔ Lists name found ∧ finished.code = 0 := by
  cases h with
  | deleted listed done => exact ⟨fun _ => ⟨listed, done⟩, fun _ => rfl⟩
  | refused listed failed => exact ⟨nofun, fun h => absurd h.2 failed⟩
  | absent unlisted => exact ⟨nofun, fun h => absurd h.1 unlisted⟩

/-- It fails as a locked one exactly if the name is listed, the tool does not delete it and its
message is about a lock. -/
theorem locked_iff (h : Ends name found finished result) {operation detail : Text} :
    result = .error (Error.locked operation detail) ↔
      Lists name found ∧ finished.code ≠ 0 ∧ isLockMessage finished.err = true ∧
        operation = "delete" ∧ detail = finished.err.strip := by
  cases h with
  | deleted listed done => exact ⟨nofun, fun h => absurd done h.2.1⟩
  -- a deletion that was tried and refused is a lock's exactly if its message is about one
  | refused listed failed =>
    obtain ⟨hlock, heq⟩ | ⟨hother, fault, -, -, heq⟩ := deletionError_cases name finished
    · rw [heq]
      constructor
      · rintro ⟨⟩
        exact ⟨listed, failed, hlock, rfl, rfl⟩
      · rintro ⟨-, -, -, rfl, rfl⟩
        rfl
    · rw [heq, hother]
      exact ⟨nofun, fun h => absurd h.2.2.1 Bool.false_ne_true⟩
  | absent unlisted => exact ⟨nofun, fun h => absurd h.1 unlisted⟩

/-- It fails as an absent one exactly if the query does not list the name, for whatever reason. -/
theorem absent_iff (h : Ends name found finished result) :
    result = .error (Error.undeletable name .absent) ↔ ¬ Lists name found := by
  cases h with
  | deleted listed done => exact ⟨nofun, fun h => absurd listed h⟩
  | refused listed failed =>
    refine ⟨fun heq => ?_, fun h => absurd listed h⟩
    exact absurd (Failure.error.inj (Except.error.inj heq)) (deletionError_ne_absent name finished)
  | absent unlisted => exact ⟨fun _ => unlisted, fun _ => rfl⟩

/-- In the remaining case it fails with what the tool said. -/
theorem said (h : Ends name found finished result) (listed : Lists name found)
    (failed : finished.code ≠ 0) (other : isLockMessage finished.err = false) :
    ∃ fault, fault ≠ .absent ∧ result = .error (Error.undeletable name fault) ∧
      fault.message = complaint finished := by
  cases h with
  | deleted _ done => exact absurd done failed
  | refused =>
    obtain ⟨hlock, -⟩ | ⟨-, fault, hcause, hsaid, heq⟩ := deletionError_cases name finished
    · rw [other] at hlock
      cases hlock
    · exact ⟨fault, hcause, by rw [heq], hsaid⟩
  | absent unlisted => exact absurd listed unlisted

/-- So it ends as the two answers are to be classified exactly if the query itself has not failed.
-/
theorem eq_classified_iff (h : Ends name found finished result) :
    result = classified name found finished ↔ found.code = 0 := by
  unfold classified
  cases h with
  | deleted listed done => simp [listed.1, listed.2, done]
  | refused listed failed => simp [listed.1, listed.2, failed]
  | absent unlisted =>
    by_cases hfound : found.code = 0
    · have hname : name ∉ found.out.lines := fun hmem => unlisted ⟨hfound, hmem⟩
      simp [hfound, hname]
    · -- what the failed query says is another error
      rw [if_pos hfound]
      refine ⟨fun heq => ?_, fun h => absurd h hfound⟩
      have hsame := Failure.error.inj (Except.error.inj heq)
      exact absurd hsame.symm (deletionError_ne_absent name found)

end Ends

end Git

namespace Host

variable {h : Host} {handle : Handle} {n : RefName}

/-- The two answers of the tool decide how a deletion ends. Everything else about the host is the
same for all deletions. -/
theorem gitDelete_ends (hreached : (h.runGit handle.path (Git.existenceQuery n.text)).1.isOk) :
    let asked := h.spoke ⟨handle.path, Git.existenceQuery n.text⟩
    Git.Ends n.text h.nextReply.finished asked.nextReply.finished
      (gitDelete handle n h).result := by
  intro asked
  have hrun := h.runGit_of_isOk handle.path hreached
  have hagain := runGit_deletion (congrArg Prod.fst hrun)
  unfold gitDelete
  dsimp only
  rw [hrun]
  dsimp only
  -- the query lists the name or does not; only then is the deletion tried
  split
  next hlisted =>
    rw [hagain]
    dsimp only
    split
    next hdone => exact .deleted hlisted hdone
    next hfailed => exact .refused hlisted hfailed
  next hunlisted => exact .absent hunlisted

/-- A deletion succeeds exactly if the query lists the name and the deletion is done. Where the name
is listed, a deletion that is not done fails with a lock exactly if its message is about one, and
otherwise with what the tool said. Where it is not listed, the reference counts as absent. So the
commands are classified by what they say exactly as long as the query does not fail: what a failed
query says, of a lock or not, is lost. -/
theorem gitDelete_classifies (h : Host) (handle : Handle) (n : RefName)
    (hreached : (h.runGit handle.path (Git.existenceQuery n.text)).1.isOk) :
    let found := h.nextReply.finished
    let finished := (h.spoke ⟨handle.path, Git.existenceQuery n.text⟩).nextReply.finished
    let result := (gitDelete handle n h).result
    let listed := Git.Lists n.text found
    (result = .ok () ↔ listed ∧ finished.code = 0) ∧
    (∀ operation detail, result = .error (Error.locked operation detail) ↔
      listed ∧ finished.code ≠ 0 ∧ Git.isLockMessage finished.err = true ∧
        operation = "delete" ∧ detail = finished.err.strip) ∧
    (result = .error (Error.undeletable n.text .absent) ↔ ¬ listed) ∧
    (listed → finished.code ≠ 0 → Git.isLockMessage finished.err = false →
      ∃ fault, fault ≠ .absent ∧ result = .error (Error.undeletable n.text fault) ∧
        fault.message = Git.complaint finished) ∧
    (result = Git.classified n.text found finished ↔ found.code = 0) := by
  intro found finished result listed
  have hends : Git.Ends n.text found finished result := gitDelete_ends hreached
  exact ⟨hends.ok_iff, fun _ _ => hends.locked_iff, hends.absent_iff, hends.said,
    hends.eq_classified_iff⟩

end Host

namespace Git.Sample

/-- What the tool says when another process holds the file of all references. -/
def packed : Text := "fatal: Unable to create '/r/packed-refs.lock': File exists."

/-- A host whose tool says so to the next command. -/
def refusing : Host :=
  { host [] with git := ⟨true, [⟨128, [], Utf8.encode packed ++ [0x0A]⟩], []⟩ }

end Git.Sample

open Git.Sample in
/-- A query that meets a lock makes the reference count as absent, although it says that there is a
lock. A listing that gets the same answer may be tried again. -/
theorem Host.gitDelete_classifies_lock :
    (refusing.runGit repository.path (Git.existenceQuery branch.text)).1.isOk ∧
      (gitDelete repository branch refusing).result =
        .error (Error.undeletable branch.text .absent) ∧
      Git.classified branch.text refusing.nextReply.finished refusing.nextReply.finished =
        .error (Error.locked "delete" packed) ∧
      (refusing.gitReferences repository).1.failure =
        some (Error.unreadable (.listingFailed packed true)) := by
  have hreached : (refusing.runGit repository.path (Git.existenceQuery branch.text)).1.isOk := by
    decide +kernel
  obtain ⟨-, -, habsent, -⟩ := Host.gitDelete_classifies refusing repository branch hreached
  have hfailed : refusing.nextReply.finished.code ≠ 0 := by decide
  exact ⟨hreached, habsent.2 fun hlists => hfailed hlists.1, by decide +kernel, by decide +kernel⟩

end RefSweep
