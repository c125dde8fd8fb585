import RefSweep.Host.GitRepository

/-!
# What git storage says to the tool

`Talked` follows the commands that reach the tool and pairs each with its answer, which is the next
one of the script whatever the command was. For every operation of git storage there is one
statement that lists all it can say, under every script.
-/

namespace RefSweep

/-- The output of an answer as text. -/
def GitReply.finished (r : GitReply) : Finished := ⟨r.code, Git.read r.out, Git.read r.err⟩

/-- What a listing makes of an answer. -/
def GitReply.listing (r : GitReply) : Listing :=
  if r.code = 0 then Git.parseListing (Git.read r.out).lines
  else
    let stderr := (Git.read r.err).strip
    .failed (Error.unreadable (.listingFailed stderr (Git.isLockMessage stderr)))

/-- A command and the answer to it. -/
structure Spoken where
  command : GitCommand
  reply : GitReply

/-- What the tool answers to the next command. -/
def Host.nextReply (h : Host) : GitReply := h.git.replies.headD Git.exhausted

/-- The host after a command has reached the tool. -/
def Host.spoke (h : Host) (c : GitCommand) : Host :=
  { h with git := { h.git with replies := h.git.replies.tail, issued := h.git.issued ++ [c] } }

/-- The commands that reached the tool one after another, each with its answer. -/
inductive Talked : Host → List Spoken → Host → Prop where
  | nil (h : Host) : Talked h [] h
  | cons {h h' : Host} {talk : List Spoken} (c : GitCommand) (others : Talked (h.spoke c) talk h') :
      Talked h (⟨c, h.nextReply⟩ :: talk) h'

namespace Talked

variable {h h' h'' : Host} {talk talk' : List Spoken}

theorem single (h : Host) (c : GitCommand) :
    Talked h [⟨c, h.nextReply⟩] (h.spoke c) := .cons c (.nil _)

theorem append (ht : Talked h talk h') (ht' : Talked h' talk' h'') :
    Talked h (talk ++ talk') h'' := by
  induction ht with
  | nil => exact ht'
  | cons c _ ih => exact .cons c (ih ht')

/-- Nothing else reached the tool. -/
theorem issued (ht : Talked h talk h') :
    h'.git.issued = h.git.issued ++ talk.map (·.command) := by
  induction ht with
  | nil => exact (List.append_nil _).symm
  | cons c _ ih =>
    rw [ih, Host.spoke, List.append_assoc]
    rfl

/-- Talking to the tool changes no file of the host. -/
theorem files (ht : Talked h talk h') : h'.files = h.files := by
  induction ht with
  | nil => rfl
  | cons c _ ih => exact ih

end Talked

namespace Host

variable (h : Host) (path : Path)

/-- A command reaches the tool and gets the next answer, or it does not and nothing happens. -/
theorem runGit_cases (arguments : List Text) :
    (∃ f, h.runGit path arguments = (.error f, h)) ∨
      h.runGit path arguments = (.ok h.nextReply.finished, h.spoke ⟨path, arguments⟩) := by
  unfold runGit Git.run
  split
  · exact .inl ⟨_, rfl⟩
  · cases h.files.find path with
    | error problem => cases problem <;> exact .inl ⟨_, rfl⟩
    | ok entry =>
      cases entry with
      | directory =>
        -- the only way to the tool
        by_cases havailable : h.git.available = true
        · rw [if_pos havailable]
          exact .inr rfl
        · rw [if_neg havailable]
          exact .inl ⟨_, rfl⟩
      | file content => exact .inl ⟨_, rfl⟩
      | database d => exact .inl ⟨_, rfl⟩

/-- A command reaches the tool if the tool is there, the directory too, and no zero character is in
the way. -/
theorem runGit_isOk_iff (arguments : List Text) :
    (h.runGit path arguments).1.isOk ↔
      (path.text :: arguments).any (·.contains '\x00') = false ∧
        h.files.find path = .ok .directory ∧ h.git.available = true := by
  unfold runGit Git.run
  cases (path.text :: arguments).any (·.contains '\x00') with
  | true => simp [Except.isOk, Except.toBool]
  | false =>
    cases h.files.find path with
    | error problem => cases problem <;> simp [Except.isOk, Except.toBool]
    | ok entry => cases entry <;> cases h.git.available <;> simp [Except.isOk, Except.toBool]

/-- A command that reaches the tool gets the next answer. -/
theorem runGit_of_isOk {arguments : List Text} (hreached : (h.runGit path arguments).1.isOk) :
    h.runGit path arguments = (.ok h.nextReply.finished, h.spoke ⟨path, arguments⟩) := by
  obtain ⟨f, hfailed⟩ | hrun := h.runGit_cases path arguments
  · rw [hfailed] at hreached
    cases hreached
  · exact hrun

/-- A command that reached the tool can be followed by any other one in the same directory. -/
theorem runGit_again {arguments arguments' : List Text} {finished : Finished}
    (hran : (h.runGit path arguments).1 = .ok finished)
    (hzero : ∀ a ∈ arguments', a.contains (Glyph.char '\x00') = false) :
    (h.spoke ⟨path, arguments⟩).runGit path arguments' =
      (.ok (h.spoke ⟨path, arguments⟩).nextReply.finished,
        (h.spoke ⟨path, arguments⟩).spoke ⟨path, arguments'⟩) := by
  have hok : (h.runGit path arguments).1.isOk := by rw [hran]; rfl
  obtain ⟨hpath, hdirectory, havailable⟩ := (h.runGit_isOk_iff path arguments).1 hok
  rw [List.any_cons, Bool.or_eq_false_iff] at hpath
  refine runGit_of_isOk _ path ((runGit_isOk_iff _ path arguments').2 ⟨?_, hdirectory, havailable⟩)
  rw [List.any_cons, hpath.1, Bool.false_or, List.any_eq_false]
  simpa using hzero

theorem path_of_locate {t : FileTree} {root : Path} {id : Identifier} {found : Path}
    (hlocate : t.locate root id = .ok found) : found = root.child id.text := by
  unfold FileTree.locate at hlocate
  dsimp only at hlocate
  split at hlocate
  · cases hlocate
  · exact (Except.ok.inj hlocate).symm
  · cases hlocate

/-- Opening a repository asks the tool at most whether it is one, in the directory of the
identifier. -/
theorem openGit_talk (root : Path) (id : Identifier) :
    (∃ talk, Talked h talk (openGit root id h).state ∧
      ∀ e ∈ talk, e.command = ⟨root.child id.text, ["rev-parse", "--git-dir"]⟩) ∧
    ∀ handle, (openGit root id h).result = .ok handle → handle.path = root.child id.text := by
  -- every way out before the command leaves nothing said
  have hsilent : ∃ talk, Talked h talk h ∧
      ∀ e ∈ talk, e.command = ⟨root.child id.text, ["rev-parse", "--git-dir"]⟩ :=
    ⟨[], .nil h, fun _ he => absurd he List.not_mem_nil⟩
  unfold openGit
  split
  · exact ⟨hsilent, nofun⟩
  next path hlocate =>
    obtain rfl := path_of_locate hlocate
    split
    · exact ⟨hsilent, nofun⟩
    · exact ⟨hsilent, nofun⟩
    · obtain ⟨f, hrun⟩ | hrun := h.runGit_cases (root.child id.text) ["rev-parse", "--git-dir"]
      · rw [hrun]
        exact ⟨hsilent, nofun⟩
      · rw [hrun]
        have hasked : ∃ talk,
            Talked h talk (h.spoke ⟨root.child id.text, ["rev-parse", "--git-dir"]⟩) ∧
            ∀ e ∈ talk, e.command = ⟨root.child id.text, ["rev-parse", "--git-dir"]⟩ :=
          ⟨_, .single h _, fun e he => by rw [List.mem_singleton.1 he]⟩
        dsimp only
        split
        · exact ⟨hasked, fun handle hok => by rw [← Except.ok.inj hok]⟩
        · exact ⟨hasked, nofun⟩

/-- Listing asks for all references, once. If the tool cannot be run nothing is said and the listing
fails; else its reply is the listing. -/
theorem gitReferences_talk (handle : Handle) :
    let answer := h.gitReferences handle
    (Talked h [] answer.2 ∧ answer.1.failure ≠ none) ∨
      ∃ reply, Talked h [⟨⟨handle.path, Git.enumeration⟩, reply⟩] answer.2 ∧
        answer.1 = reply.listing := by
  unfold gitReferences
  obtain ⟨f, hrun⟩ | hrun := h.runGit_cases handle.path Git.enumeration
  · rw [hrun]
    exact .inl ⟨.nil h, nofun⟩
  · -- the command ran, and its reply decides whether the listing is whole
    rw [hrun]
    refine .inr ⟨h.nextReply, ?_, ?_⟩
    · have hsingle := Talked.single h ⟨handle.path, Git.enumeration⟩
      dsimp only
      split <;> exact hsingle
    · dsimp only [GitReply.listing, GitReply.finished]
      split <;> rfl

/-- What deleting a reference may say: nothing, the query for its name, or that and the deletion, if
the query found exactly this name. -/
inductive DeletionTalk (path : Path) (name : Text) : List Spoken → Prop where
  | silent : DeletionTalk path name []
  | asked (reply : GitReply) : DeletionTalk path name [⟨⟨path, Git.existenceQuery name⟩, reply⟩]
  | deleted (reply reply' : GitReply) (found : reply.code = 0)
      (listed : name ∈ (Git.read reply.out).lines) :
      DeletionTalk path name
        [⟨⟨path, Git.existenceQuery name⟩, reply⟩, ⟨⟨path, Git.deletion name⟩, reply'⟩]

theorem gitDelete_talk (handle : Handle) (name : RefName) :
    ∃ talk, Talked h talk (gitDelete handle name h).state ∧
      DeletionTalk handle.path name.text talk := by
  unfold gitDelete
  dsimp only
  obtain ⟨f, hrun⟩ | hrun := h.runGit_cases handle.path (Git.existenceQuery name.text)
  · rw [hrun]
    exact ⟨[], .nil h, .silent⟩
  · rw [hrun]
    have hasked := Talked.single h ⟨handle.path, Git.existenceQuery name.text⟩
    dsimp only
    split
    next hfound =>
      -- only now is the deletion tried, and it may still not reach the tool
      obtain ⟨hcode, hlisted⟩ := hfound
      obtain ⟨f, hrun'⟩ | hrun' :=
        (h.spoke ⟨handle.path, Git.existenceQuery name.text⟩).runGit_cases handle.path
          (Git.deletion name.text)
      · rw [hrun']
        exact ⟨_, hasked, .asked _⟩
      · rw [hrun']
        have hdeleted := hasked.append (.single _ ⟨handle.path, Git.deletion name.text⟩)
        dsimp only
        split <;> exact ⟨_, hdeleted, .deleted _ _ hcode hlisted⟩
    · exact ⟨_, hasked, .asked _⟩

/-- Counting objects runs one command at most. -/
theorem gitCounts_talk :
    ∃ talk, Talked h talk (h.gitCounts path).2 ∧
      ∀ e ∈ talk, e.command = ⟨path, Git.countQuery⟩ := by
  unfold gitCounts
  obtain ⟨f, hrun⟩ | hrun := h.runGit_cases path Git.countQuery
  · rw [hrun]
    exact ⟨[], .nil h, fun _ he => absurd he List.not_mem_nil⟩
  · rw [hrun]
    exact ⟨_, .single h _, fun e he => by rw [List.mem_singleton.1 he]⟩

/-- Compacting counts objects and collects garbage, and says nothing else. The objects are counted
before and after the collection, as far as it comes to that. -/
theorem gitCompact_talk (expiry : Option Text) (handle : Handle) :
    ∃ talk, Talked h talk (gitCompact expiry handle h).state ∧
      ∀ e ∈ talk, e.command = ⟨handle.path, Git.countQuery⟩ ∨
        e.command = ⟨handle.path, Git.collection expiry⟩ := by
  -- the talk is the count, the collection and the second count, cut off where one of them fails
  obtain ⟨first, hfirst, hcount⟩ := h.gitCounts_talk handle.path
  unfold gitCompact
  split
  next f h₁ heq =>
    rw [heq] at hfirst
    exact ⟨first, hfirst, fun e he => .inl (hcount e he)⟩
  next before h₁ heq =>
    rw [heq] at hfirst
    obtain ⟨f, hrun⟩ | hrun := h₁.runGit_cases handle.path (Git.collection expiry)
    · rw [hrun]
      exact ⟨first, hfirst, fun e he => .inl (hcount e he)⟩
    · rw [hrun]
      have hcollected := hfirst.append (.single h₁ ⟨handle.path, Git.collection expiry⟩)
      have hsaid : ∀ e ∈ first ++ [⟨⟨handle.path, Git.collection expiry⟩, h₁.nextReply⟩],
          e.command = ⟨handle.path, Git.countQuery⟩ ∨
            e.command = ⟨handle.path, Git.collection expiry⟩ :=
        List.forall_mem_append.2
          ⟨fun e he => .inl (hcount e he), fun e he => .inr (by rw [List.mem_singleton.1 he])⟩
      dsimp only
      split
      · -- the garbage is collected, and the objects are counted once more
        obtain ⟨last, hlast, hcount'⟩ :=
          (h₁.spoke ⟨handle.path, Git.collection expiry⟩).gitCounts_talk handle.path
        have hall : ∀ e ∈ first ++ [⟨⟨handle.path, Git.collection expiry⟩, h₁.nextReply⟩] ++ last,
            e.command = ⟨handle.path, Git.countQuery⟩ ∨
              e.command = ⟨handle.path, Git.collection expiry⟩ :=
          List.forall_mem_append.2 ⟨hsaid, fun e he => .inl (hcount' e he)⟩
        split
        next heq => exact ⟨_, hcollected.append (by rwa [heq] at hlast), hall⟩
        next heq => exact ⟨_, hcollected.append (by rwa [heq] at hlast), hall⟩
      · exact ⟨_, hcollected, hsaid⟩

end Host

end RefSweep
