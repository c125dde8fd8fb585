import RefSweep.Host.Run
import RefSweep.Proofs.Git.Names
import RefSweep.Proofs.Git.Talk
import RefSweep.Proofs.Namespace
import RefSweep.Proofs.Protocol

/-!
# What a run does to a git repository

Whatever the tool answers, a run on git storage deletes nothing but what the listing printed for the
peer and what the tool, asked just before, still had. `Permitted` says so of one command, given
those that came before it. Main statement: `pruneNamespace_permitted`, every command of a run is
permitted.
-/

namespace RefSweep

namespace GitCommand

/-- The command deletes references. -/
def Deletes (c : GitCommand) : Prop := c.arguments.head? = some (Text.of "update-ref")

/-- The command removes objects. -/
def Collects (c : GitCommand) : Prop := c.arguments.head? = some (Text.of "gc")

/-- The command asks for all references. -/
def Enumerates (c : GitCommand) : Prop := c.arguments = Git.enumeration

instance (c : GitCommand) : Decidable c.Deletes := inferInstanceAs (Decidable (_ = _))

instance (c : GitCommand) : Decidable c.Collects := inferInstanceAs (Decidable (_ = _))

instance (c : GitCommand) : Decidable c.Enumerates := inferInstanceAs (Decidable (_ = _))

end GitCommand

/-- The command changes nothing and lists nothing. -/
structure GitCommand.Harmless (c : GitCommand) : Prop where
  deletes : ¬ c.Deletes
  collects : ¬ c.Collects
  enumerates : ¬ c.Enumerates

/-- Why a reference may be deleted, given what was said before. -/
structure Justified (peer : Text) (before : List Spoken) (name : RefName) : Prop where
  /-- The name lies in the peer's namespace. -/
  lead : Text.of "namespaces/" ++ peer ++ Text.of "/" <+: name.text ∨
    Text.of "refs/namespaces/" ++ peer ++ Text.of "/" <+: name.text
  parsed : RefName.parse name.text = .ok name
  /-- The listing has printed its bytes. -/
  printed : ∃ e ∈ before, e.command.Enumerates ∧ e.reply.code = 0 ∧
    Utf8.encode name.text <:+: e.reply.out
  /-- The tool was asked for it last, and had it. -/
  found : ∃ earlier query, before = earlier ++ [query] ∧
    query.command.arguments = Git.existenceQuery name.text ∧ query.reply.code = 0 ∧
    name.text ∈ (Git.read query.reply.out).lines

/-- What one command of a run may be, given what was said before. -/
structure Permitted (config : Config) (rid peer : Text) (before : List Spoken) (e : Spoken) :
    Prop where
  /-- It runs in the directory of the repository, whose identifier is accepted. -/
  directory : (∃ id, parseRepository rid = .ok id) ∧
    e.command.directory = config.storageRoot.child rid
  /-- If it deletes, it deletes one reference, and may. -/
  deletion : e.command.Deletes →
    ∃ name, e.command.arguments = Git.deletion name.text ∧ Justified peer before name
  /-- If it changes anything, the run is not dry, and a listing has succeeded. -/
  change : e.command.Deletes ∨ e.command.Collects → config.dryRun = false ∧
    ∃ listing ∈ before, listing.command.Enumerates ∧ listing.reply.listing.failure = none
  /-- There is one listing. -/
  once : e.command.Enumerates → ∀ e' ∈ before, ¬ e'.command.Enumerates

/-! ## Going through what was said -/

/-- Of each command, `P` holds with all that was said before it, `prior` first. -/
def Throughout (P : List Spoken → Spoken → Prop) (prior talk : List Spoken) : Prop :=
  ∀ before e after, talk = before ++ e :: after → P (prior ++ before) e

namespace Throughout

variable {P : List Spoken → Spoken → Prop} {prior talk talk' : List Spoken}

theorem nil : Throughout P prior [] := by
  intro before e after h
  cases before <;> cases h

/-- What holds of the first words, and of the rest with these behind it, holds throughout. -/
theorem cons {e : Spoken} (he : P prior e) (h : Throughout P (prior ++ [e]) talk) :
    Throughout P prior (e :: talk) := by
  intro before e' after heq
  cases before with
  | nil =>
    obtain ⟨rfl, -⟩ := List.cons.inj heq
    rwa [List.append_nil]
  | cons first before =>
    obtain ⟨rfl, htail⟩ := List.cons.inj heq
    have hrest := h before e' after htail
    rwa [List.append_assoc] at hrest

/-- What holds throughout one talk, and throughout a second that has the first behind it, holds
throughout both in a row. -/
theorem append (h : Throughout P prior talk) (h' : Throughout P (prior ++ talk) talk') :
    Throughout P prior (talk ++ talk') := by
  -- the command at the head joins what was said before the rest
  induction talk generalizing prior with
  | nil => rwa [List.append_nil] at h'
  | cons e talk ih =>
    have he := h [] e talk rfl
    rw [List.append_nil] at he
    refine cons he (ih (fun before e' after heq => ?_) (by rwa [List.append_assoc]))
    have hrest := h (e :: before) e' after (by rw [heq]; rfl)
    rwa [List.append_assoc]

/-- What holds of each command whatever was said since `prior`. -/
theorem of_forall (h : ∀ e ∈ talk, ∀ since, P (prior ++ since) e) : Throughout P prior talk :=
  fun before e after heq => h e (by simp [heq]) before

end Throughout

/-! ## One command at a time -/

namespace Git

/-- The question where the git directory is deletes nothing and collects nothing. -/
theorem harmless_openingQuery (path : Path) :
    GitCommand.Harmless ⟨path, ["rev-parse", "--git-dir"]⟩ where
  deletes h := absurd (Option.some.inj h) (by decide)
  collects h := absurd (Option.some.inj h) (by decide)
  enumerates h := absurd (List.cons.inj h).1 (by decide)

/-- Nor does the question how many objects there are. -/
theorem harmless_countQuery (path : Path) : GitCommand.Harmless ⟨path, countQuery⟩ where
  deletes h := absurd (Option.some.inj h) (by decide)
  collects h := absurd (Option.some.inj h) (by decide)
  enumerates h := absurd (List.cons.inj h).1 (by decide)

/-- The query for one name begins like the listing, and is shorter. -/
theorem harmless_existenceQuery (path : Path) (name : Text) :
    GitCommand.Harmless ⟨path, existenceQuery name⟩ where
  deletes h := absurd (Option.some.inj h) (by decide)
  collects h := absurd (Option.some.inj h) (by decide)
  enumerates h := by cases congrArg List.length h

end Git

section Commands

variable {config : Config} {rid peer : Text} {id : Identifier} {owner : Peer}
  {prior before : List Spoken} {e : Spoken} (hrid : parseRepository rid = .ok id)

include hrid

/-- A command that changes nothing and lists nothing is permitted at any time. -/
theorem permitted_of_harmless (hdirectory : e.command.directory = config.storageRoot.child id.text)
    (hharmless : e.command.Harmless) : Permitted config rid peer before e where
  directory := ⟨⟨id, hrid⟩, text_parseRepository hrid ▸ hdirectory⟩
  deletion h := absurd h hharmless.deletes
  change h := absurd h (not_or.2 ⟨hharmless.deletes, hharmless.collects⟩)
  once h := absurd h hharmless.enumerates

/-- The listing is permitted if there was none, and there is one in each run. -/
theorem permitted_of_enumerates
    (hcommand : e.command = ⟨config.storageRoot.child id.text, Git.enumeration⟩)
    (hfirst : ∀ e' ∈ before, ¬ e'.command.Enumerates) : Permitted config rid peer before e where
  directory := ⟨⟨id, hrid⟩, by rw [hcommand, text_parseRepository hrid]⟩
  deletion h := by
    rw [hcommand] at h
    exact absurd (Option.some.inj h) (by decide)
  change h := by
    rw [hcommand] at h
    rcases h with h | h <;> exact absurd (Option.some.inj h) (by decide)
  once _ := hfirst

/-- `listed` is a complete listing that was printed before, in a run that is not dry. -/
structure Ready (config : Config) (before : List Spoken) (listed : Spoken) : Prop where
  wet : config.dryRun = false
  enumerates : listed.command.Enumerates
  complete : listed.reply.listing.failure = none
  printed : listed ∈ before

omit hrid in
theorem Ready.append {listed : Spoken} (h : Ready config before listed) (since : List Spoken) :
    Ready config (before ++ since) listed :=
  ⟨h.wet, h.enumerates, h.complete, List.mem_append_left _ h.printed⟩

omit hrid in
/-- A listing without a failure comes from a reply of status zero, and is what the lines of its
output are parsed to. -/
theorem code_of_complete {r : GitReply} (h : r.listing.failure = none) :
    r.code = 0 ∧ r.listing = Git.parseListing (Git.read r.out).lines := by
  unfold GitReply.listing at h ⊢
  split at h
  next hcode => exact ⟨hcode, if_pos hcode⟩
  · cases h

/-- Collecting garbage is permitted after a complete listing. -/
theorem permitted_of_collects {expiry : Option Text} {listed : Spoken}
    (hready : Ready config before listed)
    (hcommand : e.command = ⟨config.storageRoot.child id.text, Git.collection expiry⟩) :
    Permitted config rid peer before e where
  directory := ⟨⟨id, hrid⟩, by rw [hcommand, text_parseRepository hrid]⟩
  deletion h := by
    rw [hcommand] at h
    exact absurd (Option.some.inj h) (by decide)
  change _ := ⟨hready.wet, listed, hready.printed, hready.enumerates, hready.complete⟩
  once h := by
    rw [hcommand] at h
    exact absurd (List.cons.inj h).1 (by decide)

/-- What a compaction says is permitted after a complete listing. -/
theorem compactionTalk_permitted {listed : Spoken} {expiry : Option Text} {talk : List Spoken}
    (hready : Ready config prior listed)
    (htalk : ∀ e ∈ talk, e.command = ⟨config.storageRoot.child id.text, Git.countQuery⟩ ∨
      e.command = ⟨config.storageRoot.child id.text, Git.collection expiry⟩) :
    Throughout (Permitted config rid peer) prior talk := by
  refine .of_forall fun e he since => ?_
  rcases htalk e he with hcommand | hcommand
  · refine permitted_of_harmless hrid (by rw [hcommand]) ?_
    rw [hcommand]
    exact Git.harmless_countQuery _
  · exact permitted_of_collects hrid (hready.append since) hcommand

variable (hpeer : Peer.parse peer = .ok owner)

include hpeer

/-- What a deletion says is permitted if the reference is an owned one of the listing. The query and
the deletion are spoken to the same directory, one right after the other. -/
theorem deletionTalk_permitted {listed : Spoken} {r : Reference} {talk : List Spoken}
    (hready : Ready config prior listed) (hr : r ∈ owner.owned listed.reply.listing.references)
    (htalk : Host.DeletionTalk (config.storageRoot.child id.text) r.name.text talk) :
    Throughout (Permitted config rid peer) prior talk := by
  have hquery (before : List Spoken) (reply : GitReply) : Permitted config rid peer before
      ⟨⟨config.storageRoot.child id.text, Git.existenceQuery r.name.text⟩, reply⟩ :=
    permitted_of_harmless hrid rfl (Git.harmless_existenceQuery _ _)
  cases htalk with
  | silent => exact .nil
  | asked reply => exact .cons (hquery _ reply) .nil
  | deleted reply reply' hfound hlisted =>
    refine .cons (hquery _ reply) (.cons ?_ .nil)
    -- where the name comes from: a line of the listing, which was printed
    obtain ⟨hmem, howns⟩ := List.mem_filter.1 hr
    obtain ⟨hcode, hlisting⟩ := code_of_complete hready.complete
    rw [hlisting] at hmem
    obtain ⟨hparse, line, hline, hsuffix⟩ := Git.mem_parseListing hmem
    have hready := hready.append
      [⟨⟨config.storageRoot.child id.text, Git.existenceQuery r.name.text⟩, reply⟩]
    exact {
      directory := ⟨⟨id, hrid⟩, by rw [text_parseRepository hrid]⟩
      deletion := fun _ => ⟨r.name, rfl, {
        lead := text_parsePeer hpeer ▸ Peer.isPrefix_text_of_owns howns
        parsed := hparse
        printed := ⟨listed, hready.printed, hready.enumerates, hcode,
          Git.encode_isInfix_of_line hline hsuffix.isInfix⟩
        found := ⟨prior, _, rfl, rfl, hfound, hlisted⟩ }⟩
      change := fun _ => ⟨hready.wet, listed, hready.printed, hready.enumerates, hready.complete⟩
      once := fun h => absurd (List.cons.inj h).1 (by decide) }

/-- All that is said after a complete listing is permitted, as long as nothing is asked for but
deletions of owned references, compactions and the closing. -/
theorem exchanged_permitted (listed : Spoken) {expiry : Option Text} {handle : Handle} {s t : Host}
    {exchanges : List Exchange} (hpath : handle.path = config.storageRoot.child id.text)
    (hex : Exchanged (Host.gitStorage expiry) handle s exchanges t)
    (hcalls : ∀ e ∈ exchanges, (∃ r ∈ owner.owned listed.reply.listing.references,
      e.call = .deleted r.name) ∨ e.call = .compacted ∨ e.call = .closed) :
    ∃ talk, Talked s talk t ∧ ∀ prior, Ready config prior listed →
      Throughout (Permitted config rid peer) prior talk := by
  induction hex with
  | nil s => exact ⟨[], .nil s, fun _ _ => .nil⟩
  | @cons s u t e rest first others ih =>
    obtain ⟨talk', htalk', hlater⟩ := ih fun e he => hcalls e (.tail _ he)
    -- what the first of these calls says, by the kind of call
    have hnow : ∃ talk, Talked s talk u ∧ ∀ prior, Ready config prior listed →
        Throughout (Permitted config rid peer) prior talk := by
      have hcall := hcalls e (.head _)
      cases first with
      | listed => obtain ⟨_, _, h⟩ | h | h := hcall <;> cases h
      | deleted name =>
        obtain ⟨r, hr, hname⟩ | h | h := hcall
        · obtain rfl := Call.deleted.inj hname
          obtain ⟨talk, htalk, hsaid⟩ := Host.gitDelete_talk s handle r.name
          rw [hpath] at hsaid
          exact ⟨talk, htalk, fun prior hready => deletionTalk_permitted hrid hpeer hready hr hsaid⟩
        · cases h
        · cases h
      | compacted =>
        obtain ⟨talk, htalk, hsaid⟩ := Host.gitCompact_talk s expiry handle
        rw [hpath] at hsaid
        exact ⟨talk, htalk, fun prior hready => compactionTalk_permitted hrid hready hsaid⟩
      | closed => exact ⟨[], .nil s, fun _ _ => .nil⟩
    obtain ⟨talk, htalk, hfirst⟩ := hnow
    exact ⟨talk ++ talk', htalk.append htalk', fun prior hready =>
      (hfirst prior hready).append (hlater _ (hready.append talk))⟩

/-- All that an open repository is asked in a run is permitted after its opening: the listing first,
and the rest only once that is complete and the run is not dry. -/
theorem conversation_permitted {expiry : Option Text} {handle : Handle} {s t : Host}
    {observer : Option Observer} {exchanges : List Exchange} {closing : Option Failure}
    {result : Except Failure PruneResult} (hpath : handle.path = config.storageRoot.child id.text)
    (hex : Exchanged (Host.gitStorage expiry) handle s (exchanges ++ [⟨.closed, closing⟩]) t)
    (hconv : Conversation config id owner observer (s.gitReferences handle).1 exchanges result)
    (hfirst : ∀ e ∈ prior, ¬ e.command.Enumerates) :
    ∃ talk, Talked s talk t ∧ Throughout (Permitted config rid peer) prior talk := by
  -- the listing comes first, and nothing else has been enumerated before
  obtain ⟨rest, rfl, hrest⟩ := hconv.calls
  obtain ⟨u, first, others⟩ := hex.of_cons
  obtain ⟨-, rfl⟩ := first.of_listed
  obtain ⟨htalk, hfailed⟩ | ⟨reply, htalk, hlisting⟩ := s.gitReferences_talk handle
  · -- the tool was not reached, so there is nothing to go on with
    obtain rfl | ⟨hlisted, -⟩ := hrest
    · obtain ⟨-, rfl⟩ := others.of_single.of_closed
      exact ⟨[], htalk, .nil⟩
    · exact absurd hlisted hfailed
  · rw [hpath] at htalk
    have hlist : Throughout (Permitted config rid peer) prior
        [⟨⟨config.storageRoot.child id.text, Git.enumeration⟩, reply⟩] :=
      .cons (permitted_of_enumerates hrid rfl hfirst) .nil
    obtain rfl | ⟨hlisted, hwet, hcalls⟩ := hrest
    · obtain ⟨-, rfl⟩ := others.of_single.of_closed
      exact ⟨_, htalk, hlist⟩
    · -- the listing is complete, and the run not dry: the listing permits the rest
      rw [hlisting] at hlisted hcalls
      obtain ⟨talk, hlater, hpermitted⟩ := exchanged_permitted hrid hpeer
        ⟨⟨config.storageRoot.child id.text, Git.enumeration⟩, reply⟩ hpath others fun e he => by
          rcases List.mem_append.1 he with he | he
          · exact (hcalls e he).imp_right .inl
          · rw [List.mem_singleton.1 he]
            exact .inr (.inr rfl)
      refine ⟨_, htalk.append hlater, hlist.append (hpermitted _ ⟨hwet, rfl, hlisted, ?_⟩)⟩
      exact List.mem_append_right _ (.head _)

/-- All that a run says is permitted once the identifiers are accepted and the storage is found. -/
theorem picked_permitted {expiry : Option Text}
    {pick : Identifier → Host → Answer Host (Storage Host Handle)} {h : Host}
    {observer : Option Observer} (hsame : (pick id h).state = h)
    (hpick : (pick id h).result = .ok (Host.gitStorage expiry)) :
    ∃ talk, Talked h talk (pruneNamespace pick config rid peer observer h).after ∧
      Throughout (Permitted config rid peer) [] talk := by
  obtain ⟨⟨opening, htalk, hsaid⟩, hpath⟩ := h.openGit_talk config.storageRoot id
  -- opening asks one harmless question
  have hharmless : ∀ e ∈ opening, e.command.Harmless := by
    intro e he
    rw [hsaid e he]
    exact Git.harmless_openingQuery _
  have hopening : Throughout (Permitted config rid peer) [] opening :=
    .of_forall fun e he since =>
      permitted_of_harmless hrid (by rw [hsaid e he]) (hharmless e he)
  have hfirst : ∀ e ∈ opening, ¬ e.command.Enumerates := fun e he => (hharmless e he).enumerates
  have hopen : (Host.gitStorage expiry).openRepository config.storageRoot id (pick id h).state =
      Host.openGit config.storageRoot id h := by rw [hsame]; rfl
  cases hresult : (Host.openGit config.storageRoot id h).result with
  | error f =>
    rw [← hopen] at hresult
    have hafter : (pruneNamespace pick config rid peer observer h).after = _ :=
      (pruneNamespace_unopened hrid hpeer hpick hresult).2.2
    rw [hafter, hopen]
    exact ⟨opening, htalk, hopening⟩
  | ok handle =>
    have hhandle := hpath handle hresult
    rw [← hopen] at hresult
    obtain ⟨exchanges, closing, result, -, hex, hconv, -⟩ :=
      pruneNamespace_opened hrid hpeer hpick hresult
    rw [hopen] at hex hconv
    obtain ⟨talk, hlater, hpermitted⟩ :=
      conversation_permitted hrid hpeer hhandle hex hconv hfirst
    exact ⟨opening ++ talk, htalk.append hlater, hopening.append hpermitted⟩

end Commands

/-- Every command that a run on git storage issues is permitted, whatever the tool answers to any of
them; a dry run, and one without a complete listing, issue none that changes anything. -/
theorem pruneNamespace_permitted (expiry : Option Text)
    (pick : Identifier → Host → Answer Host (Storage Host Handle)) (h : Host)
    (hpick : ∀ id, (pick id h).state = h ∧
      ∀ storage, (pick id h).result = .ok storage → storage = Host.gitStorage expiry)
    (config : Config) (rid peer : Text) (observer : Option Observer) :
    let run := pruneNamespace pick config rid peer observer h
    ∃ talk, Talked h talk run.after ∧
      run.after.git.issued = h.git.issued ++ talk.map (·.command) ∧
      (∀ before e after, talk = before ++ e :: after → Permitted config rid peer before e) ∧
      ((config.dryRun = true ∨
          ∀ e ∈ talk, e.command.Enumerates → e.reply.listing.failure ≠ none) →
        ∀ e ∈ talk, ¬ e.command.Deletes ∧ ¬ e.command.Collects) := by
  intro run
  have hsilent : run.after = h → ∃ talk, Talked h talk run.after ∧
      Throughout (Permitted config rid peer) [] talk := fun hafter =>
    ⟨[], by rw [hafter]; exact .nil h, .nil⟩
  have hsafe : ∃ talk, Talked h talk run.after ∧
      Throughout (Permitted config rid peer) [] talk := by
    cases hrid : parseRepository rid with
    | error e => exact hsilent (congrArg Run.after (pruneNamespace_of_bad_repository hrid))
    | ok id =>
      cases hpeer : Peer.parse peer with
      | error e => exact hsilent (congrArg Run.after (pruneNamespace_of_bad_peer hrid hpeer))
      | ok owner =>
        obtain ⟨hsame, hgit⟩ := hpick id
        cases hpicked : (pick id h).result with
        | error f =>
          obtain ⟨-, -, hafter⟩ := pruneNamespace_unpicked hrid hpeer hpicked
          exact hsilent (hafter.trans hsame)
        | ok storage =>
          obtain rfl := hgit storage hpicked
          exact picked_permitted hrid hpeer hsame hpicked
  obtain ⟨talk, htalk, hpermitted⟩ := hsafe
  have hall : ∀ before e after, talk = before ++ e :: after → Permitted config rid peer before e :=
    hpermitted
  refine ⟨talk, htalk, htalk.issued, hall, fun hidle e he => ?_⟩
  obtain ⟨before, after, hsplit⟩ := List.append_of_mem he
  have hchange := (hall before e after hsplit).change
  -- what changes anything comes after a complete listing, and not in a dry run
  have hnone : ¬ (e.command.Deletes ∨ e.command.Collects) := by
    intro hchanges
    obtain ⟨hwet, listing, hlisting, henumerates, hcomplete⟩ := hchange hchanges
    rcases hidle with hdry | hfailed
    · rw [hwet] at hdry
      cases hdry
    · refine hfailed listing ?_ henumerates hcomplete
      rw [hsplit]
      exact List.mem_append_left _ hlisting
  exact not_or.1 hnone

/-- Where git is asked for, a run on a host takes git storage, and choosing it says nothing. -/
theorem Host.pick_git {config : Config} (h : Host) (hbackend : config.backend = .git)
    (id : Identifier) : (Host.pick config id h).state = h ∧
      ∀ storage, (Host.pick config id h).result = .ok storage → storage = Host.gitStorage none := by
  unfold Host.pick Host.select
  rw [hbackend]
  split
  next hselect => exact ⟨rfl, nofun⟩
  next kind log hselect =>
    split at hselect
    · cases hselect
    · obtain rfl : StorageKind.git = kind := congrArg Prod.fst (Except.ok.inj hselect)
      exact ⟨rfl, fun storage hok => (Except.ok.inj hok).symm⟩

namespace Sample

/-- Runs that insist on git. -/
def gitConfig : Config := ⟨⟨.slash, ["home"]⟩, .git, 1, .zero, false, by decide, rfl⟩

def gitDirectory : Path := gitConfig.storageRoot.child "repo"

/-- A host with a bare repository, whose tool lists a name with a byte that spells nothing. -/
def gitHost : Host where
  files := ⟨[(⟨.slash, ["home"]⟩, .directory), (gitConfig.storageRoot, .directory),
    (gitDirectory, .directory), (gitDirectory.child "HEAD", .file []),
    (gitDirectory.child "objects", .directory)]⟩
  git :=
    { available := true
      replies := [⟨0, [], []⟩, ⟨0, Utf8.encode "1 namespaces/alice/" ++ [0xFF, 0x0A], []⟩,
        ⟨0, Utf8.encode "namespaces/alice/" ++ [0xFF, 0x0D, 0x0A], []⟩]
      issued := [] }
  refusals := []

end Sample

open Sample in
/-- In a run on the example repository a deletion is issued, and all that is said to git is
permitted. -/
theorem pruneNamespace_permitted_sample :
    (∃ c ∈ (Host.prune gitConfig "repo" "alice" none gitHost).after.git.issued, c.Deletes) ∧
      ∃ talk, Talked gitHost talk (Host.prune gitConfig "repo" "alice" none gitHost).after ∧
        ∀ before e after, talk = before ++ e :: after →
          Permitted gitConfig "repo" "alice" before e := by
  obtain ⟨talk, htalk, -, hpermitted, -⟩ := pruneNamespace_permitted none (Host.pick gitConfig)
    gitHost (Host.pick_git gitHost rfl) gitConfig "repo" "alice" none
  exact ⟨by decide +kernel, talk, htalk, hpermitted⟩

end RefSweep
