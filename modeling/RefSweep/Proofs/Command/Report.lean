import RefSweep.Command.Report
import RefSweep.Proofs.Namespace
import RefSweep.Proofs.Text.Digits
import RefSweep.Proofs.Text.Echo
import RefSweep.Proofs.Text.Split
import RefSweep.Proofs.Text.Terminal

/-!
# What the reports say

The lines that the command prints about names that can be read. Such a name holds neither a bracket
nor a backslash nor a control character, so it is shown the same in a plain line and in a line of
markup, and the lines of some names tell which names they are (`Report.record_inj`). Every line of
markup of the command can be shown, whatever the messages of the errors are.
-/

namespace RefSweep

/-! ## Names as they are shown -/

namespace RefName

variable {n m : RefName}

theorem plain_text (h : parse n.text = .ok n) : n.text.Plain := fun _ hg =>
  Nat.le_of_lt (Glyph.code_of_not_forbidden (not_forbidden h hg))

theorem bracket_notMem_text (h : parse n.text = .ok n) : Glyph.char '[' ∉ n.text := fun hmem =>
  absurd (not_forbidden h hmem) (by decide)

/-- A name that can be read holds no backslash, so a backslash in what is shown stands for a byte
that is no character. -/
theorem backslash_notMem_text (h : parse n.text = .ok n) : Glyph.char '\x5c' ∉ n.text :=
  fun hmem => absurd (not_forbidden h hmem) (by decide)

theorem bracket_notMem_display (h : parse n.text = .ok n) : Glyph.char '[' ∉ n.text.display :=
  Text.char_notMem_display (by decide) (bracket_notMem_text h)

/-- A name that can be read needs no escaping, so it looks the same in a plain line and in a line of
markup. -/
theorem escape_display (h : parse n.text = .ok n) :
    Markup.escape n.text.display = n.text.display :=
  Markup.escape_plain (bracket_notMem_display h)
    (Text.not_isSuffix_display (backslash_notMem_text h))

theorem eq_of_display_eq (hn : parse n.text = .ok n) (hm : parse m.text = .ok m)
    (h : n.text.display = m.text.display) : n = m :=
  eq_of_text_eq hn hm (Text.display_inj (backslash_notMem_text hn) (backslash_notMem_text hm) h)

end RefName

theorem Identifier.bracket_notMem_text (id : Identifier) : Glyph.char '[' ∉ id.text := by
  obtain ⟨-, -, -, -, -, hnone⟩ := Segment.fault?_eq_none_iff.1 id.isSegment.2
  exact fun hmem => hnone ⟨_, hmem, by decide⟩

/-- The digits of a number are plain. -/
theorem Text.plain_ofNat (n : Nat) : (Text.ofNat n).Plain := fun g hg => by
  obtain ⟨c, rfl, hc⟩ := isDigit_of_mem_ofNat hg
  have hlow : '0'.toNat ≤ c.toNat := (Bool.and_eq_true_iff.1 hc).1 |> of_decide_eq_true
  exact Nat.le_trans (by decide) hlow

/-! ## Words in a style -/

namespace Markup

variable {styles : List Text} {word u : Text}

/-- The tags of the styles that the command uses show nothing. The first one opens its style and the
other one closes it. -/
theorem shows_style {style : Text} (hstyle : style ∈ [Text.of "red", "yellow", "dim"]) :
    Shows [] (.char '[' :: style ++ [.char ']']) [style] [] ∧
      Shows [style] (.char '[' :: (.char '/' :: style) ++ [.char ']']) [] [] := by
  simp only [List.mem_cons, List.not_mem_nil, or_false] at hstyle
  rcases hstyle with rfl | rfl | rfl <;>
    exact ⟨.tag (by decide) (fun _ => rfl) fun _ => rfl,
      .tag (by decide) (fun _ => rfl) fun _ => rfl⟩

/-- A word in a style shows as the word. -/
theorem Shows.styled {style : Text} (hstyle : style ∈ [Text.of "red", "yellow", "dim"])
    (hword : Shows [style] word [style] u) :
    Shows [] (.char '[' :: style ++ [.char ']'] ++ word ++
      (.char '[' :: (.char '/' :: style) ++ [.char ']'])) [] u := by
  obtain ⟨hopen, hclose⟩ := shows_style hstyle
  simpa using (hopen.append hword).append hclose

end Markup

/-! ## The lines -/

namespace Report

variable {o : DeletionOutcome} {name other : RefName} {word t u rest : Text}

/-- The line of a name after some words. -/
def named (channel : Channel) (word : Text) (name : RefName) : Printed :=
  ⟨channel, word ++ name.text.display ++ [.char '\n']⟩

/-- A plain line about a name that can be read is the words and the name as they are. -/
theorem plainLine_name (channel : Channel) (hword : word.Plain)
    (hname : RefName.parse name.text = .ok name) :
    plainLine channel (word ++ name.text.display) = named channel word name := by
  have hplain := hword.append (RefName.plain_text hname).display
  rw [plainLine, Text.onTerminal_plain hplain]
  rfl

/-- The lines of these names. -/
def record (word : Text) (names : List RefName) : Text :=
  names.flatMap fun name => (named .out word name).text

/-- Names that can be read are shown without line feeds, so their lines can be told apart. -/
theorem record_inj (hword : Glyph.char '\n' ∉ word) {names names' : List RefName}
    (hnames : ∀ name ∈ names, RefName.parse name.text = .ok name)
    (hnames' : ∀ name ∈ names', RefName.parse name.text = .ok name)
    (h : record word names = record word names') : names = names' := by
  let shown (name : RefName) : Text := word ++ name.text.display
  -- cutting at the line feeds gives the shown names back
  have hsplit : ∀ {l : List RefName}, (∀ name ∈ l, RefName.parse name.text = .ok name) →
      Text.split (.char '\n') (record word l) = l.map shown ++ [[]] := by
    intro l hl
    have hlines : record word l = (l.map shown).flatMap (· ++ [.char '\n']) := by
      rw [List.flatMap_map]
      rfl
    rw [hlines]
    refine Text.split_terminated fun line hline hfeed => ?_
    obtain ⟨name, hname, rfl⟩ := List.mem_map.1 hline
    rcases List.mem_append.1 hfeed with hfeed | hfeed
    · exact hword hfeed
    · exact (RefName.plain_text (hl name hname)).display.notMem (by decide) hfeed
  -- so equal records have equal names as they are shown, one by one
  have hshown : names.map shown = names'.map shown := by
    have hpieces := congrArg (Text.split (.char '\n')) h
    rw [hsplit hnames, hsplit hnames'] at hpieces
    exact List.append_cancel_right hpieces
  clear h hsplit
  induction names generalizing names' with
  | nil => exact (List.map_eq_nil_iff.1 hshown.symm).symm
  | cons name rest ih =>
    cases names' with
    | nil => cases hshown
    | cons name' rest' =>
      obtain ⟨hfirst, hrest⟩ := List.cons.inj hshown
      have hsame : name = name' := RefName.eq_of_display_eq (hnames name (.head _))
        (hnames' name' (.head _)) (List.append_cancel_left hfirst)
      rw [hsame, ih (fun n hn => hnames n (.tail _ hn)) (fun n hn => hnames' n (.tail _ hn)) hrest]

/-- The line of a deletion that succeeded goes to standard output. -/
theorem deletion_success (hname : RefName.parse o.name.text = .ok o.name)
    (hdeleted : o.deleted = true) : deletion o = .ok (named .out "Deleted " o.name) := by
  rw [deletion, if_pos hdeleted]
  exact congrArg Except.ok (plainLine_name .out (by decide) hname)

/-- How the lines about deletions begin. -/
def deletionWords : List Text := ["Deleted ", "Failed to delete ", "Would delete "]

/-- A line on standard error that is not about a deletion. -/
structure Aside (p : Printed) : Prop where
  channel : p.channel = .err
  other : ∀ word ∈ deletionWords, ¬ word <+: p.text

/-- A line on standard error that begins with a text which none of the words about deletions begins
with, and which begins none of them, is about something else. -/
theorem Aside.of_begins {p : Printed} (hchannel : p.channel = .err) (hbegins : t <+: p.text)
    (hother : ∀ word ∈ deletionWords, ¬ word <+: t ∧ ¬ t <+: word) : Aside p where
  channel := hchannel
  other word hword hprefix := by
    obtain ⟨hlong, hshort⟩ := hother word hword
    rcases List.prefix_or_prefix_of_prefix hprefix hbegins with h | h
    · exact hlong h
    · exact hshort h

/-- The usage line is not about a deletion, whatever the name of the program is. -/
theorem aside_usage (program : Text) : Aside (usage program) := by
  let rest := program ++ Text.of " <rid> <nid>"
  have hbegins : Text.of "usage: " <+: (Text.of "usage: " ++ rest).onTerminal :=
    Text.isPrefix_onTerminal (by decide) rest
  rw [← List.append_assoc] at hbegins
  exact .of_begins rfl (hbegins.trans (List.prefix_append ..)) (by decide)

/-- A log line is not about a deletion: it begins with its level. -/
theorem aside_logLine (l : LogLine) : Aside (logLine l) := by
  have hbegins : levelName l.level <+: (logLine l).text := by
    simp only [logLine, List.append_assoc]
    exact List.prefix_append ..
  refine .of_begins rfl hbegins ?_
  cases l.level <;> decide

/-- A line of markup begins on the terminal as its front shows, if that is plain. -/
theorem markupLine_ok (hshows : Markup.Shows [] t [] u) (hplain : u.Plain)
    (hrest : Markup.Showable [] rest) :
    ∃ printed, markupLine (t ++ rest) = .ok printed ∧ printed.channel = .err ∧
      u <+: printed.text := by
  obtain ⟨more, hmore⟩ := hshows.ok hrest 0
  refine ⟨plainLine .err (u ++ more), ?_, rfl, ?_⟩
  · rw [markupLine, Markup.render, hmore]
    rfl
  · exact (Text.isPrefix_onTerminal hplain more).trans (List.prefix_append ..)

/-- The word in front of every error is shown without its style. -/
theorem shows_error : Markup.Shows [] (Text.of "[red]Error:[/red] ") [] (Text.of "Error: ") := by
  have hword : Markup.Shows [Text.of "red"] (Text.of "Error:") [Text.of "red"] (Text.of "Error:") :=
    .word (by decide) (by decide)
  have hspace : Markup.Shows [] (Text.of " ") [] (Text.of " ") := .word (by decide) (by decide)
  exact (Markup.Shows.styled (by decide) hword).append hspace

/-- Every message of an error can be shown, and its line is not about a deletion. -/
theorem error_ok (message : Text) : ∃ printed, error message = .ok printed ∧ Aside printed := by
  have hrest : Markup.Showable [] (Markup.escape message ++ []) := Markup.showable_escape rfl .nil
  rw [List.append_nil] at hrest
  obtain ⟨printed, hok, herr, hbegins⟩ := markupLine_ok shows_error (by decide) hrest
  exact ⟨printed, hok, .of_begins herr hbegins (by decide)⟩

/-- The hint that a deletion may be tried again stands apart from the reason before it. So the
reason can end in anything, a backslash included. -/
theorem shows_retryable (retryable : Bool) :
    let hint := if retryable then Text.of " [dim](retryable)[/dim]" else []
    Markup.Shows [] hint [] (if retryable then Text.of " (retryable)" else []) ∧
      Markup.Apart hint := by
  cases retryable with
  | false => exact ⟨.word List.not_mem_nil List.not_mem_nil, .nil⟩
  | true =>
    have hspace : Markup.Shows [] (Text.of " ") [] (Text.of " ") := .word (by decide) (by decide)
    have hword : Markup.Shows [Text.of "dim"] (Text.of "(retryable)") [Text.of "dim"]
        (Text.of "(retryable)") := .word (by decide) (by decide)
    refine ⟨hspace.append (Markup.Shows.styled (by decide) hword), fun g u heq => ?_, rfl⟩
    rw [← (List.cons.inj heq).1]
    exact ⟨by decide, by decide⟩

/-- What may come after the reason of a failed deletion closes no bracket that the reason opens. -/
theorem follows_retryable (retryable : Bool) :
    let rest := if retryable then Text.of " [dim](retryable)[/dim]" else []
    Markup.closes rest = false ∧ Markup.Follows [] rest := by
  obtain ⟨hshows, hapart⟩ := shows_retryable retryable
  have hshown := hshows.showable Markup.Follows.nil.showable
  rw [List.append_nil] at hshown
  exact ⟨hapart.closes, .of_apart hapart hshown⟩

/-- The front of the line of a failed deletion, up to the reason. -/
theorem shows_failed (hname : RefName.parse name.text = .ok name) :
    Markup.Shows [] (Text.of "[red]Failed[/red] to delete " ++ (name.text.display ++ Text.of ": "))
      [] (Text.of "Failed to delete " ++ (name.text.display ++ Text.of ": ")) := by
  have hword : Markup.Shows [Text.of "red"] (Text.of "Failed") [Text.of "red"] (Text.of "Failed") :=
    .word (by decide) (by decide)
  have hto : Markup.Shows [] (Text.of " to delete ") [] (Text.of " to delete ") :=
    .word (by decide) (by decide)
  have hspace : Markup.Shows [] (Text.of " ") [] (Text.of " ") := .word (by decide) (by decide)
  -- the colon takes up the backslashes that the name is shown with
  have hcolon : Markup.Shows [] (name.text.display ++ [Glyph.char ':']) []
      (name.text.display ++ [Glyph.char ':']) :=
    .plain (RefName.bracket_notMem_display hname) (by decide) (by decide)
  have hshown := hcolon.append hspace
  rw [List.append_assoc] at hshown
  exact ((Markup.Shows.styled (by decide) hword).append hto).append hshown

/-- What a failure is put down to, in characters. -/
def reasonOf : Option Text → Text
  | some (g :: t) => Text.display (g :: t)
  | _ => "unknown error"

/-- The line of a failure is the word, the name, a reason and a hint. -/
theorem deletion_of_failed (hname : RefName.parse o.name.text = .ok o.name)
    (hfailed : o.deleted = false) :
    deletion o = markupLine (Text.of "[red]Failed[/red] to delete " ++
      (o.name.text.display ++ Text.of ": ") ++ (Markup.escape (reasonOf o.error) ++
        if o.retryable then Text.of " [dim](retryable)[/dim]" else [])) := by
  have hassoc : ∀ word name colon reason hint : Text,
      word ++ name ++ colon ++ reason ++ hint = word ++ (name ++ colon) ++ (reason ++ hint) := by
    simp only [List.append_assoc, implies_true]
  rw [deletion, if_neg (by simp [hfailed]), RefName.escape_display hname]
  exact congrArg markupLine (hassoc ..)

/-- The line of a deletion that failed can be shown, whatever the reason is; it goes to standard
error and begins with the name. -/
theorem deletion_failure (hname : RefName.parse o.name.text = .ok o.name)
    (hfailed : o.deleted = false) :
    ∃ printed, deletion o = .ok printed ∧ printed.channel = .err ∧
      Text.of "Failed to delete " ++ (o.name.text.display ++ Text.of ": ") <+: printed.text := by
  have hplain : (Text.of "Failed to delete " ++ (o.name.text.display ++ Text.of ": ")).Plain :=
    .append (by decide) ((RefName.plain_text hname).display.append (by decide))
  obtain ⟨hcloses, hfollows⟩ := follows_retryable o.retryable
  rw [deletion_of_failed hname hfailed]
  exact markupLine_ok (shows_failed hname) hplain (Markup.showable_escape hcloses hfollows)

/-- A compaction prints nothing, or one line about an error. It never fails to print, whatever the
error says. -/
theorem compaction_ok (c : CompactionResult) :
    ∃ printed, compaction c = .ok printed ∧ ∀ p ∈ printed, Aside p := by
  unfold compaction
  split
  · exact ⟨[], rfl, fun p hp => absurd hp List.not_mem_nil⟩
  · obtain ⟨printed, hok, haside⟩ := error_ok ("Compaction failed: " ++
      c.error.getD "None" ++ if c.retryable then Text.of " (retryable, re-run to compact)" else [])
    rw [hok]
    refine ⟨[printed], rfl, fun p hp => ?_⟩
    rw [List.mem_singleton.1 hp]
    exact haside

/-- The summary can be printed, goes to standard error and begins with the number of deletions, so
no word about a deletion begins it. -/
theorem summary_ok {r : PruneResult} (hrepository : Glyph.char '[' ∉ r.repository) :
    ∃ printed, summary r = .ok printed ∧ Aside printed := by
  let failed := Text.ofNat r.failed.length ++ Text.of " failed"
  let count := Text.ofNat r.deleted.length ++ (Text.of " deleted, " ++ failed)
  -- a number holds no bracket and no backslash, so it is shown as it is inside the style
  have hnumber : ∀ n, Markup.Shows [Text.of "yellow"] (Text.ofNat n) [Text.of "yellow"]
      (Text.ofNat n) := fun _ => .word (Text.notMem_ofNat rfl) (Text.notMem_ofNat rfl)
  have hwords : Markup.Shows [Text.of "yellow"] count [Text.of "yellow"] count :=
    (hnumber _).append (.append (.word (by decide) (by decide))
      (.append (hnumber _) (.word (by decide) (by decide))))
  have hin : Markup.Shows [] (Text.of " in ") [] (Text.of " in ") := .word (by decide) (by decide)
  have hplain : (count ++ Text.of " in ").Plain :=
    .append (.append (Text.plain_ofNat _) (.append (by decide)
      (.append (Text.plain_ofNat _) (by decide)))) (by decide)
  have hpeer : Markup.Showable [] (Markup.escape r.peer ++ []) := Markup.showable_escape rfl .nil
  have hword : Markup.Shows [] (Text.of "for peer ") [] (Text.of "for peer ") :=
    .word (by decide) (by decide)
  have hfor :
      Markup.Follows [] (.char ' ' :: (Text.of "for peer " ++ (Markup.escape r.peer ++ []))) :=
    .cons (by decide) (by decide) (hword.showable hpeer)
  obtain ⟨printed, hok, hchannel, hbegins⟩ := markupLine_ok
    ((Markup.Shows.styled (by decide) hwords).append hin) hplain
    (Markup.showable_escape_plain hrepository hfor)
  refine ⟨printed, ?_, ?_⟩
  · rw [summary, ← hok]
    simp only [count, failed, List.append_assoc, List.append_nil]
    rfl
  · obtain ⟨c, digits, hdigits, hc⟩ := Text.ofNat_eq_cons r.deleted.length
    have hfirst : [Glyph.char c] <+: count ++ Text.of " in " := by
      simp only [count, hdigits, List.cons_append]
      exact List.cons_prefix_cons.2 ⟨rfl, List.nil_prefix⟩
    -- the line begins with a digit, and a digit begins none of the words
    have hother : ∀ word ∈ deletionWords,
        ¬ word <+: [Glyph.char c] ∧ ¬ [Glyph.char c] <+: word := by
      intro word hword
      refine ⟨fun hprefix => ?_, fun ⟨rest, hrest⟩ => ?_⟩
      · have hlong : 1 < word.length := (by decide : ∀ w ∈ deletionWords, 1 < w.length) word hword
        exact absurd hprefix.length_le (Nat.not_le.2 hlong)
      · -- the words begin with letters
        simp only [deletionWords, List.mem_cons, List.not_mem_nil, or_false] at hword
        rcases hword with rfl | rfl | rfl <;>
          exact absurd (Glyph.char.inj (List.cons.inj hrest).1 ▸ hc) (by decide)
    exact .of_begins hchannel (hfirst.trans hbegins) hother

end Report

end RefSweep
