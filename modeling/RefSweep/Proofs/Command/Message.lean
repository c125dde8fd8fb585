import RefSweep.Proofs.Command.Report
import RefSweep.Proofs.Text.Echo

/-!
# Messages on the error output

The messages of errors are escaped and put into lines of markup. Main statement: `messages_shown`,
what the lines of errors and of failed deletions show of a message. No part of it acts as markup,
but it is not always shown as it is.
-/

namespace RefSweep

theorem Text.Plain.echoed {t : Text} (h : t.Plain) : (Markup.echoed t).Plain := fun g hg => by
  obtain rfl | hmem := Markup.mem_echoed hg
  · decide
  · exact h g hmem

namespace Report

variable {t t' u u' message : Text} {o : DeletionOutcome}

/-- A line of markup that ends in an escaped text and a hint. -/
theorem markupLine_message (hfront : Markup.Shows [] t [] u) (hhint : Markup.Shows [] t' [] u')
    (hapart : Markup.Apart t') (hplain : (u ++ (Markup.echoed message ++ u')).Plain) :
    markupLine (t ++ (Markup.escape message ++ t')) =
      .ok ⟨.err, u ++ (Markup.echoed message ++ u') ++ [.char '\n']⟩ := by
  obtain ⟨middle, hfirst⟩ := hfront 0 (Markup.escape message ++ t')
  obtain ⟨last, hmessage⟩ := Markup.renderFrom_escape hapart [] middle message
  obtain ⟨_, hend⟩ := hhint last []
  rw [List.append_nil] at hend
  rw [markupLine, Markup.render, hfirst, hmessage, hend, Markup.renderFrom]
  simp only [Markup.renderFrom.shown, Except.map, Markup.backslashes, List.replicate_zero,
    List.append_nil, plainLine, Text.onTerminal_plain hplain]

theorem error_eq (hmessage : message.Plain) :
    error message = .ok ⟨.err, Text.of "Error: " ++ Markup.echoed message ++ [.char '\n']⟩ := by
  have hnothing : Markup.Shows [] [] [] [] := .word List.not_mem_nil List.not_mem_nil
  have hplain : (Text.of "Error: " ++ (Markup.echoed message ++ [])).Plain :=
    .append (by decide) (hmessage.echoed.append nofun)
  have hline := markupLine_message shows_error hnothing .nil hplain
  rw [List.append_nil, List.append_nil] at hline
  exact hline

theorem reasonOf_some {e : Text} (he : e ≠ []) : reasonOf (some e) = e.display := by
  cases e with
  | nil => exact absurd rfl he
  | cons g t => rfl

theorem deletion_eq {e : Text} (hname : RefName.parse o.name.text = .ok o.name)
    (hfailed : o.deleted = false) (herror : o.error = some e) (he : e ≠ []) (hplain : e.Plain) :
    deletion o = .ok ⟨.err, Text.of "Failed to delete " ++ (o.name.text.display ++ Text.of ": ") ++
      (Markup.echoed e.display ++ if o.retryable then Text.of " (retryable)" else []) ++
        [.char '\n']⟩ := by
  obtain ⟨hhint, hapart⟩ := shows_retryable o.retryable
  have hfront : (Text.of "Failed to delete " ++ (o.name.text.display ++ Text.of ": ")).Plain :=
    .append (by decide) ((RefName.plain_text hname).display.append (by decide))
  have hback : (if o.retryable then Text.of " (retryable)" else []).Plain := by
    cases o.retryable <;> decide
  rw [deletion_of_failed hname hfailed, herror, reasonOf_some he]
  exact markupLine_message (shows_failed hname) hhint hapart
    (hfront.append (hplain.display.echoed.append hback))

/-- The line of an error shows its message, and the line of a failed deletion the name, the error
and whether it may be tried again, each message as it is echoed. A message is echoed as it is unless
it has a backslash before a bracket that opens no tag, or ends in a single backslash. -/
theorem messages_shown (message : Text) (hmessage : message.Plain) :
    error message = .ok ⟨.err, Text.of "Error: " ++ Markup.echoed message ++ [.char '\n']⟩ ∧
    (∀ o : DeletionOutcome, RefName.parse o.name.text = .ok o.name → o.deleted = false →
      o.error = some message → message ≠ [] →
      deletion o = .ok ⟨.err, Text.of "Failed to delete " ++
        (o.name.text.display ++ Text.of ": ") ++
        (Markup.echoed message.display ++ if o.retryable then Text.of " (retryable)" else []) ++
        [.char '\n']⟩) ∧
    ∀ t : Text, Markup.echoed t = t ↔ ¬ Markup.Loses t ∧ ¬ Markup.EndsInOne t :=
  ⟨error_eq hmessage,
    fun _ hname hfailed herror hne => deletion_eq hname hfailed herror hne hmessage,
    Markup.echoed_eq_self_iff⟩

/-- An error loses a backslash, and the reason of a failed deletion gains one. -/
theorem messages_shown_backslash :
    error "\x5c[1]" = .ok ⟨.err, "Error: [1]\n"⟩ ∧
      deletion ⟨⟨["refs", "heads", "a"]⟩, false, some "b\x5c", true⟩ =
        .ok ⟨.err, "Failed to delete refs/heads/a: b\x5c\x5c (retryable)\n"⟩ := by
  obtain ⟨herror, -, -⟩ := messages_shown "\x5c[1]" (by decide)
  obtain ⟨-, hdeletion, -⟩ := messages_shown "b\x5c" (by decide)
  refine ⟨herror.trans (by decide +kernel), ?_⟩
  exact (hdeletion _ rfl rfl rfl (by decide)).trans (by decide +kernel)

end Report

end RefSweep
