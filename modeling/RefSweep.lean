import RefSweep.Host.Opened
import RefSweep.Main
import RefSweep.Scripted
import RefSweep.Store.Edit
import RefSweep.Proofs.Account
import RefSweep.Proofs.Command.Course
import RefSweep.Proofs.Command.Home
import RefSweep.Proofs.Command.Message
import RefSweep.Proofs.Command.Prediction
import RefSweep.Proofs.Command.Record
import RefSweep.Proofs.Command.Report
import RefSweep.Proofs.Config
import RefSweep.Proofs.Conversation
import RefSweep.Proofs.Digest
import RefSweep.Proofs.Ending
import RefSweep.Proofs.Entries
import RefSweep.Proofs.FileTree
import RefSweep.Proofs.Git.Count
import RefSweep.Proofs.Git.Deletion
import RefSweep.Proofs.Git.Listing
import RefSweep.Proofs.Git.Lock
import RefSweep.Proofs.Git.LockFile
import RefSweep.Proofs.Git.Names
import RefSweep.Proofs.Git.Refusal
import RefSweep.Proofs.Git.Safety
import RefSweep.Proofs.Home
import RefSweep.Proofs.Host.Account
import RefSweep.Proofs.Host.Address
import RefSweep.Proofs.Host.Compaction
import RefSweep.Proofs.Host.Database
import RefSweep.Proofs.Host.Evolution
import RefSweep.Proofs.Host.History
import RefSweep.Proofs.Host.Initialised
import RefSweep.Proofs.Host.Located
import RefSweep.Proofs.Host.Opening
import RefSweep.Proofs.Host.Prediction
import RefSweep.Proofs.Host.Pruning
import RefSweep.Proofs.Host.Recovery
import RefSweep.Proofs.Namespace
import RefSweep.Proofs.Opening
import RefSweep.Proofs.Outcomes
import RefSweep.Proofs.Path
import RefSweep.Proofs.Prediction
import RefSweep.Proofs.Protocol
import RefSweep.Proofs.RefName
import RefSweep.Proofs.Reports
import RefSweep.Proofs.Retry
import RefSweep.Proofs.Scripted
import RefSweep.Proofs.Store.Change
import RefSweep.Proofs.Store.Collection
import RefSweep.Proofs.Store.Compaction
import RefSweep.Proofs.Store.Dialogue
import RefSweep.Proofs.Store.Forgetting
import RefSweep.Proofs.Store.Identity
import RefSweep.Proofs.Store.Interleaving
import RefSweep.Proofs.Store.Keeping
import RefSweep.Proofs.Store.Pruning
import RefSweep.Proofs.Store.Refusal
import RefSweep.Proofs.Store.Schema
import RefSweep.Proofs.Store.Session
import RefSweep.Proofs.Store.Shared
import RefSweep.Proofs.Store.Sound
import RefSweep.Proofs.Text.Digits
import RefSweep.Proofs.Text.Echo
import RefSweep.Proofs.Text.Markup
import RefSweep.Proofs.Text.Percent
import RefSweep.Proofs.Text.Space
import RefSweep.Proofs.Text.Split
import RefSweep.Proofs.Text.Terminal
import RefSweep.Proofs.Text.Utf8
import RefSweep.Proofs.Visits
