import NativeLink.Text.Blank
import NativeLink.Text.Inspect
import NativeLink.Address
import NativeLink.Signature.Reader
import NativeLink.Value
import NativeLink.Log
import NativeLink.Cache.Request
import NativeLink.Cache.Contest
import NativeLink.Client
import NativeLink.Cache.Visits
import NativeLink.Cache.Notes
import NativeLink.Scripted.Recording
import NativeLink.Scripted.Planned
import NativeLink.Scripted.Enquiry
import NativeLink.Config.Basic
import NativeLink.Config.Lexical
import NativeLink.Config.Load
import NativeLink.Foreign.Resolver
import NativeLink.Workbench.Site
import NativeLink.Workbench.Files
import NativeLink.Proofs.Cache.Table
import NativeLink.Proofs.Interleaving.Moves
import NativeLink.Proofs.Interleaving.Scene
import NativeLink.Proofs.Interleaving.Soundness
import NativeLink.Proofs.Interleaving.Record
import NativeLink.Proofs.Interleaving.Agreement
import NativeLink.Proofs.Interleaving.Leftovers
import NativeLink.Cache.Lock
import NativeLink.Proofs.Interleaving.Nesting
import NativeLink.Proofs.Interleaving.Progress
import NativeLink.Proofs.Interleaving.Accounts
import NativeLink.Proofs.Interleaving.Plays
import NativeLink.Proofs.Contest.Fair
import NativeLink.Proofs.Contest.Books
import NativeLink.Proofs.Contest.Settlement
import NativeLink.Proofs.Text.Trim
import NativeLink.Proofs.Text.Numeral
import NativeLink.Proofs.Signature.Canonical
import NativeLink.Proofs.Session.Notes
import NativeLink.Proofs.Session.Dependencies
import NativeLink.Proofs.Session.Origin
import NativeLink.Proofs.Client.Handed
import NativeLink.Proofs.Interleaving.Origin
import NativeLink.Proofs.Foreign.Operations
import NativeLink.Cache.Trail
import NativeLink.Proofs.Cache.Change
import NativeLink.Proofs.Session.Trail
import NativeLink.Proofs.Session.Permanence
import NativeLink.Proofs.Session.Failure
import NativeLink.Proofs.Context.Life
import NativeLink.Proofs.Context.Attendance
import NativeLink.Proofs.Context.Constructor
import NativeLink.Proofs.Context.Probe
import NativeLink.Proofs.Client.Calls
import NativeLink.Proofs.Client.Deeds
import NativeLink.Proofs.Session.Numbering
import NativeLink.Proofs.Client.Birth
import NativeLink.Proofs.Session.Direct
import NativeLink.Proofs.Scripted.Recording
import NativeLink.Proofs.Client.Likeness
import NativeLink.Proofs.Foreign.Lookup
import NativeLink.Proofs.Foreign.Registration
import NativeLink.Proofs.Foreign.Elsewhere
import NativeLink.Proofs.Foreign.Late
import NativeLink.Proofs.Client.Apart
import NativeLink.Proofs.Client.Shelf
import NativeLink.Proofs.Scripted.Stocking
import NativeLink.Proofs.Client.Isolation
import NativeLink.Proofs.Session.Log
import NativeLink.Proofs.Interleaving.Tickets
import NativeLink.Proofs.Interleaving.Stories
import NativeLink.Proofs.Interleaving.Log
import NativeLink.Proofs.Interleaving.Alone
import NativeLink.Cache.Errand
import NativeLink.Foreign.Argument
import NativeLink.Proofs.Signature.Acceptance
import NativeLink.Proofs.Foreign.Admission
import NativeLink.Proofs.Foreign.Exactness
import NativeLink.Proofs.Session.Standing
import NativeLink.Proofs.Session.Reordering
import NativeLink.Foreign.Entries
import NativeLink.Proofs.Foreign.Precedence
import NativeLink.Proofs.Foreign.Build
import NativeLink.Proofs.Foreign.Naming
import NativeLink.Crossing
import NativeLink.Proofs.Client.Conduct
import NativeLink.Cache.Snapshot
import NativeLink.Proofs.Signature.Refusal
import NativeLink.Proofs.Session.Residue
import NativeLink.Proofs.Cache.Observers
import NativeLink.Proofs.Config.Tokens
import NativeLink.Proofs.Config.Written
